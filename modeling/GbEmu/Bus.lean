import GbEmu.Cartridge
import GbEmu.ConsoleLink
import GbEmu.Gpu
import GbEmu.Lib.BitField
import GbEmu.Lib.Run

/-!
The memory controller and its regions, with the mapped IO of `mappedio.cpp`.
Cells of a fixed region are named by their bus address, those of video and work
RAM by bank and index. A write can start further writes on the same bus (DMA and
the palette registers), so `write` carries the depth left for them and fails
with `Fault.depth` when it is used up.
-/

namespace GbEmu

/-- The BIOS image; the longer of the two has 0x900 bytes. -/
structure Bios where
  image : List UInt8
  fits : image.length ≤ 0x0900

structure Bus where
  /-- Whether `assert` is compiled out (`NDEBUG`). -/
  ndebug : Bool
  /-- Whether the BIOS still is the first region. -/
  inBios : Bool
  bios : Bios
  cartridge : Option Cartridge
  working : Nat → Nat → UInt8
  oam : UInt16 → UInt8
  io : UInt16 → UInt8
  zero : UInt16 → UInt8
  rtcReset : Bool
  gpu : Gpu
  link : Option ConsoleLink

inductive Region
  | bios
  | cartridge
  | gpu
  | working
  | oam
  | unusable
  | io
  | zero
  deriving DecidableEq, Repr

namespace Region

def isWritable : Region → Bool
  | bios => false
  | _ => true

def isReadOnly : Region → Bool
  | cartridge => true
  | _ => false

end Region

namespace Bus

def isCGB (s : Bus) : Bool :=
  match s.cartridge with
  | none => false
  | some c => c.cgb

def isCartridgeValid (s : Bus) : Bool :=
  match s.cartridge with
  | none => false
  | some c => c.valid

/-! ## Regions -/

def within (offset size a : Nat) : Bool := offset ≤ a && a < offset + size

/-- `isShadowAddressed`: the echo of work RAM, less its last 512 bytes. -/
def isShadowAddressed (a : Nat) : Bool :=
  within (workingRamOffset + workingRamSize) (workingRamSize - 512) a

def isAddressed (s : Bus) (r : Region) (address : UInt16) : Bool :=
  let a := address.toNat
  match r with
  -- The CGB image has a hole where the cartridge header shows through.
  | .bios => !(0x0100 ≤ a && a < 0x0200) && within 0 s.bios.image.length a
  | .cartridge =>
    a < rom0Offset + rom0Size || within rom1Offset rom1Size a || within extRamOffset extRamSize a
  | .gpu => within gpuRamOffset gpuRamSize a
  | .working => within workingRamOffset workingRamSize a || isShadowAddressed a
  | .oam => within graphicsRamOffset graphicsRamSize a
  | .unusable => within unusableMemOffset unusableMemSize a
  | .io => within ioOffset ioSize a
  | .zero => within zramOffset zramSize a

def regions (s : Bus) : List Region :=
  (if s.inBios then [.bios] else []) ++
    [.cartridge, .gpu, .working, .oam, .unusable, .io, .zero]

def find (s : Bus) (address : UInt16) : Option Region :=
  s.regions.find? fun r => s.isAddressed r address

/-! ## Reads -/

/-- `m_mmc.read(GPU_BANK_SELECT_ADDRESS) & 0x01`. -/
def vramBank (s : Bus) : Nat := (s.io gpuBankSelectAddress &&& 0x01).toNat

/-- The index into work RAM, an echo address first moved down. -/
def workingIndex (a : Nat) : Nat :=
  (if isShadowAddressed a then a - workingRamSize else a) - workingRamOffset

/-- `WorkingRam::bank`; the bank register is not bounded. -/
def workingBank (s : Bus) (index : Nat) : Except Fault Nat :=
  if !s.isCGB then .ok (index / (workingRamSize / 2))
  else
    let selected :=
      if index < workingRamSize / 2 then 0 else max 1 (s.io workingRamBankSelect).toNat
    if selected < 8 then .ok selected else .error .outOfRange

def readWorking (s : Bus) (address : UInt16) : Except Fault UInt8 :=
  let index := workingIndex address.toNat
  (s.workingBank index).map fun bank => s.working bank (index % (workingRamSize / 2))

/-- `Removable::read`; an empty or invalid cartridge reads as 0xFF. -/
def readCartridge (s : Bus) (address : UInt16) : Except Fault UInt8 :=
  match s.cartridge with
  | none => .ok 0xFF
  | some c => if c.valid then c.read address else .ok 0xFF

/-- `MappedIO::read`. -/
def readIo (s : Bus) (address : UInt16) : UInt8 :=
  if address = gpuBgPaletteData then
    Gpu.readPalette s.gpu.bgPalette (s.io gpuBgPaletteIndex &&& 0x3F)
  else if address = gpuSpritePaletteData then
    Gpu.readPalette s.gpu.spritePalette (s.io gpuSpritePaletteIndex &&& 0x3F)
  else s.io address

def readRegion (s : Bus) (r : Region) (address : UInt16) : Except Fault UInt8 :=
  match r with
  | .bios =>
    match s.bios.image[address.toNat]? with
    | none => .error .outOfRange
    | some byte => .ok byte
  | .cartridge => s.readCartridge address
  | .gpu => .ok (s.gpu.memory s.vramBank (address.toNat - gpuRamOffset))
  | .working => s.readWorking address
  | .oam => .ok (s.oam address)
  | .unusable => .ok 0xFF
  | .io => .ok (s.readIo address)
  | .zero => .ok (s.zero address)

/-- `MemoryController::DUMMY`. -/
def dummy : UInt8 := 0xFF

/-- `FATAL` before `return DUMMY`: the assertion fails unless it is compiled out. -/
def fatal (s : Bus) : Except Fault UInt8 := if s.ndebug then .ok dummy else .error .assertFailed

def peek (s : Bus) (address : UInt16) : Except Fault UInt8 :=
  match s.find address with
  | none => s.fatal
  | some r => s.readRegion r address

def read (s : Bus) (address : UInt16) : Except Fault UInt8 :=
  match s.find address with
  | none => s.fatal
  | some r => if r.isReadOnly then s.fatal else s.readRegion r address

/-! ## Writes -/

def setIo (s : Bus) (address : UInt16) (value : UInt8) : Bus :=
  { s with io := Function.update s.io address value }

/-- `MappedIO::writeBytes`. -/
def writeBytes (s : Bus) (address : UInt16) (value mask : UInt8) : Bus :=
  s.setIo address (BitField.insert mask (s.io address) value)

def writeWorking (s : Bus) (address : UInt16) (value : UInt8) : Except Fault Bus :=
  let index := workingIndex address.toNat
  (s.workingBank index).map fun bank =>
    let cells := Function.update (s.working bank) (index % (workingRamSize / 2)) value
    { s with working := Function.update s.working bank cells }

def writeCartridge (s : Bus) (address : UInt16) (value : UInt8) : Except Fault Bus :=
  match s.cartridge with
  | none => .ok s
  | some c =>
    if c.valid then (c.write address value).map fun c' => { s with cartridge := some c' }
    else .ok s

def writeGpu (s : Bus) (address : UInt16) (value : UInt8) : Bus :=
  let index := address.toNat - gpuRamOffset
  let cells := Function.update (s.gpu.memory s.vramBank) index value
  { s with gpu := { s.gpu with memory := Function.update s.gpu.memory s.vramBank cells } }

/-- The regions other than mapped IO. -/
def writeRegion (s : Bus) (r : Region) (address : UInt16) (value : UInt8) : Except Fault Bus :=
  match r with
  | .bios => .ok s
  | .cartridge => s.writeCartridge address value
  | .gpu => .ok (s.writeGpu address value)
  | .working => s.writeWorking address value
  | .oam => .ok { s with oam := Function.update s.oam address value }
  | .unusable => .ok s
  | .io => .ok (s.setIo address value)
  | .zero => .ok { s with zero := Function.update s.zero address value }

section MappedIO

-- `m_parent.write`, for the writes that a write to a register makes in turn.
variable (write : Bus → UInt16 → UInt8 → Except Fault Bus)

/-- Pass `i` of a copy loop. -/
def copyByte (source dest : UInt16) (s : Bus) (i : Nat) : Except Fault Bus :=
  (s.read (source + UInt16.ofNat i)).bind fun byte => write s (dest + UInt16.ofNat i) byte

def copy (source dest : UInt16) (length : Nat) (s : Bus) : Except Fault Bus :=
  Run.run (copyByte write source dest) s (List.range length)

/-- A data write to palette memory, and the increment of its index register. -/
def writePaletteData (index : UInt16) (store : Bus → UInt8 → Bus) (s : Bus) : Except Fault Bus :=
  let pointer := s.io index
  let s' := store s (pointer &&& 0x3F)
  if pointer &&& 0x80 ≠ 0 then write s' index (0x80 + ((pointer + 1) &&& 0x3F)) else .ok s'

def writeBgPalette (value : UInt8) (s : Bus) (index : UInt8) : Bus :=
  { s with gpu := { s.gpu with bgPalette := Gpu.writePalette s.gpu.bgPalette index value } }

def writeSpritePalette (value : UInt8) (s : Bus) (index : UInt8) : Bus :=
  { s with gpu := { s.gpu with spritePalette := Gpu.writePalette s.gpu.spritePalette index value } }

/-- An address register pair of the DMA, without its low four bits. -/
def dmaAddress (upper lower : UInt8) : UInt16 :=
  ((upper.toUInt16 <<< 8) ||| lower.toUInt16) &&& 0xFFF0

def dmaSource (s : Bus) : UInt16 := dmaAddress (s.io gpuDmaSrcHigh) (s.io gpuDmaSrcLow)

def dmaDest (s : Bus) : UInt16 := dmaAddress (s.io gpuDmaDestHigh) (s.io gpuDmaDestLow)

def dmaLength (value : UInt8) : Nat := (value.toNat + 1) * 0x10

def writeDmaOam (value : UInt8) (s : Bus) : Except Fault Bus :=
  copy write (value.toUInt16 * 0x0100) (UInt16.ofNat graphicsRamOffset) graphicsRamSize s

/-- The transfer starts when bit 7 of the register, not of `value`, is clear. -/
def writeDmaMode (value : UInt8) (s : Bus) : Except Fault Bus :=
  let mode := s.io gpuDmaMode &&& 0x80
  if mode = 0 then
    (copy write s.dmaSource s.dmaDest (dmaLength value) s).map fun s' => s'.setIo gpuDmaMode 0xFF
  else .ok (s.setIo gpuDmaMode (mode &&& (value &&& 0x7F)))

def writeSerialControl (value : UInt8) (s : Bus) : Bus :=
  let s' := s.writeBytes serialControlAddress value
    (ConsoleLink.linkClock ||| ConsoleLink.linkSpeed ||| ConsoleLink.linkTransfer)
  if value &&& ConsoleLink.linkTransfer ≠ 0 then
    { s' with link := s'.link.map fun l => l.transfer (s'.io serialDataAddress) }
  else s'

/-- `MappedIO::write`. -/
def writeIo (s : Bus) (address : UInt16) (value : UInt8) : Except Fault Bus :=
  if address = gpuStatusAddress then .ok (s.writeBytes address value 0x78)
  else if address = joypadInputAddress then .ok (s.writeBytes address value 0x30)
  else if address = interruptMaskAddress then .ok (s.writeBytes address value 0x1F)
  else if address = interruptFlagsAddress then .ok (s.writeBytes address value 0x1F)
  else if address = cpuTimerControlAddress then .ok (s.writeBytes address value 0x07)
  else if address = cpuTimerDivAddress then .ok { s with rtcReset := true }
  else if address = gpuBgPaletteData then
    writePaletteData write gpuBgPaletteIndex (writeBgPalette value) s
  else if address = gpuSpritePaletteData then
    writePaletteData write gpuSpritePaletteIndex (writeSpritePalette value) s
  else if address = gpuDmaOam then writeDmaOam write value s
  else if address = gpuDmaMode then writeDmaMode write value s
  else if address = serialControlAddress then .ok (writeSerialControl value s)
  else .ok (s.setIo address value)

end MappedIO

/-- `MemoryController::write`. -/
def write : Nat → Bus → UInt16 → UInt8 → Except Fault Bus
  | 0, _, _, _ => .error .depth
  | depth + 1, s, address, value =>
    match s.find address with
    | none => s.fatal.map fun _ => s
    | some .io => writeIo (write depth) s address value
    | some r => if r.isWritable then s.writeRegion r address value else .ok s

/-- The state that the constructors and loading a cartridge leave: every cell
zero except the idle joypad and the two registers that `GPU::reset` sets. -/
def powerOn (ndebug : Bool) (bios : Bios) (cartridge : Option Cartridge)
    (link : Option ConsoleLink) : Bus where
  ndebug := ndebug
  inBios := true
  bios := bios
  cartridge := cartridge
  working := fun _ _ => 0
  oam := fun _ => 0
  io := fun address =>
    if address = joypadInputAddress then 0xFF
    else if address = gpuControlAddress then 0x91
    else if address = gpuStatusAddress then 0x86
    else 0
  zero := fun _ => 0
  rtcReset := false
  gpu :=
    { memory := fun _ _ => 0
      state := .oam
      ticks := 0
      vscan := 0
      screen := fun _ => Gpu.noColor
      buffer := fun _ => Gpu.noColor
      bg := fun _ => Gpu.noColor
      spriteColors := fun _ _ => Gpu.noColor
      spriteHeight := fun _ => 8
      bgPalette := fun _ _ => ⟨0, 0, Gpu.noColor⟩
      spritePalette := fun _ _ => ⟨0, 0, Gpu.noColor⟩ }
  link := link

/-- A console without BIOS image and cartridge. -/
def bareConsole : Bus := powerOn true ⟨[], by decide⟩ none none

end Bus

end GbEmu
