import Mathlib.Algebra.Group.Nat.Defs
import Mathlib.Logic.Function.Basic
import GbEmu.MemMap

/-!
The cartridge of `cartridge.cpp`: the image and its header, and the two memory
bank controllers behind it. A failed assertion and an access past the end of a
vector are both a `Fault` (a release build drops the assertion and makes the
access); an exception that leaves a constructor is `Fault.thrown`.
-/

namespace GbEmu

inductive Fault
  | assertFailed
  | outOfRange
  | thrown
  | depth
  deriving DecidableEq, Repr

/-- The fields of `std::tm` that `latch` reads. -/
structure Tm where
  sec : Nat
  min : Nat
  hour : Nat
  yday : Nat

/-- What the constructor takes from the host: the configured emulation mode,
the save files by name, and the result of each successive `localtime` call. -/
structure Host where
  emuMode : UInt8
  saveFile : List UInt8 → Option (List UInt8)
  localtime : Nat → Option Tm

/-! ## Memory bank controllers -/

abbrev RamBank := Nat → UInt8

structure MemoryBankController where
  ram : List RamBank
  ramEnable : Bool
  romBank : UInt8
  ramBank : UInt8
  hasBattery : Bool
  /-- Contents of the save file, when one is open. -/
  nvRam : Option (List UInt8)

namespace MemoryBankController

def ramDisabled : UInt8 := 0xFF

/-- The bytes of one bank, as `write` puts them into the save file. -/
def bankBytes (bank : RamBank) : List UInt8 := (List.range extRamSize).map bank

/-- Banks filled from a save file; a short file leaves the rest at zero. -/
def loadBanks (banks : Nat) (save : List UInt8) : List RamBank :=
  (List.range banks).map fun b i => save.getD (b * extRamSize + i) 0

def initRAM (host : Host) (name : List UInt8) (m : MemoryBankController) : MemoryBankController :=
  if !m.hasBattery then m
  else
    let ram := match host.saveFile name with
      | some save => loadBanks m.ram.length save
      | none => m.ram
    { m with ram := ram, nvRam := some (ram.flatMap bankBytes) }

def init (host : Host) (game : List UInt8) (size : Nat) (battery : Bool) : MemoryBankController :=
  initRAM host (game ++ [0x2E, 0x73, 0x61, 0x76])
    { ram := List.replicate (size / extRamSize) fun _ => 0
      ramEnable := false
      romBank := 1
      ramBank := 0
      hasBattery := battery
      nvRam := none }

def writeRAM (m : MemoryBankController) (address : UInt16) (value : UInt8) :
    Except Fault MemoryBankController :=
  if !m.ramEnable then .ok m
  else
    let index := address.toNat - extRamOffset
    match m.ram[m.ramBank.toNat]? with
    | none => .error .outOfRange
    | some bank =>
      if index < extRamSize then
        .ok { m with
          ram := m.ram.set m.ramBank.toNat (Function.update bank index value)
          nvRam := m.nvRam.map fun file => file.set (index + extRamSize * m.ramBank.toNat) value }
      else .error .outOfRange

/-- `memory` is the image of the cartridge the controller belongs to. -/
def readROM (memory : List UInt8) (m : MemoryBankController) (address : UInt16) :
    Except Fault UInt8 :=
  if m.romBank = 0 then .error .assertFailed
  else
    match memory[address.toNat + (m.romBank.toNat - 1) * rom1Size]? with
    | none => .error .outOfRange
    | some byte => .ok byte

def readRAM (m : MemoryBankController) (address : UInt16) : Except Fault UInt8 :=
  if !m.ramEnable then .ok ramDisabled
  else
    let index := address.toNat - extRamOffset
    match m.ram[m.ramBank.toNat]? with
    | none => .error .outOfRange
    | some bank => if index < extRamSize then .ok (bank index) else .error .outOfRange

end MemoryBankController

/-! ## MBC1 -/

inductive BankMode
  | rom
  | ram
  deriving DecidableEq, Repr

structure MBC1 extends MemoryBankController where
  mode : BankMode

namespace MBC1

def init (host : Host) (game : List UInt8) (size : Nat) (battery : Bool) : MBC1 :=
  { MemoryBankController.init host game size battery with mode := .rom }

def writeROM (m : MBC1) (address : UInt16) (value : UInt8) : MBC1 :=
  if address < 0x2000 then
    { m with ramEnable := (value &&& 0x0F) == 0x0A }
  else if address < 0x4000 then
    let bank := value &&& 0x1F
    let bank :=
      if bank = 0x00 ∨ bank = 0x20 ∨ bank = 0x40 ∨ bank = 0x60 then bank ||| 0x01 else bank
    { m with romBank := (m.romBank &&& 0xE0) ||| bank }
  else if address < 0x6000 then
    match m.mode with
    -- The upper bits are or'ed into the whole current bank, not its low five bits.
    | .rom => { m with romBank := ((value <<< 5) &&& 0xE0) ||| m.romBank }
    | .ram => { m with ramBank := value &&& 0x07 }
  else if address < 0x8000 then
    { m with mode := if value = 0x00 then .rom else .ram }
  else m

end MBC1

/-! ## MBC3 -/

structure Rtc where
  seconds : UInt8
  minutes : UInt8
  hours : UInt8
  day0 : UInt8
  day1 : UInt8

structure MBC3 extends MemoryBankController where
  rtc : Rtc
  latched : UInt8
  localtime : Nat → Option Tm
  /-- Number of `localtime` calls made so far. -/
  calls : Nat

namespace MBC3

def ramBankCount : Nat := 4

def latch (m : MBC3) : MBC3 :=
  let m' := { m with calls := m.calls + 1 }
  match m.localtime m.calls with
  | none => m'
  | some now =>
    let days := UInt16.ofNat now.yday
    let msb : UInt8 := ((days >>> 7) &&& 0x01).toUInt8
    { m' with
      rtc :=
        { seconds := UInt8.ofNat now.sec
          minutes := UInt8.ofNat now.min
          hours := UInt8.ofNat now.hour
          day0 := (days &&& 0xFF).toUInt8
          day1 := (m.rtc.day1 &&& 0xFE) ||| msb } }

theorem latch_controller (m : MBC3) :
    m.latch.toMemoryBankController = m.toMemoryBankController := by
  unfold latch
  split <;> rfl

def init (host : Host) (game : List UInt8) (size : Nat) (battery : Bool) : MBC3 :=
  latch
    { MemoryBankController.init host game size battery with
      rtc := { seconds := 0, minutes := 0, hours := 0, day0 := 0, day1 := 0x3E }
      latched := 0
      localtime := host.localtime
      calls := 0 }

def readRAM (m : MBC3) (address : UInt16) : Except Fault UInt8 :=
  if !m.ramEnable then .ok MemoryBankController.ramDisabled
  else if m.ramBank.toNat < ramBankCount then m.toMemoryBankController.readRAM address
  else if m.ramBank = 0x09 then .ok m.rtc.minutes
  else if m.ramBank = 0x0A then .ok m.rtc.hours
  else if m.ramBank = 0x0B then .ok m.rtc.day0
  else if m.ramBank = 0x0C then .ok m.rtc.day1
  -- An unknown selection falls through to the seconds.
  else .ok m.rtc.seconds

def writeRAM (m : MBC3) (address : UInt16) (value : UInt8) : Except Fault MBC3 :=
  if !m.ramEnable then .ok m
  else if m.ramBank.toNat < ramBankCount then
    (m.toMemoryBankController.writeRAM address value).map fun c =>
      { m with toMemoryBankController := c }
  else if m.ramBank = 0x09 then .ok { m with rtc := { m.rtc with minutes := value } }
  else if m.ramBank = 0x0A then .ok { m with rtc := { m.rtc with hours := value } }
  else if m.ramBank = 0x0B then .ok { m with rtc := { m.rtc with day0 := value } }
  else if m.ramBank = 0x0C then .ok { m with rtc := { m.rtc with day1 := value } }
  else .ok { m with rtc := { m.rtc with seconds := value } }

def writeROM (m : MBC3) (address : UInt16) (value : UInt8) : MBC3 :=
  if address < 0x2000 then
    { m with ramEnable := (value &&& 0x0F) == 0x0A }
  else if address < 0x4000 then
    let bank := value &&& 0x7F
    { m with romBank := if bank ≠ 0x00 then bank else 0x01 }
  else if address < 0x6000 then
    { m with ramBank := value }
  else if address < 0x8000 then
    let m' := { m with latched := value }
    if m.latched = 0x00 ∧ value = 0x01 then latch m' else m'
  else m

end MBC3

/-! ## Virtual dispatch -/

inductive Bank
  | mbc1 (m : MBC1)
  | mbc3 (m : MBC3)

namespace Bank

def controller : Bank → MemoryBankController
  | mbc1 m => m.toMemoryBankController
  | mbc3 m => m.toMemoryBankController

def writeROM (b : Bank) (address : UInt16) (value : UInt8) : Bank :=
  match b with
  | mbc1 m => mbc1 (m.writeROM address value)
  | mbc3 m => mbc3 (m.writeROM address value)

def writeRAM (b : Bank) (address : UInt16) (value : UInt8) : Except Fault Bank :=
  match b with
  | mbc1 m =>
    (m.toMemoryBankController.writeRAM address value).map fun c =>
      mbc1 { m with toMemoryBankController := c }
  | mbc3 m => (m.writeRAM address value).map mbc3

def readRAM (b : Bank) (address : UInt16) : Except Fault UInt8 :=
  match b with
  | mbc1 m => m.toMemoryBankController.readRAM address
  | mbc3 m => m.readRAM address

end Bank

/-! ## Cartridge -/

structure Cartridge where
  valid : Bool
  cgb : Bool
  size : Nat
  name : List UInt8
  type : UInt8
  memory : List UInt8
  bank : Option Bank

namespace Cartridge

def romMaxSize : Nat := 2097152
def romHeaderLength : Nat := 0x0180
def nintendoLogoOffset : Nat := 0x0104
def romNameOffset : Nat := 0x0134
def romNameMaxLength : Nat := 0x10
def romCgbOffset : Nat := 0x0143
def romTypeOffset : Nat := 0x0147
def romRamSizeOffset : Nat := 0x0149
def romDualSupport : UInt8 := 0x80
def romCgbOnly : UInt8 := 0xC0

def nintendoLogo : List UInt8 :=
  [0xCE, 0xED, 0x66, 0x66, 0xCC, 0x0D, 0x00, 0x0B, 0x03,
   0x73, 0x00, 0x83, 0x00, 0x0C, 0x00, 0x0D, 0x00, 0x08,
   0x11, 0x1F, 0x88, 0x89, 0x00, 0x0E, 0xDC, 0xCC, 0x6E,
   0xE6, 0xDD, 0xDD, 0xD9, 0x99, 0xBB, 0xBB, 0x67, 0x63,
   0x6E, 0x0E, 0xEC, 0xCC, 0xDD, 0xDC, 0x99, 0x9F, 0xBB,
   0xB9, 0x33, 0x3E]

def ramSizes : List Nat := [0x0000, 0x0800, 0x2000, 0x8000]

/-- `m_memory.at(offset)` for a header offset, below `romHeaderLength`. -/
def header (memory : List UInt8) (offset : Nat) : UInt8 := memory.getD offset 0

def hasLogo (memory : List UInt8) : Bool :=
  (List.range nintendoLogo.length).all fun i =>
    header memory (i + nintendoLogoOffset) == nintendoLogo.getD i 0

def readName (memory : List UInt8) : List UInt8 :=
  (((memory.drop romNameOffset).take romNameMaxLength).takeWhile fun entry =>
    entry != romCgbOnly && entry != romDualSupport).filter (· != 0x00)

def getCgbMode (host : Host) (memory : List UInt8) : Bool :=
  let flag := header memory romCgbOffset
  if host.emuMode = 1 then true
  else if host.emuMode = 2 then flag == romCgbOnly
  else flag == romDualSupport || flag == romCgbOnly

/-- `RAM_SIZES.at(index)`, index 0 standing for the largest size. -/
def ramSize (memory : List UInt8) : Except Fault Nat :=
  let index := header memory romRamSizeOffset
  if index = 0 then .ok 0x8000
  else
    match ramSizes[index.toNat]? with
    | none => .error .thrown
    | some size => .ok size

/-- `MBC_3RB` and `MBC_3TRB`. -/
def isMbc3 (type : UInt8) : Bool := type == 0x13 || type == 0x10

def initMemoryBankController (host : Host) (game memory : List UInt8) (type : UInt8) :
    Except Fault Bank :=
  (ramSize memory).map fun size =>
    if isMbc3 type then .mbc3 (MBC3.init host game size true)
    -- `MBC_1RB`; every other type, known or not, gets an MBC1 without battery.
    else .mbc1 (MBC1.init host game size (type == 0x03))

def empty : Cartridge :=
  { valid := false, cgb := false, size := 0, name := [], type := 0, memory := [], bank := none }

/-- The constructor, on the contents of the file at the given path. -/
def load (host : Host) (file : Option (List UInt8)) : Except Fault Cartridge :=
  match file with
  | none => .ok empty
  | some bytes =>
    let size := bytes.length % 2 ^ 32
    if size < romHeaderLength ∨ size > romMaxSize then .ok { empty with size := size }
    else
      let memory := bytes.take size
      if !hasLogo memory then .ok { empty with size := size, memory := memory }
      else
        let name := readName memory
        let type := header memory romTypeOffset
        (initMemoryBankController host name memory type).map fun bank =>
          { valid := true
            cgb := getCgbMode host memory
            size := size
            name := name
            type := type
            memory := memory
            bank := some bank }

def romBank (c : Cartridge) : UInt8 :=
  match c.bank with
  | none => 0
  | some bank => bank.controller.romBank

def ramBank (c : Cartridge) : UInt8 :=
  match c.bank with
  | none => 0
  | some bank => bank.controller.ramBank

def read (c : Cartridge) (address : UInt16) : Except Fault UInt8 :=
  match c.bank with
  | none => .error .assertFailed
  | some bank =>
    if address.toNat < rom0Offset + rom0Size then
      match c.memory[address.toNat]? with
      | none => .error .outOfRange
      | some byte => .ok byte
    else if address.toNat < rom1Offset + rom1Size then
      bank.controller.readROM c.memory address
    else if extRamOffset ≤ address.toNat ∧ address.toNat < extRamOffset + extRamSize then
      bank.readRAM address
    else .error .assertFailed

def write (c : Cartridge) (address : UInt16) (value : UInt8) : Except Fault Cartridge :=
  match c.bank with
  | none => .error .assertFailed
  | some bank =>
    if address.toNat < rom0Offset + rom0Size ∨ address.toNat < rom1Offset + rom1Size then
      .ok { c with bank := some (bank.writeROM address value) }
    else if extRamOffset ≤ address.toNat ∧ address.toNat < extRamOffset + extRamSize then
      (bank.writeRAM address value).map fun b => { c with bank := some b }
    else .ok c

end Cartridge

end GbEmu
