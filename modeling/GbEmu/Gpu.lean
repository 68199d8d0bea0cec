import Mathlib.Algebra.Group.Nat.Defs
import Mathlib.Logic.Function.Basic
import GbEmu.MemMap

/-!
The state of the graphics unit and its palette memory. The registers that
`gpu.cpp` holds as references (`m_control`, `m_status`, `m_scanline`, ...) are
cells of the IO region and live in the bus.
-/

namespace GbEmu

structure RGB where
  red : UInt8
  green : UInt8
  blue : UInt8
  alpha : UInt8
  deriving DecidableEq, Repr

/-- A colour with the two raw bytes it was computed from. -/
structure ColorPixel where
  byte0 : UInt8
  byte1 : UInt8
  rgb : RGB
  deriving DecidableEq, Repr

/-- Four colours. -/
abbrev ColorPalette := Nat → ColorPixel

/-- Eight palettes. -/
abbrev CgbColors := Nat → ColorPalette

/-- Eight pixels. -/
abbrev TileRow := Nat → RGB

/-- One frame: pixel `x` of line `y` is entry `y * 160 + x`. -/
abbrev ColorArray := Nat → RGB

inductive RenderState
  | hblank
  | vblank
  | oam
  | vram
  deriving DecidableEq, Repr

/-- The value of the enumerator, which is also the mode field of STAT. -/
def RenderState.toByte : RenderState → UInt8
  | hblank => 0
  | vblank => 1
  | oam => 2
  | vram => 3

structure Gpu where
  /-- `m_memory[bank][index]`, two banks of 8192 bytes. -/
  memory : Nat → Nat → UInt8
  state : RenderState
  ticks : Nat
  vscan : Nat
  screen : ColorArray
  buffer : ColorArray
  bg : ColorArray
  /-- `colors` of each entry of `m_sprites`, as left by the last `readSprite`. -/
  spriteColors : Nat → TileRow
  spriteHeight : Nat → UInt8
  bgPalette : CgbColors
  spritePalette : CgbColors

namespace Gpu

def noColor : RGB := ⟨0, 0, 0, 0⟩

def dmgPalette : ColorPalette
  | 0 => ⟨0, 0, ⟨255, 255, 255, 0xFF⟩⟩
  | 1 => ⟨0, 0, ⟨192, 192, 192, 0xFF⟩⟩
  | 2 => ⟨0, 0, ⟨96, 96, 96, 0xFF⟩⟩
  | _ => ⟨0, 0, ⟨0, 0, 0, 0xFF⟩⟩

/-- RGB555 component to eight bits. The `double` product is 255/31 times the
value, never within rounding distance of an integer except at 0 and 31. -/
def convert (value : UInt16) : UInt8 := UInt8.ofNat (0xFF * value.toNat / 0x1F)

def writePalette (colors : CgbColors) (index value : UInt8) : CgbColors :=
  let pIdx := (index / 8).toNat
  let cIdx := ((index % 8) >>> 1).toNat
  let old := colors pIdx cIdx
  let byte0 := if index &&& 0x01 = 0 then value else old.byte0
  let byte1 := if index &&& 0x01 = 0 then old.byte1 else value
  let bits : UInt16 := (byte1.toUInt16 <<< 8) ||| byte0.toUInt16
  let rgb : RGB :=
    { red := convert (bits &&& 0x1F)
      green := convert ((bits >>> 5) &&& 0x1F)
      blue := convert ((bits >>> 10) &&& 0x1F)
      alpha := 0xFF }
  Function.update colors pIdx (Function.update (colors pIdx) cIdx ⟨byte0, byte1, rgb⟩)

def readPalette (colors : CgbColors) (index : UInt8) : UInt8 :=
  let entry := colors (index / 8).toNat ((index % 8) >>> 1).toNat
  if index &&& 0x01 = 0 then entry.byte0 else entry.byte1

end Gpu

end GbEmu
