import GbEmu.Bus

/-!
The interrupt sources of `interrupt.h`, with their bit in IE and IF and the
address of their handler, in the order of their priority.
-/

namespace GbEmu

inductive Interrupt
  | vblank
  | lcd
  | timer
  | serial
  | joypad
  deriving DecidableEq, Repr

namespace Interrupt

/-- `InterruptMask`. -/
def mask : Interrupt → UInt8
  | vblank => 0x01
  | lcd => 0x02
  | timer => 0x04
  | serial => 0x08
  | joypad => 0x10

/-- `InterruptVector`. -/
def vector : Interrupt → UInt16
  | vblank => 0x40
  | lcd => 0x48
  | timer => 0x50
  | serial => 0x58
  | joypad => 0x60

/-- The order in which `Processor::interrupt` looks for them. -/
def priority : List Interrupt := [vblank, lcd, timer, serial, joypad]

/-- The number of the bit in IE and IF. -/
def bit : Interrupt → Nat
  | vblank => 0
  | lcd => 1
  | timer => 2
  | serial => 3
  | joypad => 4

theorem vector_eq (i : Interrupt) : i.vector = UInt16.ofNat (0x40 + 8 * i.bit) := by
  cases i <;> rfl

theorem mask_eq (i : Interrupt) : i.mask = UInt8.ofNat (2 ^ i.bit) := by
  cases i <;> rfl

theorem bit_mask (i : Interrupt) : BitField.bit i.mask i.bit = true := by
  cases i <;> decide

/-- Clearing the bit of an interrupt leaves the others. -/
theorem bit_clear (i : Interrupt) (x : UInt8) {k : Nat} (h : k ≠ i.bit) :
    BitField.bit (x &&& ~~~i.mask) k = BitField.bit x k := by
  rw [BitField.bit_and]
  by_cases hk : k < 8
  · have hmask : ∀ k < 8, k ≠ i.bit → BitField.bit (~~~i.mask) k = true := by
      cases i <;> decide
    rw [hmask k hk h, Bool.and_true]
  · rw [BitField.bit_of_le x (Nat.le_of_not_lt hk), Bool.false_and]

end Interrupt

/-- `Interrupts::set`. -/
def Bus.request (s : Bus) (i : Interrupt) : Bus :=
  s.setIo interruptFlagsAddress (s.io interruptFlagsAddress ||| i.mask)

end GbEmu
