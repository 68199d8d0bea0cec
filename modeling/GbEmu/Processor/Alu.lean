import Mathlib.Tactic.SplitIfs
import GbEmu.Lib.BitField
import GbEmu.Processor

/-!
What the arithmetic and the rotations of the processor compute, as operations on
numbers and four flags. Every handler of a byte is such an operation: it changes
nothing but its byte and the upper half of F.
-/

namespace GbEmu

structure Flags where
  z : Bool
  n : Bool
  h : Bool
  c : Bool
  deriving DecidableEq, Repr

/-- F with its lower half clear. -/
def Flags.toByte (flags : Flags) : UInt8 :=
  (if flags.z then 0x80 else 0) ||| (if flags.n then 0x40 else 0) |||
    (if flags.h then 0x20 else 0) ||| (if flags.c then 0x10 else 0)

/-! ## The operations -/

inductive Alu
  | add
  | adc
  | sub
  | sbc
  | and
  | xor
  | or
  | cp
  deriving DecidableEq, Repr

namespace Alu

def sum (a value : UInt8) (carry : Bool) : UInt8 × Flags :=
  let total := a.toNat + value.toNat + carry.toNat
  let result := UInt8.ofNat total
  (result, ⟨result = 0, false, 16 ≤ a.toNat % 16 + value.toNat % 16 + carry.toNat, 256 ≤ total⟩)

def difference (a value : UInt8) (borrow : Bool) : UInt8 × Flags :=
  let result := UInt8.ofNat (a.toNat + 512 - value.toNat - borrow.toNat)
  (result,
    ⟨result = 0, true, a.toNat % 16 < value.toNat % 16 + borrow.toNat,
      a.toNat < value.toNat + borrow.toNat⟩)

/-- The accumulator and the flags after the operation, with the carry before it. -/
def run (op : Alu) (a value : UInt8) (carry : Bool) : UInt8 × Flags :=
  match op with
  | add => sum a value false
  | adc => sum a value carry
  | sub => difference a value false
  | sbc => difference a value carry
  | and => (a &&& value, ⟨a &&& value = 0, false, true, false⟩)
  | xor => (a ^^^ value, ⟨a ^^^ value = 0, false, false, false⟩)
  | or => (a ||| value, ⟨a ||| value = 0, false, false, false⟩)
  | cp => (a, (difference a value false).2)

end Alu

inductive Shift
  | rlc
  | rrc
  | rl
  | rr
  | sla
  | sra
  | swap
  | srl
  deriving DecidableEq, Repr

namespace Shift

def all : List Shift := [rlc, rrc, rl, rr, sla, sra, swap, srl]

theorem mem_all (op : Shift) : op ∈ all := by
  cases op <;> decide

/-- The result, before it is cut to a byte, and the bit that leaves the byte. -/
def number (op : Shift) (x : Nat) (carry : Bool) : Nat × Bool :=
  match op with
  | rlc => (2 * x + x / 128, 128 ≤ x)
  | rrc => (x / 2 + 128 * (x % 2), x % 2 = 1)
  | rl => (2 * x + carry.toNat, 128 ≤ x)
  | rr => (x / 2 + 128 * carry.toNat, x % 2 = 1)
  | sla => (2 * x, 128 ≤ x)
  | sra => (x / 2 + 128 * (x / 128), x % 2 = 1)
  | swap => (16 * (x % 16) + x / 16, false)
  | srl => (x / 2, x % 2 = 1)

def run (op : Shift) (value : UInt8) (carry : Bool) : UInt8 × Flags :=
  let (number, out) := op.number value.toNat carry
  let result := UInt8.ofNat number
  (result, ⟨result = 0, false, false, out⟩)

end Shift

/-- Bit `k` of a byte, as a number. -/
def bitOf (value : UInt8) (k : Fin 8) : Nat := value.toNat / 2 ^ k.val % 2

/-- The byte with bit `k` zero, and with bit `k` one. -/
def resetBit (value : UInt8) (k : Fin 8) : UInt8 :=
  UInt8.ofNat (value.toNat - bitOf value k * 2 ^ k.val)

def setBit (value : UInt8) (k : Fin 8) : UInt8 :=
  UInt8.ofNat (value.toNat + (1 - bitOf value k) * 2 ^ k.val)

namespace Processor

def flags (p : Processor) : Flags :=
  ⟨p.isZeroFlagSet, p.isNegFlagSet, p.isHalfCarryFlagSet, p.isCarryFlagSet⟩

/-! ## The handlers in one form -/

section Forms

variable (p : Processor)

@[simp] theorem f_setFlags (f : UInt8) : (p.setFlags f).f = f := rfl

@[simp] theorem a_setFlags (f : UInt8) : (p.setFlags f).a = p.a := rfl

@[simp] theorem a_set8 (value : UInt8) : (p.set8 .a value).a = value := rfl

@[simp] theorem setFlags_setFlags (f g : UInt8) : (p.setFlags f).setFlags g = p.setFlags g := rfl

@[simp] theorem setFlags_set8 (f value : UInt8) :
    (p.setFlags f).set8 .a value = (p.set8 .a value).setFlags f := rfl

/-- A byte with one bit, if `c`. -/
def flagIf (c : Bool) (mask : UInt8) : UInt8 := if c then mask else 0

/-- A flag that is set or cleared. -/
def assign (f mask : UInt8) (c : Bool) : UInt8 := if c then f ||| mask else f &&& ~~~mask

theorem when_eq {set : Processor → Processor} {mask : UInt8}
    (hset : set p = p.setFlags (p.f ||| mask)) (c : Bool) :
    p.when c set = p.setFlags (p.f ||| flagIf c mask) := by
  cases c with
  | false =>
    rw [flagIf, if_neg Bool.false_ne_true, UInt8.or_zero]
    rfl
  | true => exact hset

theorem when_setZeroFlag (c : Bool) :
    p.when c setZeroFlag = p.setFlags (p.f ||| flagIf c 0x80) :=
  p.when_eq rfl c

theorem when_setHalfCarryFlag (c : Bool) :
    p.when c setHalfCarryFlag = p.setFlags (p.f ||| flagIf c 0x20) :=
  p.when_eq rfl c

theorem when_setCarryFlag (c : Bool) :
    p.when c setCarryFlag = p.setFlags (p.f ||| flagIf c 0x10) :=
  p.when_eq rfl c

theorem choose_carryFlag (c : Bool) :
    p.choose c setCarryFlag clrCarryFlag = p.setFlags (assign p.f 0x10 c) := by
  cases c <;> rfl

theorem choose_zeroFlag (c : Bool) :
    p.choose c setZeroFlag clrZeroFlag = p.setFlags (assign p.f 0x80 c) := by
  cases c <;> rfl

theorem choose_clrZeroFlag (c : Bool) :
    p.choose c clrZeroFlag setZeroFlag = p.setFlags (assign p.f 0x80 !c) := by
  cases c <;> rfl

end Forms

end Processor

/-! ## The accumulator -/

namespace Processor

/-- A result in A, with its flags. -/
def accumulate (p : Processor) (x : UInt8 × Flags) : Processor :=
  (p.set8 .a x.1).setFlags x.2.toByte

section Accumulator

variable (p : Processor) (value : UInt8)

theorem zero_toByte : ∀ z, (0x00 ||| flagIf z 0x80) &&& 0xF0 =
    Flags.toByte ⟨z, false, false, false⟩ := by
  decide

theorem xor8_eq : (p.xor8 value).maskFlags = p.accumulate (Alu.xor.run p.a value false) := by
  simp only [xor8, setFlags_set8, a_setFlags, a_set8, when_setZeroFlag, maskFlags, f_setFlags,
    setFlags_setFlags, zero_toByte]
  rfl

theorem or8_eq : (p.or8 value).maskFlags = p.accumulate (Alu.or.run p.a value false) := by
  simp only [or8, setFlags_set8, a_setFlags, a_set8, when_setZeroFlag, maskFlags, f_setFlags,
    setFlags_setFlags, zero_toByte]
  rfl

theorem and8_eq : (p.and8 value).maskFlags = p.accumulate (Alu.and.run p.a value false) := by
  have hflags : ∀ z, ((0x00 ||| flagIf z 0x80) ||| 0x20) &&& 0xF0 =
      Flags.toByte ⟨z, false, true, false⟩ := by decide
  simp only [and8, setFlags_set8, a_setFlags, a_set8, when_setZeroFlag, setHalfCarryFlag, setFlag,
    halfCarryFlagMask, maskFlags, f_setFlags, setFlags_setFlags, hflags]
  rfl

/-! ### Sums -/

set_option maxRecDepth 4000 in
theorem carry_of_sum {x : UInt16} (h : x.toNat < 512) :
    (x &&& 0xFF00 != 0) = decide (256 ≤ x.toNat) := by
  have hall : ∀ n < 512, (UInt16.ofNat n &&& 0xFF00 != 0) = decide (256 ≤ n) := by decide
  have hx := hall x.toNat h
  rwa [UInt16.ofNat_toNat] at hx

theorem carry_of_half {x : UInt8} (h : x.toNat < 32) :
    (x &&& 0xF0 != 0) = decide (16 ≤ x.toNat) := by
  have hall : ∀ n < 32, (UInt8.ofNat n &&& 0xF0 != 0) = decide (16 ≤ n) := by decide
  have hx := hall x.toNat h
  rwa [UInt8.ofNat_toNat] at hx

theorem and_fifteen (n : Nat) : n &&& 15 = n % 16 := Nat.and_two_pow_sub_one_eq_mod n 4

theorem toNat_half (x : UInt8) : (x &&& 0xF).toNat = x.toNat % 16 :=
  (UInt8.toNat_and x 0xF).trans (and_fifteen _)

theorem toUInt8_low (x : UInt16) : (x &&& 0xFF).toUInt8 = UInt8.ofNat x.toNat := by
  have hand : ∀ n : Nat, n &&& 255 = n % 256 := fun n => Nat.and_two_pow_sub_one_eq_mod n 8
  apply UInt8.toNat_inj.mp
  simp [hand]

/-- The sum of sixteen bits does not overflow. -/
theorem toNat_sum (a value : UInt8) (carry : Bool) :
    (a.toUInt16 + value.toUInt16 + if carry then 0x01 else 0x00 : UInt16).toNat =
      a.toNat + value.toNat + carry.toNat := by
  have ha := a.toNat_lt
  have hv := value.toNat_lt
  cases carry with
  | false => simp; omega
  | true => simp; omega

theorem toNat_halfSum (a value : UInt8) (carry : Bool) :
    ((a &&& 0xF) + (value &&& 0xF) + (if carry then 0x01 else 0x00 : UInt16).toUInt8).toNat =
      a.toNat % 16 + value.toNat % 16 + carry.toNat := by
  have ha := Nat.mod_lt a.toNat (show 16 > 0 by decide)
  have hv := Nat.mod_lt value.toNat (show 16 > 0 by decide)
  cases carry with
  | false => simp [and_fifteen]; omega
  | true => simp [and_fifteen]; omega

theorem add8_eq (carry : Bool) : (p.add8 value carry).maskFlags =
    p.accumulate (Alu.sum p.a value (carry && p.isCarryFlagSet)) := by
  have hflags : ∀ c h z, (((0x00 ||| flagIf c 0x10) ||| flagIf h 0x20) ||| flagIf z 0x80) &&& 0xF0 =
      Flags.toByte ⟨z, false, h, c⟩ := by decide
  have hsum := toNat_sum p.a value (carry && p.isCarryFlagSet)
  have hhalf := toNat_halfSum p.a value (carry && p.isCarryFlagSet)
  have ha := p.a.toNat_lt
  have hv := value.toNat_lt
  have hc := Bool.toNat_lt (carry && p.isCarryFlagSet)
  simp only [add8, setFlags_set8, a_setFlags, a_set8, when_setZeroFlag, when_setCarryFlag,
    when_setHalfCarryFlag, maskFlags, f_setFlags, setFlags_setFlags, hflags]
  rw [carry_of_sum (by omega), carry_of_half (by omega), toUInt8_low, hsum, hhalf]
  rfl

/-! ### Differences -/

theorem difference_eq (a value : UInt8) (borrow : Bool) :
    a - (value + if borrow then 0x01 else 0x00) =
      UInt8.ofNat (a.toNat + 512 - value.toNat - borrow.toNat) := by
  have ha := a.toNat_lt
  have hv := value.toNat_lt
  apply UInt8.toNat_inj.mp
  cases borrow with
  | false => simp [UInt8.toNat_sub]; omega
  | true => simp [UInt8.toNat_sub]; omega

theorem sub8_eq (carry : Bool) : (p.sub8 value carry).maskFlags =
    p.accumulate (Alu.difference p.a value (carry && p.isCarryFlagSet)) := by
  have hflags : ∀ c h z,
      ((((0x00 ||| flagIf c 0x10) ||| flagIf h 0x20) ||| flagIf z 0x80) ||| 0x40) &&& 0xF0 =
        Flags.toByte ⟨z, true, h, c⟩ := by decide
  have hborrow : ∀ b : Bool, (if b then 0x01 else 0x00 : UInt8).toNat = b.toNat := by decide
  simp only [sub8, setFlags_set8, a_setFlags, a_set8, when_setZeroFlag, when_setCarryFlag,
    when_setHalfCarryFlag, setNegFlag, setFlag, negFlagMask, maskFlags, f_setFlags,
    setFlags_setFlags, hflags, toNat_half]
  rw [difference_eq, hborrow]
  rfl

theorem sbc_eq :
    (p.sbc value).maskFlags = p.accumulate (Alu.sbc.run p.a value p.isCarryFlagSet) :=
  p.sub8_eq value true

theorem compare_eq : (p.compare value).maskFlags = p.accumulate (Alu.cp.run p.a value false) := by
  have hflags : ∀ c h z,
      ((((0x00 ||| 0x40) ||| flagIf z 0x80) ||| flagIf c 0x10) ||| flagIf h 0x20) &&& 0xF0 =
        Flags.toByte ⟨z, true, h, c⟩ := by decide
  have ha := p.a.toNat_lt
  have hv := value.toNat_lt
  have hzero : (p.a == value) = decide (UInt8.ofNat (p.a.toNat + 512 - value.toNat - 0) = 0) := by
    rw [Bool.eq_iff_iff, beq_iff_eq, decide_eq_true_iff, ← UInt8.toNat_inj, ← UInt8.toNat_inj]
    simp
    omega
  have hhalf : ((p.a - value) &&& 0xF > p.a &&& 0xF) ↔
      p.a.toNat % 16 < value.toNat % 16 + 0 := by
    rw [gt_iff_lt, UInt8.lt_iff_toNat_lt, toNat_half, toNat_half, UInt8.toNat_sub]
    omega
  simp only [compare, setNegFlag, setFlag, negFlagMask, a_setFlags, when_setZeroFlag,
    when_setCarryFlag, when_setHalfCarryFlag, maskFlags, f_setFlags, setFlags_setFlags, hflags,
    hzero, hhalf]
  rfl

end Accumulator

/-! ## Bytes by reference -/

/-- What a handler of a byte amounts to once the lower half of F is cleared. -/
def masked (handler : ByteHandler) : ByteHandler := fun p value =>
  ((handler p value).1.maskFlags, (handler p value).2)

/-- A rotation, a shift or a swap as a handler. -/
def shifted (op : Shift) : ByteHandler := fun p value =>
  let x := op.run value p.isCarryFlagSet
  (p.setFlags x.2.toByte, x.1)

/-- The flag bytes that the handlers leave, once their lower half is cleared. -/
theorem flag_bytes : ∀ f : UInt8,
    Flags.toByte ⟨f &&& 0x80 != 0, f &&& 0x40 != 0, f &&& 0x20 != 0, f &&& 0x10 != 0⟩ = f &&& 0xF0 ∧
      (∀ c z, (((assign (assign f 0x10 c) 0x80 z) &&& ~~~0x40) &&& ~~~0x20) &&& 0xF0 =
        Flags.toByte ⟨z, false, false, c⟩) ∧
      ∀ z, (((assign f 0x80 z) &&& ~~~0x40) ||| 0x20) &&& 0xF0 =
        Flags.toByte ⟨z, false, true, f &&& 0x10 != 0⟩ :=
  BitField.forall_byte (by decide +kernel)

/-- The byte and the carry as the handlers compute them. -/
def shiftBits (op : Shift) (x : UInt8) (carry : Bool) : UInt8 × Bool :=
  let lsb : UInt8 := if x &&& 0x80 ≠ 0 then 0x01 else 0x00
  let msb : UInt8 := if x &&& 0x01 ≠ 0 then 0x80 else 0x00
  match op with
  | .rlc => ((x <<< 1) ||| lsb, lsb != 0)
  | .rrc => ((x >>> 1) ||| msb, msb != 0)
  | .rl => ((x <<< 1) ||| if carry then 0x01 else 0x00, x &&& 0x80 != 0)
  | .rr => ((x >>> 1) ||| if carry then 0x80 else 0x00, x &&& 0x01 != 0)
  | .sla => (x <<< 1, x &&& 0x80 != 0)
  | .sra => ((x >>> 1) ||| (x &&& 0x80), x &&& 0x01 != 0)
  | .swap => (((x &&& 0x0F) <<< 4) ||| ((x >>> 4) &&& 0x0F), false)
  | .srl => (x >>> 1, x &&& 0x01 != 0)

theorem shiftBits_eq (op : Shift) (x : UInt8) (carry : Bool) : shiftBits op x carry =
    (UInt8.ofNat (op.number x.toNat carry).1, (op.number x.toNat carry).2) := by
  have hall : ∀ (x : UInt8), ∀ op ∈ Shift.all, ∀ carry, shiftBits op x carry =
      (UInt8.ofNat (op.number x.toNat carry).1, (op.number x.toNat carry).2) :=
    BitField.forall_byte (by decide +kernel)
  exact hall x op op.mem_all carry

theorem shifted_eq (op : Shift) (p : Processor) (value : UInt8) :
    let x := shiftBits op value p.isCarryFlagSet
    (((p.choose x.2 setCarryFlag clrCarryFlag).rotated x.1 false).1.maskFlags, x.1) =
      shifted op p value := by
  simp only [rotated, choose_carryFlag, choose_zeroFlag, clrNegFlag, clrHalfCarryFlag, clrFlag,
    negFlagMask, halfCarryFlagMask, maskFlags, f_setFlags, setFlags_setFlags, (flag_bytes _).2.1,
    shiftBits_eq]
  rfl

theorem rotatel_eq : masked (rotatel true false) = shifted .rl := funext₂ (shifted_eq .rl)

theorem rotater_eq : masked (rotater true false) = shifted .rr := funext₂ (shifted_eq .rr)

theorem sla_eq : masked sla = shifted .sla := funext₂ (shifted_eq .sla)

theorem srl_eq : masked srl = shifted .srl := funext₂ (shifted_eq .srl)

theorem rlc_eq : masked (rlc false) = shifted .rlc := funext₂ (shifted_eq .rlc)

theorem rrc_eq : masked (rrc false) = shifted .rrc := funext₂ (shifted_eq .rrc)

theorem sra_eq : masked sra = shifted .sra := by
  have hflags : ∀ c z, ((0x00 ||| flagIf c 0x10) ||| flagIf z 0x80) &&& 0xF0 =
      Flags.toByte ⟨z, false, false, c⟩ := by decide
  funext p value
  have hbits := shiftBits_eq .sra value p.isCarryFlagSet
  simp only [shiftBits, Prod.mk.injEq] at hbits
  simp only [masked, sra, when_setCarryFlag, when_setZeroFlag, maskFlags, f_setFlags,
    setFlags_setFlags, hflags, hbits.1, hbits.2]
  rfl

theorem swap_eq : masked swap = shifted .swap := by
  funext p value
  have hbits := shiftBits_eq .swap value p.isCarryFlagSet
  simp only [shiftBits, Prod.mk.injEq] at hbits
  simp only [masked, swap, when_setZeroFlag, maskFlags, f_setFlags, setFlags_setFlags, zero_toByte,
    hbits.1]
  rfl

/-! ## Single bits -/

theorem toByte_flags (p : Processor) : p.flags.toByte = p.f &&& 0xF0 := (flag_bytes p.f).1

theorem single_bits : ∀ (x : UInt8) (k : Fin 8),
    x &&& ~~~((1 : UInt8) <<< UInt8.ofNat k.val) = resetBit x k ∧
      x ||| ((1 : UInt8) <<< UInt8.ofNat k.val) = setBit x k ∧
      (!(x &&& ((1 : UInt8) <<< UInt8.ofNat k.val) != 0)) = decide (bitOf x k = 0) :=
  BitField.forall_byte (by decide +kernel)

theorem res_eq (k : Fin 8) : masked (res (UInt8.ofNat k.val)) = fun p value =>
    (p.setFlags p.flags.toByte, resetBit value k) := by
  funext p value
  simp only [masked, res, maskFlags, toByte_flags, (single_bits value k).1]

theorem set_eq (k : Fin 8) : masked (set (UInt8.ofNat k.val)) = fun p value =>
    (p.setFlags p.flags.toByte, setBit value k) := by
  funext p value
  simp only [masked, set, maskFlags, toByte_flags, (single_bits value k).2.1]

theorem bit_eq (p : Processor) (value : UInt8) (k : Fin 8) :
    (p.bit value (UInt8.ofNat k.val)).maskFlags =
      p.setFlags (Flags.toByte ⟨bitOf value k = 0, false, true, p.isCarryFlagSet⟩) := by
  simp only [bit, choose_clrZeroFlag, clrNegFlag, clrFlag, setHalfCarryFlag, setFlag, negFlagMask,
    halfCarryFlagMask, maskFlags, f_setFlags, setFlags_setFlags, (single_bits value k).2.2,
    (flag_bytes _).2.2]
  rfl

end Processor

end GbEmu
