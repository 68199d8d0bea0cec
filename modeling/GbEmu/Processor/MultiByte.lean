import GbEmu.Lib.Digits
import GbEmu.Processor.Alu

/-!
Numbers of several bytes, least significant byte first. The carry flag takes a sum or
a difference from one byte to the next, in binary and, with `daa` after each byte, in
packed decimal.
-/

namespace GbEmu

open Digits

namespace Processor

/-! ## One byte -/

theorem flags_toByte : ∀ z n h c : Bool,
    let f := Flags.toByte ⟨z, n, h, c⟩
    (f &&& zeroFlagMask != 0) = z ∧ (f &&& negFlagMask != 0) = n ∧
      (f &&& halfCarryFlagMask != 0) = h ∧ (f &&& carryFlagMask != 0) = c := by
  decide

theorem flags_accumulate (p : Processor) (x : UInt8 × Flags) : (p.accumulate x).flags = x.2 := by
  obtain ⟨value, z, n, h, c⟩ := x
  obtain ⟨hz, hn, hh, hc⟩ := flags_toByte z n h c
  simp only [flags, isZeroFlagSet, isNegFlagSet, isHalfCarryFlagSet, isCarryFlagSet, isFlagSet,
    accumulate, f_setFlags, hz, hn, hh, hc]

theorem mask_flags (f : UInt8) :
    f &&& 0xF0 &&& zeroFlagMask = f &&& zeroFlagMask ∧
      f &&& 0xF0 &&& negFlagMask = f &&& negFlagMask ∧
      f &&& 0xF0 &&& halfCarryFlagMask = f &&& halfCarryFlagMask ∧
      f &&& 0xF0 &&& carryFlagMask = f &&& carryFlagMask := by
  simp only [UInt8.and_assoc]
  exact ⟨rfl, rfl, rfl, rfl⟩

theorem flags_maskFlags (p : Processor) : p.maskFlags.flags = p.flags := by
  obtain ⟨hz, hn, hh, hc⟩ := mask_flags p.f
  simp only [flags, isZeroFlagSet, isNegFlagSet, isHalfCarryFlagSet, isCarryFlagSet, isFlagSet,
    maskFlags, f_setFlags, hz, hn, hh, hc]

/-- A handler that leaves a result in A with its flags, apart from the lower half of F. -/
theorem result_of_accumulate {p q : Processor} {x : UInt8 × Flags}
    (h : q.maskFlags = p.accumulate x) : q.a = x.1 ∧ q.flags = x.2 := by
  constructor
  · exact congrArg Processor.a h
  · rw [← q.flags_maskFlags, h, flags_accumulate]

/-- `add8(y, true)` on A = `x`. -/
def addByte (p : Processor) (x y : UInt8) : Processor := (p.set8 .a x).add8 y true

/-- `sub8(y, true)` on A = `x`. -/
def subByte (p : Processor) (x y : UInt8) : Processor := (p.set8 .a x).sub8 y true

theorem addByte_result (p : Processor) (x y : UInt8) :
    (p.addByte x y).a = (Alu.sum x y p.isCarryFlagSet).1 ∧
      (p.addByte x y).flags = (Alu.sum x y p.isCarryFlagSet).2 :=
  result_of_accumulate ((p.set8 .a x).add8_eq y true)

theorem subByte_result (p : Processor) (x y : UInt8) :
    (p.subByte x y).a = (Alu.difference x y p.isCarryFlagSet).1 ∧
      (p.subByte x y).flags = (Alu.difference x y p.isCarryFlagSet).2 :=
  result_of_accumulate ((p.set8 .a x).sub8_eq y true)

/-- The carry flag as a digit. -/
def carryBit (p : Processor) : Nat := p.isCarryFlagSet.toNat

theorem carryBit_of_flags {p : Processor} {x : Flags} (h : p.flags = x) :
    p.carryBit = x.c.toNat := by
  rw [← h]
  rfl

/-! ## Binary -/

def binary (digits : List UInt8) : Nat := value 256 UInt8.toNat digits

def addBytes (p : Processor) (xs ys : List UInt8) : List UInt8 × Processor :=
  chain addByte Processor.a p (xs.zip ys)

def subBytes (p : Processor) (xs ys : List UInt8) : List UInt8 × Processor :=
  chain subByte Processor.a p (xs.zip ys)

theorem addByte_value (p : Processor) (x y : UInt8) :
    ((p.addByte x y).a.toNat : Int) + 1 * (256 * (p.addByte x y).carryBit) =
      x.toNat + 1 * (y.toNat + p.carryBit) := by
  obtain ⟨ha, hflags⟩ := p.addByte_result x y
  rw [ha, carryBit_of_flags hflags, carryBit]
  have hx := x.toNat_lt
  have hy := y.toNat_lt
  have hc := Bool.toNat_lt p.isCarryFlagSet
  simp only [Alu.sum, UInt8.toNat_ofNat']
  by_cases h : 256 ≤ x.toNat + y.toNat + p.isCarryFlagSet.toNat
  · rw [decide_eq_true h, Bool.toNat_true]
    omega
  · rw [decide_eq_false h, Bool.toNat_false]
    omega

theorem subByte_value (p : Processor) (x y : UInt8) :
    ((p.subByte x y).a.toNat : Int) + -1 * (256 * (p.subByte x y).carryBit) =
      x.toNat + -1 * (y.toNat + p.carryBit) := by
  obtain ⟨ha, hflags⟩ := p.subByte_result x y
  rw [ha, carryBit_of_flags hflags, carryBit]
  have hx := x.toNat_lt
  have hy := y.toNat_lt
  have hc := Bool.toNat_lt p.isCarryFlagSet
  simp only [Alu.difference, UInt8.toNat_ofNat']
  by_cases h : x.toNat < y.toNat + p.isCarryFlagSet.toNat
  · rw [decide_eq_true h, Bool.toNat_true]
    omega
  · rw [decide_eq_false h, Bool.toNat_false]
    omega

/-! ## Sixteen bits -/

theorem choose_halfCarryFlag (p : Processor) (c : Bool) :
    p.choose c setHalfCarryFlag clrHalfCarryFlag = p.setFlags (assign p.f 0x20 c) := by
  cases c <;> rfl

theorem assign_carry : ∀ (f : UInt8) (c h : Bool),
    let f' := assign (assign f 0x10 c) 0x20 h
    (f' &&& carryFlagMask != 0) = c ∧ (f' &&& halfCarryFlagMask != 0) = h :=
  BitField.forall_byte (by decide +kernel)

/-- The sum of HL, in numbers. -/
theorem add16_hl (p : Processor) (h v : UInt16) :
    let sum := (p.set16 .hl h).add16 .hl v
    sum.hl = UInt16.ofNat (h.toNat + v.toNat) ∧
      sum.isHalfCarryFlagSet = decide (4096 ≤ h.toNat % 4096 + v.toNat % 4096) ∧
      sum.isCarryFlagSet = decide (65536 ≤ h.toNat + v.toNat) := by
  have hget : ∀ f, ((p.set16 .hl h).setFlags f).get16 .hl = h := fun _ => pair_upper_lower h
  have hmask : ∀ x : UInt16, (x &&& 0xFFF).toNat = x.toNat % 4096 := fun x =>
    (UInt16.toNat_and x 0xFFF).trans (Nat.and_two_pow_sub_one_eq_mod _ 12)
  simp only [add16, clrNegFlag, clrFlag, choose_carryFlag, choose_halfCarryFlag, f_setFlags,
    setFlags_setFlags, hget, hmask]
  have hbits := assign_carry (p.f &&& ~~~negFlagMask) (decide (h.toNat + v.toNat > 0xFFFF))
    (decide (h.toNat % 4096 + v.toNat % 4096 > 0xFFF))
  exact ⟨pair_upper_lower _, hbits.2, hbits.1⟩

theorem add8_value (p : Processor) (x y : UInt8) (carry : Bool) :
    let q := (p.set8 .a x).add8 y carry
    let c := (carry && p.isCarryFlagSet).toNat
    q.a.toNat = (x.toNat + y.toNat + c) % 256 ∧
      q.isHalfCarryFlagSet = decide (16 ≤ x.toNat % 16 + y.toNat % 16 + c) ∧
      q.isCarryFlagSet = decide (256 ≤ x.toNat + y.toNat + c) := by
  obtain ⟨ha, hflags⟩ := result_of_accumulate ((p.set8 .a x).add8_eq y carry)
  refine ⟨?_, congrArg Flags.h hflags, congrArg Flags.c hflags⟩
  rw [ha, Alu.sum, UInt8.toNat_ofNat']
  rfl

theorem binary_addBytes (p : Processor) {xs ys : List UInt8} (hlength : xs.length = ys.length) :
    let sum := p.addBytes xs ys
    (binary sum.1 : Int) + sum.2.carryBit * 256 ^ xs.length =
      binary xs + binary ys + p.carryBit := by
  intro sum
  have hsum : (binary sum.1 : Int) + 1 * (sum.2.carryBit * 256 ^ xs.length) =
      binary xs + 1 * (binary ys + p.carryBit) :=
    chain_value (fun _ => True) (fun s x y _ _ => s.addByte_value x y) hlength
      (fun _ _ => trivial) (fun _ _ => trivial) p
  linear_combination hsum

theorem binary_subBytes (p : Processor) {xs ys : List UInt8} (hlength : xs.length = ys.length) :
    let difference := p.subBytes xs ys
    (binary difference.1 : Int) - difference.2.carryBit * 256 ^ xs.length =
      binary xs - binary ys - p.carryBit := by
  intro difference
  have hdifference : (binary difference.1 : Int) +
      -1 * (difference.2.carryBit * 256 ^ xs.length) =
        binary xs + -1 * (binary ys + p.carryBit) :=
    chain_value (fun _ => True) (fun s x y _ _ => s.subByte_value x y) hlength
      (fun _ _ => trivial) (fun _ _ => trivial) p
  linear_combination hdifference

/-- `add16` is `add8` on the low bytes and then on the high ones. -/
theorem add16_by_bytes (p : Processor) (h v : UInt16) :
    let low := (p.set8 .a (lower h)).add8 (lower v) false
    let high := (low.set8 .a (upper h)).add8 (upper v) true
    let sum := (p.set16 .hl h).add16 .hl v
    sum.hl = pair high.a low.a ∧
      sum.isHalfCarryFlagSet = high.isHalfCarryFlagSet ∧
      sum.isCarryFlagSet = high.isCarryFlagSet := by
  intro low high sum
  obtain ⟨hresult, hhalf, hcarry⟩ := p.add16_hl h v
  obtain ⟨hlow, -, hlowCarry⟩ := p.add8_value (lower h) (lower v) false
  obtain ⟨hhigh, hhighHalf, hhighCarry⟩ := low.add8_value (upper h) (upper v) true
  have hh := h.toNat_lt
  have hv := v.toNat_lt
  simp only [Bool.false_and, Bool.toNat_false, Nat.add_zero, toNat_lower] at hlow hlowCarry
  simp only [Bool.true_and, toNat_upper] at hhigh hhighHalf hhighCarry
  have hc : low.isCarryFlagSet.toNat = (h.toNat % 256 + v.toNat % 256) / 256 := by
    rw [hlowCarry]
    by_cases hover : 256 ≤ h.toNat % 256 + v.toNat % 256
    · rw [decide_eq_true hover, Bool.toNat_true]
      omega
    · rw [decide_eq_false hover, Bool.toNat_false]
      omega
  rw [hc] at hhigh hhighHalf hhighCarry
  refine ⟨?_, ?_, ?_⟩
  · apply UInt16.toNat_inj.mp
    rw [hresult, toNat_pair, hhigh, hlow, UInt16.toNat_ofNat']
    omega
  · rw [hhalf, hhighHalf, decide_eq_decide]
    omega
  · rw [hcarry, hhighCarry, decide_eq_decide]
    omega

/-- **Numbers of several bytes.** The carry flag is exactly what a sum or a difference
carries over, and `add16` is `add8` on the low bytes and then on the high ones. -/
theorem multiByte_binary :
    (∀ (p : Processor) (xs ys : List UInt8), xs.length = ys.length →
      let sum := p.addBytes xs ys
      let difference := p.subBytes xs ys
      (binary sum.1 : Int) + sum.2.carryBit * 256 ^ xs.length =
          binary xs + binary ys + p.carryBit ∧
        (binary difference.1 : Int) - difference.2.carryBit * 256 ^ xs.length =
          binary xs - binary ys - p.carryBit) ∧
      ∀ (p : Processor) (h v : UInt16),
        let low := (p.set8 .a (lower h)).add8 (lower v) false
        let high := (low.set8 .a (upper h)).add8 (upper v) true
        let sum := (p.set16 .hl h).add16 .hl v
        sum.hl = pair high.a low.a ∧
          sum.isHalfCarryFlagSet = high.isHalfCarryFlagSet ∧
          sum.isCarryFlagSet = high.isCarryFlagSet := by
  constructor
  · intro p xs ys hlength
    exact ⟨p.binary_addBytes hlength, p.binary_subBytes hlength⟩
  · intro p h v
    exact p.add16_by_bytes h v

/-- A processor with the carry flag set. -/
def carrying : Processor := ⟨0, 0x10, 0, 0, 0, 0, 0, 0, 0, 0, false, false, (0, 0), ⟨0, 0, .normal⟩⟩

/-- 0xFFFF + 0x0000 with a carry into the first byte goes over. -/
theorem multiByte_binary_over :
    (binary (carrying.addBytes [0xFF, 0xFF] [0x00, 0x00]).1 : Int) + 1 * 256 ^ 2 = 0x10000 :=
  (multiByte_binary.1 carrying [0xFF, 0xFF] [0x00, 0x00] rfl).1

/-! ## Packed decimal -/

/-- The two decimal digits of a byte. -/
def decimalByte (x : UInt8) : Nat := 10 * (x.toNat / 16) + x.toNat % 16

def IsDecimal (x : UInt8) : Prop := x.toNat / 16 ≤ 9 ∧ x.toNat % 16 ≤ 9

instance (x : UInt8) : Decidable (IsDecimal x) := inferInstanceAs (Decidable (_ ∧ _))

def decimal (digits : List UInt8) : Nat := value 100 decimalByte digits

def addDecimalBytes (p : Processor) (xs ys : List UInt8) : List UInt8 × Processor :=
  chain (fun p x y => (p.addByte x y).daa) Processor.a p (xs.zip ys)

def subDecimalBytes (p : Processor) (xs ys : List UInt8) : List UInt8 × Processor :=
  chain (fun p x y => (p.subByte x y).daa) Processor.a p (xs.zip ys)

theorem toNat_lowNibble (a : UInt8) : (a.toUInt16 &&& 0xF).toNat = a.toNat % 16 :=
  (UInt16.toNat_and _ 0xF).trans (and_fifteen _)

/-- `value` in front of the flags, after a sum. -/
theorem daaValue_sum {p : Processor} (hn : p.isNegFlagSet = false) :
    let a := p.a.toNat
    let low := if p.isHalfCarryFlagSet = true ∨ 9 < a % 16 then a + 6 else a
    p.daaValue.toNat = if p.isCarryFlagSet = true ∨ 159 < low then low + 96 else low := by
  intro a low
  have ha := p.a.toNat_lt
  let v := p.a.toUInt16
  let v' := if p.isHalfCarryFlagSet || v &&& 0xF > 0x09 then v + 0x06 else v
  have hlow : v'.toNat = low := by
    simp only [v', v, low, a, Bool.or_eq_true, decide_eq_true_eq, gt_iff_lt, UInt16.lt_iff_toNat_lt,
      toNat_lowNibble, UInt16.reduceToNat]
    split_ifs
    · rw [UInt16.toNat_add, UInt8.toNat_toUInt16]
      exact Nat.mod_eq_of_lt (by simp; omega)
    · exact UInt8.toNat_toUInt16 _
  have hbound : low ≤ 261 := by
    simp only [low, a]
    split_ifs <;> omega
  have hvalue : p.daaValue = if p.isCarryFlagSet || v' > 0x9F then v' + 0x60 else v' := by
    simp only [daaValue, hn]
    rfl
  rw [hvalue]
  simp only [Bool.or_eq_true, decide_eq_true_eq, gt_iff_lt, UInt16.lt_iff_toNat_lt, hlow,
    UInt16.reduceToNat]
  split_ifs
  · rw [UInt16.toNat_add, hlow]
    exact Nat.mod_eq_of_lt (by simp; omega)
  · exact hlow

/-- The same after a difference; below zero it wraps around. -/
theorem daaValue_difference {p : Processor} (hn : p.isNegFlagSet = true) :
    let a := p.a.toNat
    let low := if p.isHalfCarryFlagSet = true then (a + 250) % 256 else a
    p.daaValue.toNat = if p.isCarryFlagSet = true then (low + 65440) % 65536 else low := by
  intro a low
  have ha := p.a.toNat_lt
  let v := p.a.toUInt16
  let v' := if p.isHalfCarryFlagSet then (v - 0x06) &&& 0xFF else v
  have hlow : v'.toNat = low := by
    simp only [v', v, low, a]
    split_ifs
    · rw [UInt16.toNat_and, UInt16.toNat_sub, UInt8.toNat_toUInt16]
      simp only [UInt16.reduceToNat]
      rw [Nat.and_two_pow_sub_one_eq_mod _ 8]
      omega
    · exact UInt8.toNat_toUInt16 _
  have hvalue : p.daaValue = if p.isCarryFlagSet then v' - 0x60 else v' := by
    simp only [daaValue, hn]
    rfl
  rw [hvalue]
  split_ifs
  · rw [UInt16.toNat_sub, hlow]
    simp only [UInt16.reduceToNat]
    omega
  · exact hlow

theorem daa_flags : ∀ (f : UInt8) (c z : Bool),
    (assign ((f &&& ~~~halfCarryFlagMask) ||| flagIf c 0x10) 0x80 z &&& carryFlagMask != 0) =
      ((f &&& carryFlagMask != 0) || c) :=
  BitField.forall_byte (by decide +kernel)

/-- What `daa` leaves: the carry flag stays set. -/
theorem daa_result (p : Processor) :
    p.daa.a.toNat = p.daaValue.toNat % 256 ∧
      p.daa.isCarryFlagSet = (p.isCarryFlagSet || decide (256 ≤ p.daaValue.toNat)) := by
  have hover : (p.daaValue ≥ 0x100) = (256 ≤ p.daaValue.toNat) := by
    rw [ge_iff_le, UInt16.le_iff_toNat_le]
    rfl
  simp only [daa, clrHalfCarryFlag, clrFlag, when_setCarryFlag, choose_clrZeroFlag, setFlags_set8,
    f_setFlags, setFlags_setFlags, hover]
  exact ⟨UInt16.toNat_toUInt8 _, daa_flags _ _ _⟩

/-! ### The adjustment in numbers -/

/-- `value` after a sum of two bytes and a carry. -/
def adjustedSum (x y c : Nat) : Nat :=
  let sum := x + y + c
  let low := if 16 ≤ x % 16 + y % 16 + c ∨ 9 < sum % 256 % 16 then sum % 256 + 6 else sum % 256
  if 256 ≤ sum ∨ 159 < low then low + 96 else low

/-- `value` after a difference. -/
def adjustedDifference (x y c : Nat) : Nat :=
  let difference := (x + 512 - y - c) % 256
  let low := if x % 16 < y % 16 + c then (difference + 250) % 256 else difference
  if x < y + c then (low + 65440) % 65536 else low

section Adjusted

variable {x y c : Nat} (hx1 : x / 16 ≤ 9) (hx0 : x % 16 ≤ 9) (hy1 : y / 16 ≤ 9) (hy0 : y % 16 ≤ 9)
  (hc : c < 2)

include hx1 hx0 hy1 hy0 hc

theorem adjustedSum_digits :
    let v := adjustedSum x y c
    let carry := if 256 ≤ x + y + c ∨ 256 ≤ v then 1 else 0
    v % 256 / 16 ≤ 9 ∧ v % 256 % 16 ≤ 9 ∧
      10 * (v % 256 / 16) + v % 256 % 16 + 100 * carry =
        10 * (x / 16) + x % 16 + (10 * (y / 16) + y % 16) + c := by
  intro v carry
  have hx := Nat.div_add_mod x 16
  have hy := Nat.div_add_mod y 16
  -- The digits of the sum, with the carry of the low one.
  obtain ⟨k, d, hd, hd9, hk⟩ : ∃ k d, x % 16 + y % 16 + c = 10 * k + d ∧ d ≤ 9 ∧ k < 2 :=
    ⟨_, _, (Nat.div_add_mod _ 10).symm, by omega, by omega⟩
  have hlow : (if 16 ≤ x % 16 + y % 16 + c ∨ 9 < (x + y + c) % 256 % 16 then
      (x + y + c) % 256 + 6 else (x + y + c) % 256) = (x + y + c) % 256 + 6 * k := by
    split_ifs <;> omega
  have hv : v = if 256 ≤ x + y + c ∨ 159 < (x + y + c) % 256 + 6 * k then
      (x + y + c) % 256 + 6 * k + 96 else (x + y + c) % 256 + 6 * k := by
    simp only [v, adjustedSum, hlow]
  by_cases hhigh : x / 16 + y / 16 + k ≤ 9
  · have hv' : v = 16 * (x / 16 + y / 16 + k) + d := by
      rw [hv]
      split_ifs <;> omega
    have hcarry : carry = 0 := if_neg (by omega)
    omega
  · have hv' : v % 256 = 16 * (x / 16 + y / 16 + k - 10) + d := by
      rw [hv]
      split_ifs <;> omega
    have hcarry : carry = 1 := by
      refine if_pos ?_
      rw [hv]
      split_ifs <;> omega
    omega

theorem adjustedDifference_digits :
    let v := adjustedDifference x y c
    let carry := if x < y + c ∨ 256 ≤ v then 1 else 0
    v % 256 / 16 ≤ 9 ∧ v % 256 % 16 ≤ 9 ∧
      10 * (v % 256 / 16) + v % 256 % 16 + (10 * (y / 16) + y % 16) + c =
        10 * (x / 16) + x % 16 + 100 * carry := by
  intro v carry
  have hx := Nat.div_add_mod x 16
  have hy := Nat.div_add_mod y 16
  -- The digits of the difference, with the borrow of the low one.
  obtain ⟨k, d, hd, hd9, hk⟩ : ∃ k d, x % 16 + 10 * k = y % 16 + c + d ∧ d ≤ 9 ∧ k < 2 := by
    by_cases h : x % 16 < y % 16 + c
    · exact ⟨1, x % 16 + 10 - (y % 16 + c), by omega⟩
    · exact ⟨0, x % 16 - (y % 16 + c), by omega⟩
  have hlow : (if x % 16 < y % 16 + c then ((x + 512 - y - c) % 256 + 250) % 256
      else (x + 512 - y - c) % 256) = (x + 512 - y - c + 250 * k) % 256 := by
    split_ifs <;> omega
  have hv : v = if x < y + c then ((x + 512 - y - c + 250 * k) % 256 + 65440) % 65536
      else (x + 512 - y - c + 250 * k) % 256 := by
    simp only [v, adjustedDifference, hlow]
  by_cases hhigh : x / 16 < y / 16 + k
  · have hv' : v % 256 = 16 * (x / 16 + 10 - (y / 16 + k)) + d := by
      rw [hv]
      split_ifs <;> omega
    have hcarry : carry = 1 := if_pos (.inl (by omega))
    omega
  · have hv' : v = 16 * (x / 16 - (y / 16 + k)) + d := by
      rw [hv]
      split_ifs <;> omega
    have hcarry : carry = 0 := if_neg (by omega)
    omega

end Adjusted

/-! ### Bytes -/

theorem daaValue_addByte (p : Processor) (x y : UInt8) :
    (p.addByte x y).daaValue.toNat = adjustedSum x.toNat y.toNat p.carryBit := by
  obtain ⟨ha, hflags⟩ := p.addByte_result x y
  have hn : (p.addByte x y).isNegFlagSet = false := congrArg Flags.n hflags
  have hh : (p.addByte x y).isHalfCarryFlagSet = _ := congrArg Flags.h hflags
  have hc : (p.addByte x y).isCarryFlagSet = _ := congrArg Flags.c hflags
  rw [daaValue_sum hn, ha, hh, hc]
  simp only [Alu.sum, UInt8.toNat_ofNat', decide_eq_true_eq]
  rfl

theorem daaValue_subByte (p : Processor) (x y : UInt8) :
    (p.subByte x y).daaValue.toNat = adjustedDifference x.toNat y.toNat p.carryBit := by
  obtain ⟨ha, hflags⟩ := p.subByte_result x y
  have hn : (p.subByte x y).isNegFlagSet = true := congrArg Flags.n hflags
  have hh : (p.subByte x y).isHalfCarryFlagSet = _ := congrArg Flags.h hflags
  have hc : (p.subByte x y).isCarryFlagSet = _ := congrArg Flags.c hflags
  rw [daaValue_difference hn, ha, hh, hc]
  simp only [Alu.difference, UInt8.toNat_ofNat', decide_eq_true_eq]
  rfl

/-- The carry flag that `daa` leaves, from the condition that set it before. -/
theorem carryBit_daa {p : Processor} {c : Prop} [Decidable c] (h : p.isCarryFlagSet = decide c) :
    p.daa.carryBit = if c ∨ 256 ≤ p.daaValue.toNat then 1 else 0 := by
  rw [carryBit, p.daa_result.2, h, ← Bool.decide_or]
  by_cases hor : c ∨ 256 ≤ p.daaValue.toNat
  · rw [decide_eq_true hor, if_pos hor, Bool.toNat_true]
  · rw [decide_eq_false hor, if_neg hor, Bool.toNat_false]

theorem addDecimalByte (p : Processor) {x y : UInt8} (hx : IsDecimal x) (hy : IsDecimal y) :
    let q := (p.addByte x y).daa
    IsDecimal q.a ∧
      decimalByte q.a + 100 * q.carryBit = decimalByte x + decimalByte y + p.carryBit := by
  intro q
  have hdigits := adjustedSum_digits hx.1 hx.2 hy.1 hy.2 (Bool.toNat_lt p.isCarryFlagSet)
  have hcarry := carryBit_daa (congrArg Flags.c (p.addByte_result x y).2)
  rw [daaValue_addByte] at hcarry
  have ha : q.a.toNat = adjustedSum x.toNat y.toNat p.carryBit % 256 := by
    rw [← daaValue_addByte]
    exact (p.addByte x y).daa_result.1
  unfold IsDecimal decimalByte
  rw [ha, hcarry]
  exact ⟨⟨hdigits.1, hdigits.2.1⟩, hdigits.2.2⟩

theorem subDecimalByte (p : Processor) {x y : UInt8} (hx : IsDecimal x) (hy : IsDecimal y) :
    let q := (p.subByte x y).daa
    IsDecimal q.a ∧
      decimalByte q.a + decimalByte y + p.carryBit = decimalByte x + 100 * q.carryBit := by
  intro q
  have hdigits := adjustedDifference_digits hx.1 hx.2 hy.1 hy.2 (Bool.toNat_lt p.isCarryFlagSet)
  have hcarry := carryBit_daa (congrArg Flags.c (p.subByte_result x y).2)
  rw [daaValue_subByte] at hcarry
  have ha : q.a.toNat = adjustedDifference x.toNat y.toNat p.carryBit % 256 := by
    rw [← daaValue_subByte]
    exact (p.subByte x y).daa_result.1
  unfold IsDecimal decimalByte
  rw [ha, hcarry]
  exact ⟨⟨hdigits.1, hdigits.2.1⟩, hdigits.2.2⟩

/-- **Decimal numbers of several bytes.** -/
theorem multiByte_decimal (p : Processor) {xs ys : List UInt8} (hlength : xs.length = ys.length)
    (hx : ∀ x ∈ xs, IsDecimal x) (hy : ∀ y ∈ ys, IsDecimal y) :
    let sum := p.addDecimalBytes xs ys
    let difference := p.subDecimalBytes xs ys
    ((∀ d ∈ sum.1, IsDecimal d) ∧
        (decimal sum.1 : Int) + sum.2.carryBit * 100 ^ xs.length =
          decimal xs + decimal ys + p.carryBit) ∧
      (∀ d ∈ difference.1, IsDecimal d) ∧
        (decimal difference.1 : Int) - difference.2.carryBit * 100 ^ xs.length =
          decimal xs - decimal ys - p.carryBit := by
  intro sum difference
  have hsum : (decimal sum.1 : Int) + 1 * (sum.2.carryBit * 100 ^ xs.length) =
      decimal xs + 1 * (decimal ys + p.carryBit) := by
    refine chain_value IsDecimal (fun s x y hx hy => ?_) hlength hx hy p
    have hbyte := (s.addDecimalByte hx hy).2
    omega
  have hdifference : (decimal difference.1 : Int) +
      -1 * (difference.2.carryBit * 100 ^ xs.length) =
        decimal xs + -1 * (decimal ys + p.carryBit) := by
    refine chain_value IsDecimal (fun s x y hx hy => ?_) hlength hx hy p
    have hbyte := (s.subDecimalByte hx hy).2
    omega
  refine ⟨⟨?_, ?_⟩, ?_, ?_⟩
  · exact chain_valid (fun s x y hx hy => (s.addDecimalByte hx hy).1) hx hy p
  · linear_combination hsum
  · exact chain_valid (fun s x y hx hy => (s.subDecimalByte hx hy).1) hx hy p
  · linear_combination hdifference

/-- 1999 + 299 with a carry into the first byte and one from it into the second. -/
theorem multiByte_decimal_over :
    (carrying.addDecimalBytes [0x99, 0x19] [0x99, 0x02]).1 = [0x99, 0x22] ∧
      (decimal (carrying.addDecimalBytes [0x99, 0x19] [0x99, 0x02]).1 : Int) +
        (carrying.addDecimalBytes [0x99, 0x19] [0x99, 0x02]).2.carryBit * 100 ^ 2 = 2299 :=
  have hx : ∀ x ∈ [(0x99 : UInt8), 0x19], IsDecimal x :=
    List.forall_mem_cons.mpr ⟨by decide, List.forall_mem_singleton.mpr (by decide)⟩
  have hy : ∀ y ∈ [(0x99 : UInt8), 0x02], IsDecimal y :=
    List.forall_mem_cons.mpr ⟨by decide, List.forall_mem_singleton.mpr (by decide)⟩
  ⟨by decide, (@multiByte_decimal carrying [0x99, 0x19] [0x99, 0x02] rfl hx hy).1.2⟩

end Processor

end GbEmu
