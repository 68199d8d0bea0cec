import Mathlib.Algebra.Group.Nat.Defs
import Mathlib.Data.List.Induction

/-!
Bit fields of a byte. `insert m x y` replaces the bits of `x` under the mask
`m` by those of `y`; reading a field back depends on the mask only.
-/

namespace BitField

/-- The byte `x` with its bits under `mask` taken from `y`. -/
def insert (mask x y : UInt8) : UInt8 := (x &&& ~~~mask) ||| (y &&& mask)

theorem and_or_left (a b c : UInt8) : a &&& (b ||| c) = (a &&& b) ||| (a &&& c) := by
  apply UInt8.toBitVec_inj.mp
  ext i hi
  simp [Bool.and_or_distrib_left]

theorem or_and_right (a b c : UInt8) : (a ||| b) &&& c = (a &&& c) ||| (b &&& c) := by
  rw [UInt8.and_comm, and_or_left, UInt8.and_comm c a, UInt8.and_comm c b]

/-- A field outside the mask keeps its old value. -/
theorem insert_and_of_disjoint {m k : UInt8} (h : m &&& k = 0) (x y : UInt8) :
    insert m x y &&& k = x &&& k := by
  have hk : ~~~m &&& k = k := by
    apply UInt8.toBitVec_inj.mp
    have h' := congrArg UInt8.toBitVec h
    ext i hi
    have hi' := congrArg (fun b => b[i]) h'
    simp only [UInt8.toBitVec_and, BitVec.getElem_and, UInt8.toBitVec_not, BitVec.getElem_not,
      UInt8.toBitVec_zero, BitVec.getElem_zero] at hi' ⊢
    cases hm : m.toBitVec[i] <;> simp_all
  rw [insert, or_and_right, UInt8.and_assoc, UInt8.and_assoc, hk, h]
  simp

/-- A field under the mask takes its new value. -/
theorem insert_and_of_subset {m k : UInt8} (h : m &&& k = k) (x y : UInt8) :
    insert m x y &&& k = y &&& k := by
  have hk : ~~~m &&& k = 0 := by
    apply UInt8.toBitVec_inj.mp
    have h' := congrArg UInt8.toBitVec h
    ext i hi
    have hi' := congrArg (fun b => b[i]) h'
    simp only [UInt8.toBitVec_and, BitVec.getElem_and, UInt8.toBitVec_not, BitVec.getElem_not,
      UInt8.toBitVec_zero, BitVec.getElem_zero] at hi' ⊢
    cases hm : m.toBitVec[i] <;> simp_all
  rw [insert, or_and_right, UInt8.and_assoc, UInt8.and_assoc, hk, h]
  simp

/-! ## Values -/

theorem toNat_shiftRight_shiftLeft (x k : UInt8) (hk : k.toNat < 8) :
    ((x >>> k) <<< k).toNat = x.toNat / 2 ^ k.toNat * 2 ^ k.toNat := by
  have hx := x.toNat_lt
  have hle := Nat.div_mul_le_self x.toNat (2 ^ k.toNat)
  rw [UInt8.toNat_shiftLeft, UInt8.toNat_shiftRight, Nat.mod_eq_of_lt hk, Nat.shiftLeft_eq,
    Nat.shiftRight_eq_div_pow, Nat.mod_eq_of_lt (by omega)]

/-- A byte pair, the first one high. -/
theorem toNat_join (hi lo : UInt8) :
    ((hi.toUInt16 <<< (8 : UInt16)) ||| lo.toUInt16).toNat = hi.toNat * 256 + lo.toNat := by
  have h1 := hi.toNat_lt
  have h2 := lo.toNat_lt
  rw [UInt16.toNat_or, UInt16.toNat_shiftLeft]
  simp only [UInt8.toNat_toUInt16, UInt16.toNat_ofNat, Nat.reduceMod, Nat.reducePow]
  rw [Nat.mod_eq_of_lt (by rw [Nat.shiftLeft_eq]; omega), ← Nat.shiftLeft_add_eq_or_of_lt h2,
    Nat.shiftLeft_eq]

theorem toNat_bit (x : UInt8) {k : Nat} (hk : k < 8) :
    ((x >>> UInt8.ofNat k) &&& 0x01).toNat = x.toNat / 2 ^ k % 2 := by
  have hk' : k % 2 ^ 8 % 8 = k := by omega
  rw [UInt8.toNat_and, UInt8.toNat_shiftRight, UInt8.toNat_ofNat', hk',
    Nat.shiftRight_eq_div_pow]
  exact Nat.and_one_is_mod _

/-- Two bits side by side. -/
theorem toNat_bitPair {hi lo : UInt8} (h1 : hi.toNat < 2) (h2 : lo.toNat < 2) :
    ((hi <<< (1 : UInt8)) ||| lo).toNat = 2 * hi.toNat + lo.toNat := by
  have hone : (1 : UInt8).toNat % 8 = 1 := rfl
  rw [UInt8.toNat_or, UInt8.toNat_shiftLeft, hone, Nat.shiftLeft_eq, Nat.mod_eq_of_lt (by omega),
    Nat.pow_one, Nat.mul_comm]
  exact (Nat.shiftLeft_add_eq_or_of_lt (i := 1) h2 hi.toNat ▸ rfl)

/-- One of the four bit pairs of a byte. -/
theorem toNat_crumb (x : UInt8) {k : UInt8} (hk : k.toNat < 4) :
    ((x >>> ((k &&& 0x03) * 2)) &&& 0x03).toNat = x.toNat / 4 ^ k.toNat % 4 := by
  have hand : (k &&& 0x03).toNat = k.toNat :=
    (UInt8.toNat_and k 0x03).trans
      ((Nat.and_two_pow_sub_one_eq_mod _ 2).trans (Nat.mod_eq_of_lt hk))
  have hshift : ((k &&& 0x03) * 2).toNat = 2 * k.toNat := by
    rw [UInt8.toNat_mul, hand]
    exact (Nat.mod_eq_of_lt (by simp; omega)).trans (Nat.mul_comm _ _)
  rw [UInt8.toNat_and, UInt8.toNat_shiftRight, hshift, Nat.mod_eq_of_lt (by omega),
    Nat.shiftRight_eq_div_pow, Nat.pow_mul]
  exact Nat.and_two_pow_sub_one_eq_mod _ 2

/-- The bits of a byte, as a number. -/
def bit (x : UInt8) (k : Nat) : Bool := x.toNat.testBit k

theorem bit_or (x y : UInt8) (k : Nat) : bit (x ||| y) k = (bit x k || bit y k) := by
  unfold bit
  rw [UInt8.toNat_or, Nat.testBit_or]

theorem bit_and (x y : UInt8) (k : Nat) : bit (x &&& y) k = (bit x k && bit y k) := by
  unfold bit
  rw [UInt8.toNat_and, Nat.testBit_and]

theorem bit_of_le (x : UInt8) {k : Nat} (h : 8 ≤ k) : bit x k = false :=
  Nat.testBit_lt_two_pow (Nat.lt_of_lt_of_le x.toNat_lt (Nat.pow_le_pow_right (by decide) h))

theorem bit_and_not (x y : UInt8) (k : Nat) : bit (x &&& ~~~y) k = (bit x k && !bit y k) := by
  rw [bit_and]
  rcases Nat.lt_or_ge k 8 with hk | hk
  · have hnot : (~~~y).toNat = 2 ^ 8 - (y.toNat + 1) := by
      have hsize : UInt8.size = 2 ^ 8 := rfl
      rw [UInt8.toNat_not, hsize, Nat.sub_sub, Nat.add_comm]
    unfold bit
    rw [hnot, Nat.testBit_two_pow_sub_succ y.toNat_lt, decide_eq_true hk, Bool.true_and]
  · rw [bit_of_le x hk]
    rfl

/-- A property of bytes that can be checked holds if it holds of each. -/
theorem forall_byte {P : UInt8 → Prop} (h : ∀ n < 256, P (UInt8.ofNat n)) (x : UInt8) : P x :=
  UInt8.ofNat_toNat (x := x) ▸ h x.toNat x.toNat_lt

/-! ## Unions -/

/-- Bitwise or of a list of bytes. -/
def orAll (xs : List UInt8) : UInt8 := xs.foldl (· ||| ·) 0

@[simp] theorem orAll_nil : orAll [] = 0 := rfl

@[simp] theorem orAll_snoc (xs : List UInt8) (x : UInt8) : orAll (xs ++ [x]) = orAll xs ||| x := by
  simp [orAll]

theorem mem_or_orAll {xs : List UInt8} {x : UInt8} (hx : x ∈ xs) : x ||| orAll xs = orAll xs := by
  induction xs using List.reverseRecOn with
  | nil => simp at hx
  | append_singleton xs y ih =>
    rw [orAll_snoc]
    rcases List.mem_append.mp hx with h | h
    · rw [← UInt8.or_assoc, ih h]
    · rw [List.mem_singleton.mp h, UInt8.or_comm, UInt8.or_assoc, UInt8.or_self]

theorem orAll_or_of_forall {xs : List UInt8} {y : UInt8} (h : ∀ x ∈ xs, x ||| y = y) :
    orAll xs ||| y = y := by
  induction xs using List.reverseRecOn with
  | nil => simp
  | append_singleton xs x ih =>
    rw [orAll_snoc, UInt8.or_assoc, h x (by simp), ih fun z hz => h z (by simp [hz])]

/-- The union is one of its members exactly when that member contains the others. -/
theorem orAll_eq_iff {xs : List UInt8} {y : UInt8} (hy : y ∈ xs) :
    orAll xs = y ↔ ∀ x ∈ xs, x ||| y = y := by
  constructor
  · rintro rfl x hx
    exact mem_or_orAll hx
  · intro h
    rw [← mem_or_orAll hy, UInt8.or_comm, orAll_or_of_forall h]

theorem orAll_and (xs : List UInt8) (m : UInt8) : orAll xs &&& m = orAll (xs.map (· &&& m)) := by
  induction xs using List.reverseRecOn with
  | nil => simp
  | append_singleton xs x ih => simp [or_and_right, ih]

end BitField
