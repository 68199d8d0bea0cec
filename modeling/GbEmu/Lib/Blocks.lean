/-!
Concatenations of blocks of one length, as a file holds the banks of a memory:
cell `i` of block `k` is cell `i + n * k` of the concatenation.
-/

namespace Blocks

variable {α β : Type} {f : β → List α} {n : Nat} (hf : ∀ b, (f b).length = n)

include hf

theorem getElem?_flatMap {i : Nat} (hi : i < n) (bs : List β) (k : Nat) :
    (bs.flatMap f)[i + n * k]? = bs[k]?.bind fun b => (f b)[i]? := by
  induction bs generalizing k with
  | nil => simp
  | cons b bs ih =>
    rw [List.flatMap_cons]
    cases k with
    | zero => simp [List.getElem?_append_left, hf, hi]
    | succ k =>
      have hle : (f b).length ≤ i + n * (k + 1) := by
        rw [hf, Nat.mul_succ]
        omega
      rw [List.getElem?_append_right hle, hf, Nat.mul_succ, ← Nat.add_assoc, Nat.add_sub_cancel, ih]
      rfl

/-- Storing into a block stores into the concatenation. -/
theorem flatMap_set {i : Nat} (hi : i < n) {bs : List β} {k : Nat} {b b' : β} {a : α}
    (hk : bs[k]? = some b) (hb : f b' = (f b).set i a) :
    (bs.set k b').flatMap f = (bs.flatMap f).set (i + n * k) a := by
  induction bs generalizing k with
  | nil => simp at hk
  | cons c bs ih =>
    cases k with
    | zero =>
      obtain rfl : c = b := by simpa using hk
      have hlt : i < (f c).length := hf c ▸ hi
      rw [List.set_cons_zero, List.flatMap_cons, List.flatMap_cons, hb, Nat.mul_zero, Nat.add_zero,
        List.set_append_left _ _ hlt]
    | succ k =>
      have hle : (f c).length ≤ i + n * (k + 1) := by
        rw [hf, Nat.mul_succ]
        omega
      rw [List.set_cons_succ, List.flatMap_cons, List.flatMap_cons, List.set_append_right _ _ hle,
        hf, Nat.mul_succ, ← Nat.add_assoc, Nat.add_sub_cancel, ih (by simpa using hk)]

end Blocks
