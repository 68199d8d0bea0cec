import Mathlib.Algebra.Group.Nat.Defs

/-!
Tables keyed by bytes, as association lists. The keys are also the bits of one
number, so that one number says which bytes a table covers.
-/

namespace Table

variable {α : Type}

/-- The number whose bits are the keys. -/
def keys (table : List (UInt8 × α)) : Nat :=
  table.foldr (fun entry n => n ||| 2 ^ entry.1.toNat) 0

theorem exists_of_keys {table : List (UInt8 × α)} {b : UInt8}
    (h : (keys table).testBit b.toNat = true) : ∃ v, (b, v) ∈ table := by
  induction table with
  | nil => simp [keys] at h
  | cons entry table ih =>
    rw [keys, List.foldr_cons, Nat.testBit_or, Bool.or_eq_true] at h
    rcases h with h | h
    · obtain ⟨v, hv⟩ := ih h
      exact ⟨v, List.mem_cons_of_mem entry hv⟩
    · rw [Nat.testBit_two_pow, decide_eq_true_iff, UInt8.toNat_inj] at h
      exact ⟨entry.2, h ▸ List.mem_cons_self⟩

theorem mem_of_lookup {table : List (UInt8 × α)} {b : UInt8} {v : α}
    (h : table.lookup b = some v) : (b, v) ∈ table := by
  obtain ⟨before, after, rfl, -⟩ := List.lookup_eq_some_iff.mp h
  simp

/-- A table all of whose entries are those of `f`, where it has a key. -/
theorem lookup_eq {table : List (UInt8 × α)} {P : UInt8 → Prop} {f : UInt8 → α}
    (hf : ∀ entry ∈ table, P entry.1 → entry.2 = f entry.1) {b : UInt8} (hb : P b)
    (hk : (keys table).testBit b.toNat = true) : table.lookup b = some (f b) := by
  obtain ⟨v, hv⟩ := exists_of_keys hk
  have hsome : (table.lookup b).isSome :=
    List.lookup_isSome_iff.mpr ⟨(b, v), hv, beq_self_eq_true b⟩
  obtain ⟨u, hu⟩ := Option.isSome_iff_exists.mp hsome
  exact hu.trans (congrArg some (hf (b, u) (mem_of_lookup hu) hb))

end Table
