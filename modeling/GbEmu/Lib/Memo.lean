import Mathlib.Tactic.SplitIfs
import Mathlib.Logic.Basic

/-!
A table with a single entry in front of a function. The entry is filled again only
when another key is asked for; as long as it is sound for the keys that are asked
for, looking up in the table is the same as computing the function.
-/

namespace Memo

variable {κ ε : Type}

/-- The entry for `k`, computed if the table holds another one. -/
def refresh [DecidableEq κ] (key : ε → κ) (fill : κ → ε) (e : ε) (k : κ) : ε :=
  if key e ≠ k then fill k else e

/-- An entry under a valid key is what the function gives for the key. -/
def Sound (key : ε → κ) (fill : κ → ε) (valid : κ → Prop) (e : ε) : Prop :=
  valid (key e) → e = fill (key e)

variable {key : ε → κ} {fill : κ → ε} {valid : κ → Prop} {e : ε} {k : κ}

theorem sound_empty (h : ¬ valid (key e)) : Sound key fill valid e := fun hv => absurd hv h

theorem sound_fill (hkey : key (fill k) = k) : Sound key fill valid (fill k) :=
  fun _ => by rw [hkey]

theorem refresh_eq [DecidableEq κ] (h : Sound key fill valid e) (hk : valid k) :
    refresh key fill e k = fill k := by
  unfold refresh
  split_ifs with heq
  · rfl
  · rw [not_not] at heq
    rw [← heq] at hk ⊢
    exact h hk

end Memo
