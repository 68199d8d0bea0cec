/-!
Recursion with fuel in which a call makes at most one call in turn. It finishes
with some fuel exactly when the chain of calls ends.
-/

namespace Nested

variable {σ : Type} {next : σ → Option σ}

/-- The call that is nested `n` deep in the call on `s`, if the chain is so long. -/
def follow (next : σ → Option σ) : Nat → σ → Option σ
  | 0, s => some s
  | n + 1, s => (next s).bind (follow next n)

theorem follow_succ_of_eq {s t : σ} (h : next s = some t) (n : Nat) :
    follow next (n + 1) s = follow next n t := by
  rw [follow, h]
  rfl

/-- A call that makes itself in turn never ends. -/
theorem follow_loop {s : σ} (h : next s = some s) (n : Nat) : follow next n s = some s := by
  induction n with
  | zero => rfl
  | succ n ih => rw [follow_succ_of_eq h, ih]

section Finishes

-- Whether a call finishes with so much fuel.
variable {done : Nat → σ → Prop} (hzero : ∀ s, ¬ done 0 s)
  (hlast : ∀ s, next s = none → ∃ fuel, done fuel s)
  (hdown : ∀ fuel s t, next s = some t → done (fuel + 1) s → done fuel t)
  (hup : ∀ fuel s t, next s = some t → done fuel t → ∃ fuel', done fuel' s)

include hzero hdown in
theorem chain_ends {fuel : Nat} {s : σ} (h : done fuel s) : ∃ n, follow next n s = none := by
  induction fuel generalizing s with
  | zero => exact absurd h (hzero s)
  | succ fuel ih =>
    cases ht : next s with
    | none => exact ⟨1, by rw [follow, ht]; rfl⟩
    | some t =>
      obtain ⟨n, hn⟩ := ih (hdown fuel s t ht h)
      exact ⟨n + 1, (follow_succ_of_eq ht n).trans hn⟩

include hlast hup in
theorem finishes_of_chain {n : Nat} {s : σ} (h : follow next n s = none) : ∃ fuel, done fuel s := by
  induction n generalizing s with
  | zero => cases h
  | succ n ih =>
    cases ht : next s with
    | none => exact hlast s ht
    | some t =>
      rw [follow_succ_of_eq ht] at h
      obtain ⟨fuel, hfuel⟩ := ih h
      exact hup fuel s t ht hfuel

include hzero hlast hdown hup in
theorem finishes_iff (s : σ) : (∃ fuel, done fuel s) ↔ ∃ n, follow next n s = none :=
  ⟨fun ⟨_, h⟩ => chain_ends hzero hdown h, fun ⟨_, h⟩ => finishes_of_chain hlast hup h⟩

end Finishes

end Nested
