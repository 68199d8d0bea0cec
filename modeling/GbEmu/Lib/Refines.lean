import GbEmu.Lib.Run

/-!
A partial specification beside a computation that may fail: where the specification has
a result, the computation has one that corresponds to it. The rules follow the shape of a
program, as those of `Run.Follows` do.
-/

namespace Run

variable {ε α β γ δ ι : Type}

/-- Whatever `y` returns, `x` returns something that corresponds to it. -/
def Refines (R : α → β → Prop) (x : Except ε α) (y : Option β) : Prop :=
  ∀ b, y = some b → ∃ a, x = .ok a ∧ R a b

variable {R : α → β → Prop} {S : γ → δ → Prop} {x : Except ε α} {y : Option β}

theorem refines_ok {a : α} {b : β} (h : R a b) : Refines R (.ok a : Except ε α) (some b) := by
  rintro b' ⟨⟩
  exact ⟨a, rfl, h⟩

theorem refines_none (R : α → β → Prop) (x : Except ε α) : Refines R x none := nofun

theorem Refines.bind {f : α → Except ε γ} {g : β → Option δ} (hx : Refines R x y)
    (hf : ∀ a b, R a b → Refines S (f a) (g b)) : Refines S (x.bind f) (y.bind g) := by
  intro d hd
  obtain ⟨b, hb, hd⟩ := Option.bind_eq_some_iff.mp hd
  obtain ⟨a, ha, hR⟩ := hx b hb
  obtain ⟨c, hc, hS⟩ := hf a b hR d hd
  exact ⟨c, bind_eq_ok.mpr ⟨a, ha, hc⟩, hS⟩

theorem Refines.map {f : α → γ} {g : β → δ} (hx : Refines R x y)
    (hf : ∀ a b, R a b → S (f a) (g b)) : Refines S (x.map f) (y.map g) := by
  intro d hd
  obtain ⟨b, hb, rfl⟩ := Option.map_eq_some_iff.mp hd
  obtain ⟨a, rfl, hR⟩ := hx b hb
  exact ⟨f a, rfl, hf a b hR⟩

/-- A guard of the specification alone. -/
theorem Refines.guard {c : Prop} [Decidable c] (h : c → Refines R x y) :
    Refines R x (if c then y else none) := by
  by_cases hc : c
  · rw [if_pos hc]
    exact h hc
  · rw [if_neg hc]
    exact refines_none R x

/-- Two ways to go on, chosen by conditions that agree. -/
theorem Refines.ite {c d : Prop} [Decidable c] [Decidable d] {x' : Except ε α} {y' : Option β}
    (hcd : c ↔ d) (ht : Refines R x y) (he : Refines R x' y') :
    Refines R (if c then x else x') (if d then y else y') := by
  by_cases hc : c
  · rw [if_pos hc, if_pos (hcd.mp hc)]
    exact ht
  · rw [if_neg hc, if_neg fun hd => hc (hcd.mpr hd)]
    exact he

theorem refines_run {f : α → ι → Except ε α} {g : β → ι → Option β}
    (hstep : ∀ a b i, R a b → Refines R (f a i) (g b i)) {a : α} {b : β} (is : List ι)
    (h : R a b) : Refines R (run f a is) (is.foldlM g b) := by
  induction is generalizing a b with
  | nil => exact refines_ok h
  | cons i is ih =>
    rw [run_cons, List.foldlM_cons]
    exact (hstep a b i h).bind fun a' b' h' => ih h'

end Run
