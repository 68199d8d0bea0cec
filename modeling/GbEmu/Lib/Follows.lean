import GbEmu.Lib.Run

/-!
Two computations side by side: the second does what the first does whenever that
succeeds, and the result meets a postcondition. The rules follow the shape of a
program, so that a fact about its primitives becomes one about all of it.
-/

namespace Run

variable {ε α β σ ι : Type}

/-- What `x` returns, `y` returns too, and `P` holds of it. -/
def Follows (P : α → Prop) (x y : Except ε α) : Prop := ∀ a, x = .ok a → y = .ok a ∧ P a

variable {P Q : α → Prop} {x y : Except ε α}

theorem follows_ok {a : α} (h : P a) : Follows P (.ok a : Except ε α) (.ok a) := by
  rintro b ⟨⟩
  exact ⟨rfl, h⟩

theorem follows_error (e : ε) (y : Except ε α) : Follows P (.error e) y := nofun

theorem follows_refl (x : Except ε α) : Follows (fun _ => True) x x := fun _ h => ⟨h, trivial⟩

theorem Follows.mono (h : Follows P x y) (hPQ : ∀ a, P a → Q a) : Follows Q x y :=
  fun a ha => ⟨(h a ha).1, hPQ a (h a ha).2⟩

theorem Follows.bind {R : β → Prop} {f g : α → Except ε β} (hx : Follows P x y)
    (hf : ∀ a, P a → Follows R (f a) (g a)) : Follows R (x.bind f) (y.bind g) := by
  intro b hb
  obtain ⟨a, rfl, hfa⟩ := bind_eq_ok.mp hb
  obtain ⟨hy, ha⟩ := hx a rfl
  obtain ⟨hg, hR⟩ := hf a ha b hfa
  exact ⟨bind_eq_ok.mpr ⟨a, hy, hg⟩, hR⟩

theorem Follows.map {R : β → Prop} {f : α → β} (hx : Follows P x y) (hf : ∀ a, P a → R (f a)) :
    Follows R (x.map f) (y.map f) := by
  intro b hb
  obtain ⟨a, rfl, rfl⟩ := map_eq_ok.mp hb
  obtain ⟨hy, ha⟩ := hx a rfl
  exact ⟨map_eq_ok.mpr ⟨a, hy, rfl⟩, hf a ha⟩

theorem Follows.ite {c : Prop} [Decidable c] {x' y' : Except ε α} (ht : c → Follows P x y)
    (he : ¬ c → Follows P x' y') : Follows P (if c then x else x') (if c then y else y') := by
  by_cases hc : c
  · rw [if_pos hc, if_pos hc]
    exact ht hc
  · rw [if_neg hc, if_neg hc]
    exact he hc

/-- A loop that keeps an invariant. -/
theorem follows_run {I : σ → Prop} {f g : σ → ι → Except ε σ}
    (hstep : ∀ s i, I s → Follows I (f s i) (g s i)) {s : σ} (is : List ι) (hs : I s) :
    Follows I (run f s is) (run g s is) := by
  induction is generalizing s with
  | nil => exact follows_ok hs
  | cons i is ih =>
    rw [run_cons, run_cons]
    exact (hstep s i hs).bind fun t ht => ih ht

end Run
