/-!
Runs of a labelled step relation. Each step emits a list of events and a run
carries the log of all of them; an invariant of log and state is proved for one
step and holds along every run, and a step relation that another one simulates
up to a filter on events passes its invariants on.
-/

namespace Trace

variable {σ τ ε : Type}

inductive Run (step : σ → List ε → σ → Prop) (s₀ : σ) : List ε → σ → Prop
  | nil : Run step s₀ [] s₀
  | snoc {log es : List ε} {s s' : σ} :
      Run step s₀ log s → step s es s' → Run step s₀ (log ++ es) s'

variable {step : σ → List ε → σ → Prop} {s₀ s : σ} {log : List ε}

theorem Run.single {s' : σ} {es : List ε} (h : step s es s') : Run step s es s' :=
  .snoc .nil h

/-- What holds of the empty log and is kept by every step holds along the run. -/
theorem Run.invariant {P : List ε → σ → Prop} (h : Run step s₀ log s) (h0 : P [] s₀)
    (hstep : ∀ log s es s', P log s → step s es s' → P (log ++ es) s') : P log s := by
  induction h with
  | nil => exact h0
  | snoc _ hs ih => exact hstep _ _ _ _ ih hs

theorem Run.trans {s₁ : σ} {log' : List ε} (h : Run step s₀ log s₁) (h' : Run step s₁ log' s) :
    Run step s₀ (log ++ log') s := by
  induction h' with
  | nil => simpa using h
  | snoc _ hs ih =>
    rw [← List.append_assoc]
    exact .snoc ih hs

theorem Run.mono {step' : σ → List ε → σ → Prop} (h : Run step s₀ log s)
    (himp : ∀ s es s', step s es s' → step' s es s') : Run step' s₀ log s := by
  induction h with
  | nil => exact .nil
  | snoc _ hs ih => exact .snoc ih (himp _ _ _ hs)

/-- Every step is matched by one of the other relation on the visible events, or
emits no visible event and leaves the image alone. -/
theorem Run.simulate {step' : τ → List ε → τ → Prop} (f : σ → τ) (visible : ε → Bool)
    (h : Run step s₀ log s)
    (hsim : ∀ s es s', step s es s' →
      step' (f s) (es.filter visible) (f s') ∨ (es.filter visible = [] ∧ f s' = f s)) :
    Run step' (f s₀) (log.filter visible) (f s) := by
  induction h with
  | nil => exact .nil
  | snoc _ hs ih =>
    rw [List.filter_append]
    rcases hsim _ _ _ hs with h' | ⟨hes, hf⟩
    · exact .snoc ih h'
    · rw [hes, hf, List.append_nil]
      exact ih

end Trace
