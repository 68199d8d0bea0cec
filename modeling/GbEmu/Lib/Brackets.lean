/-!
Well-nested runs: steps that enter something, each with the step that leaves it again
behind a well-nested run, and other steps in between. What the other steps keep, and
every entering step with its leaving step too, the whole run keeps.
-/

namespace Brackets

variable {σ α β : Type}

/-- A well-nested run, with what its pairs of steps enter and leave with. -/
inductive Nested (other : σ → σ → Prop) (enter : σ → α → σ → Prop) (leave : σ → β → σ → Prop) :
    List (α × β) → σ → σ → Prop
  | done (s : σ) : Nested other enter leave [] s s
  | other {s t u : σ} {xs : List (α × β)} (h : other s t) (rest : Nested other enter leave xs t u) :
      Nested other enter leave xs s u
  | pair {s t t' u v : σ} {a : α} {b : β} {xs ys : List (α × β)} (h : enter s a t)
      (body : Nested other enter leave xs t t') (h' : leave t' b u)
      (rest : Nested other enter leave ys u v) :
      Nested other enter leave (xs ++ (a, b) :: ys) s v

/-- An invariant that a relation between states keeps, and which the steps of a pair can
rely on. -/
structure Rules (other : σ → σ → Prop) (enter : σ → α → σ → Prop) (leave : σ → β → σ → Prop)
    (I : σ → Prop) (keep : σ → σ → Prop) (right : α → β → Prop) : Prop where
  refl : ∀ s, keep s s
  trans : ∀ s t u, keep s t → keep t u → keep s u
  invariant : ∀ s t, I s → keep s t → I t
  of_other : ∀ s t, I s → other s t → keep s t
  of_enter : ∀ s a t, I s → enter s a t → I t
  of_leave : ∀ s a t t' b u, I s → enter s a t → keep t t' → leave t' b u → right a b ∧ keep s u

variable {other : σ → σ → Prop} {enter : σ → α → σ → Prop} {leave : σ → β → σ → Prop}
  {I : σ → Prop} {keep : σ → σ → Prop} {right : α → β → Prop}

/-- The whole run keeps what its parts do, and every pair is right. -/
theorem nested_kept (rules : Rules other enter leave I keep right) {s u : σ} {xs : List (α × β)}
    (h : Nested other enter leave xs s u) (hs : I s) :
    keep s u ∧ ∀ x ∈ xs, right x.1 x.2 := by
  induction h with
  | done s => exact ⟨rules.refl s, fun x hx => absurd hx List.not_mem_nil⟩
  | @other s t u xs h rest ih =>
    have hkeep := rules.of_other s t hs h
    obtain ⟨hrest, hpairs⟩ := ih (rules.invariant s t hs hkeep)
    exact ⟨rules.trans s t u hkeep hrest, hpairs⟩
  | @pair s t t' u v a b xs ys h body h' rest ihbody ihrest =>
    obtain ⟨hbody, hinner⟩ := ihbody (rules.of_enter s a t hs h)
    obtain ⟨hright, hkeep⟩ := rules.of_leave s a t t' b u hs h hbody h'
    obtain ⟨hrest, houter⟩ := ihrest (rules.invariant s u hs hkeep)
    refine ⟨rules.trans s u v hkeep hrest, ?_⟩
    rintro x hx
    rcases List.mem_append.mp hx with hx | hx
    · exact hinner x hx
    · rcases List.mem_cons.mp hx with rfl | hx
      · exact hright
      · exact houter x hx

end Brackets
