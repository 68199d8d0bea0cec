import Mathlib.Data.List.Induction
import Mathlib.Logic.Relation

/-!
Runs of a step function that may fail, and of a labelled step relation. An
invariant is proved once for a step and then holds along every run.
-/

namespace Run

section Function

variable {σ ι ε : Type}

/-- The state after the inputs, or the first failure. -/
def run (step : σ → ι → Except ε σ) (s : σ) (is : List ι) : Except ε σ := is.foldlM step s

variable {step : σ → ι → Except ε σ}

@[simp] theorem run_nil (s : σ) : run step s [] = .ok s := rfl

theorem run_cons (s : σ) (i : ι) (is : List ι) :
    run step s (i :: is) = (step s i).bind fun s' => run step s' is := rfl

theorem bind_eq_ok {α β : Type} {x : Except ε α} {f : α → Except ε β}
    {b : β} :
    x.bind f = .ok b ↔ ∃ a, x = .ok a ∧ f a = .ok b := by
  cases x with
  | error e => exact ⟨nofun, nofun⟩
  | ok a => exact ⟨fun h => ⟨a, rfl, h⟩, fun ⟨_, ha, h⟩ => Except.ok.inj ha ▸ h⟩

theorem map_eq_ok {α β : Type} {x : Except ε α} {f : α → β} {b : β} :
    x.map f = .ok b ↔ ∃ a, x = .ok a ∧ f a = b := by
  cases x with
  | error e => exact ⟨nofun, nofun⟩
  | ok a => exact ⟨fun h => ⟨a, rfl, Except.ok.inj h⟩, fun ⟨_, ha, h⟩ => by rw [ha, ← h]; rfl⟩

theorem run_cons_ok {s s' : σ} {i : ι} {is : List ι} :
    run step s (i :: is) = .ok s' ↔ ∃ t, step s i = .ok t ∧ run step t is = .ok s' := by
  rw [run_cons]
  exact bind_eq_ok

theorem run_cons_of_ok {s t : σ} {i : ι} (h : step s i = .ok t) (is : List ι) :
    run step s (i :: is) = run step t is := by
  rw [run_cons, h]
  rfl

theorem run_snoc_ok {s s' : σ} {is : List ι} {i : ι} :
    run step s (is ++ [i]) = .ok s' ↔ ∃ t, run step s is = .ok t ∧ step t i = .ok s' := by
  induction is generalizing s with
  | nil => simp [run_cons_ok]
  | cons j is ih =>
    rw [List.cons_append, run_cons_ok]
    simp only [ih, run_cons_ok]
    constructor
    · rintro ⟨t, ht, u, hu, hs⟩
      exact ⟨u, ⟨t, ht, hu⟩, hs⟩
    · rintro ⟨u, ⟨t, ht, hu⟩, hs⟩
      exact ⟨t, ht, u, hu, hs⟩

theorem run_append (s : σ) (is js : List ι) :
    run step s (is ++ js) = (run step s is).bind fun t => run step t js := by
  induction is generalizing s with
  | nil => rfl
  | cons i is ih =>
    rw [List.cons_append, run_cons, run_cons]
    cases step s i with
    | error e => rfl
    | ok t => exact ih t

/-- Steps that leave the state as it is. -/
theorem run_fixed {s : σ} {is : List ι} (h : ∀ i ∈ is, step s i = .ok s) :
    run step s is = .ok s := by
  induction is with
  | nil => rfl
  | cons i is ih =>
    rw [run_cons, h i List.mem_cons_self]
    exact ih fun j hj => h j (List.mem_cons_of_mem i hj)

/-- What a successful step preserves, a successful run preserves. -/
theorem run_invariant {P : σ → Prop} (hstep : ∀ s i s', P s → step s i = .ok s' → P s')
    {s s' : σ} {is : List ι} (h : run step s is = .ok s') (hs : P s) : P s' := by
  induction is generalizing s with
  | nil =>
    rw [run_nil, Except.ok.injEq] at h
    exact h ▸ hs
  | cons i is ih =>
    obtain ⟨t, ht, hr⟩ := run_cons_ok.mp h
    exact ih hr (hstep s i t hs ht)

/-- A counting loop: the invariant of pass `i` becomes that of pass `i + 1`. -/
theorem run_range {step : σ → Nat → Except ε σ} {P : Nat → σ → Prop} {n : Nat} {s s' : σ}
    (h : run step s (List.range n) = .ok s') (hs : P 0 s)
    (hstep : ∀ i t t', i < n → P i t → step t i = .ok t' → P (i + 1) t') : P n s' := by
  induction n generalizing s' with
  | zero =>
    rw [List.range_zero, run_nil, Except.ok.injEq] at h
    exact h ▸ hs
  | succ n ih =>
    rw [List.range_succ, run_snoc_ok] at h
    obtain ⟨t, ht, hlast⟩ := h
    have hP := ih ht fun i u u' hi => hstep i u u' (Nat.lt_succ_of_lt hi)
    exact hstep n t s' (Nat.lt_succ_self n) hP hlast

/-- The same for a loop that cannot fail. -/
theorem foldl_range {step : σ → Nat → σ} {P : Nat → σ → Prop} {n : Nat} {s : σ} (hs : P 0 s)
    (hstep : ∀ i t, i < n → P i t → P (i + 1) (step t i)) : P n ((List.range n).foldl step s) := by
  induction n with
  | zero => exact hs
  | succ n ih =>
    rw [List.range_succ, List.foldl_append]
    exact hstep n _ (Nat.lt_succ_self n) (ih fun i t hi => hstep i t (Nat.lt_succ_of_lt hi))

section Seen

variable {τ : Type} {step : σ → ι → σ} {P : σ → Prop} {g : σ → τ} {l : List ι}

/-- A loop in which no pass changes what `g` sees. -/
theorem foldl_kept (hP : ∀ i ∈ l, ∀ s, P s → P (step s i))
    (hkept : ∀ i ∈ l, ∀ s, P s → g (step s i) = g s) {s : σ} (hs : P s) :
    g (l.foldl step s) = g s := by
  induction l generalizing s with
  | nil => rfl
  | cons i l ih =>
    have hrest := ih (fun j hj => hP j (List.mem_cons_of_mem i hj))
      (fun j hj => hkept j (List.mem_cons_of_mem i hj)) (hP i List.mem_cons_self s hs)
    exact hrest.trans (hkept i List.mem_cons_self s hs)

/-- A loop in which one pass alone changes what `g` sees. -/
theorem foldl_only {i : ι} {f : τ → τ} (hl : l.Nodup) (hi : i ∈ l)
    (hP : ∀ j ∈ l, ∀ s, P s → P (step s j))
    (hkept : ∀ j ∈ l, j ≠ i → ∀ s, P s → g (step s j) = g s)
    (honly : ∀ s, P s → g (step s i) = f (g s)) {s : σ} (hs : P s) :
    g (l.foldl step s) = f (g s) := by
  induction l generalizing s with
  | nil => cases hi
  | cons a l ih =>
    rw [List.nodup_cons] at hl
    have hP' : ∀ j ∈ l, ∀ s, P s → P (step s j) := fun j hj => hP j (List.mem_cons_of_mem a hj)
    have hkept' : ∀ j ∈ l, j ≠ i → ∀ s, P s → g (step s j) = g s :=
      fun j hj => hkept j (List.mem_cons_of_mem a hj)
    have ha := hP a List.mem_cons_self s hs
    rw [List.foldl_cons]
    by_cases hai : a = i
    · have hrest : ∀ j ∈ l, ∀ s, P s → g (step s j) = g s :=
        fun j hj => hkept' j hj fun hji => hl.1 (hai.trans hji.symm ▸ hj)
      rw [foldl_kept hP' hrest ha, hai]
      exact honly s hs
    · rw [ih hl.2 (List.mem_of_ne_of_mem (Ne.symm hai) hi) hP' hkept' ha,
        hkept a List.mem_cons_self hai s hs]

end Seen

/-- A step that never fails under an invariant gives a run that never fails. -/
theorem run_total {P : σ → Prop} (hstep : ∀ s i, P s → ∃ s', step s i = .ok s' ∧ P s')
    {s : σ} (is : List ι) (hs : P s) : ∃ s', run step s is = .ok s' ∧ P s' := by
  induction is generalizing s with
  | nil => exact ⟨s, rfl, hs⟩
  | cons i is ih =>
    obtain ⟨t, ht, hP⟩ := hstep s i hs
    obtain ⟨s', hr, hs'⟩ := ih hP
    exact ⟨s', run_cons_ok.mpr ⟨t, ht, hr⟩, hs'⟩

section History

variable {P : List ι → σ → Prop} {s s' : σ}

/-- An invariant that speaks of the inputs so far. -/
theorem run_history (hstep : ∀ is i s s', P is s → step s i = .ok s' → P (is ++ [i]) s')
    {is : List ι} (h : run step s is = .ok s') (hs : P [] s) : P is s' := by
  induction is using List.reverseRecOn generalizing s' with
  | nil =>
    rw [run_nil, Except.ok.injEq] at h
    exact h ▸ hs
  | append_singleton is i ih =>
    obtain ⟨t, ht, hlast⟩ := run_snoc_ok.mp h
    exact hstep is i t s' (ih ht) hlast

theorem run_history_total
    (hstep : ∀ is i s, P is s → ∃ s', step s i = .ok s' ∧ P (is ++ [i]) s') (is : List ι)
    (hs : P [] s) : ∃ s', run step s is = .ok s' ∧ P is s' := by
  induction is using List.reverseRecOn with
  | nil => exact ⟨s, rfl, hs⟩
  | append_singleton is i ih =>
    obtain ⟨t, ht, hP⟩ := ih
    obtain ⟨s', hs', hP'⟩ := hstep is i t hP
    exact ⟨s', run_snoc_ok.mpr ⟨t, ht, hs'⟩, hP'⟩

end History

/-- A run succeeds if each step does in the state that the steps before it reach. -/
theorem run_succeeds {s : σ} {is : List ι}
    (h : ∀ before i after t, is = before ++ i :: after → run step s before = .ok t →
      ∃ t', step t i = .ok t') : ∃ s', run step s is = .ok s' := by
  induction is generalizing s with
  | nil => exact ⟨s, rfl⟩
  | cons i is ih =>
    obtain ⟨t, ht⟩ := h [] i is s rfl rfl
    obtain ⟨s', hs'⟩ := ih fun before j after u hsplit hu =>
      h (i :: before) j after u (congrArg (i :: ·) hsplit) (run_cons_ok.mpr ⟨t, ht, hu⟩)
    exact ⟨s', run_cons_ok.mpr ⟨t, ht, hs'⟩⟩

/-- In a run that succeeds, every step does. -/
theorem run_step {s s' : σ} {before after : List ι} {i : ι} {t : σ}
    (h : run step s (before ++ i :: after) = .ok s') (ht : run step s before = .ok t) :
    ∃ t', step t i = .ok t' := by
  rw [run_append, ht] at h
  obtain ⟨t', ht', -⟩ := run_cons_ok.mp h
  exact ⟨t', ht'⟩

/-- Where a property that holds before a step holds after it exactly if the step is not a
bad one, it holds all along a run exactly if no step of the run is. -/
theorem run_holds_iff {I Q : σ → Prop} {bad : σ → ι → Prop} {is : List ι}
    (hstep : ∀ i ∈ is, ∀ s, I s → Q s → ∃ s', step s i = .ok s' ∧ I s' ∧ (Q s' ↔ ¬ bad s i))
    {s : σ} (hI : I s) (hQ : Q s) :
    (∀ before after, is = before ++ after → ∃ t, run step s before = .ok t ∧ Q t) ↔
      ∀ before i after t, is = before ++ i :: after → run step s before = .ok t →
        ¬ bad t i := by
  induction is generalizing s with
  | nil =>
    refine iff_of_true (fun before after hsplit => ?_) fun before i after t hsplit => ?_
    · obtain ⟨rfl, -⟩ := List.append_eq_nil_iff.mp hsplit.symm
      exact ⟨s, rfl, hQ⟩
    · exact absurd hsplit.symm (List.append_ne_nil_of_right_ne_nil _ (List.cons_ne_nil i after))
  | cons i is ih =>
    obtain ⟨s', hs', hI', hQ'⟩ := hstep i List.mem_cons_self s hI hQ
    have hrest (hgood : ¬ bad s i) :=
      ih (fun j hj => hstep j (List.mem_cons_of_mem i hj)) hI' (hQ'.mpr hgood)
    constructor
    · intro h before j after t hsplit ht
      have hgood : ¬ bad s i := by
        obtain ⟨t, ht, hQt⟩ := h [i] is rfl
        rw [run_cons_of_ok hs', run_nil, Except.ok.injEq] at ht
        exact hQ'.mp (ht ▸ hQt)
      cases before with
      | nil =>
        obtain ⟨rfl, -⟩ := List.cons.inj hsplit
        exact Except.ok.inj ht ▸ hgood
      | cons k before =>
        obtain ⟨rfl, htail⟩ := List.cons.inj hsplit
        rw [run_cons_of_ok hs'] at ht
        refine (hrest hgood).mp (fun b a hba => ?_) before j after t htail ht
        rw [← run_cons_of_ok hs']
        exact h (i :: b) a (congrArg (i :: ·) hba)
    · intro h before after hsplit
      have hgood : ¬ bad s i := h [] i is s rfl rfl
      cases before with
      | nil => exact ⟨s, rfl, hQ⟩
      | cons k before =>
        obtain ⟨rfl, htail⟩ := List.cons.inj hsplit
        rw [run_cons_of_ok hs']
        refine (hrest hgood).mpr (fun b j a t hb ht => ?_) before after htail
        exact h (i :: b) j a t (congrArg (i :: ·) hb) (by rw [run_cons_of_ok hs', ht])

theorem run_pure (step : σ → ι → σ) (s : σ) (is : List ι) :
    run (fun s i => (.ok (step s i) : Except ε σ)) s is = .ok (is.foldl step s) := by
  induction is generalizing s with
  | nil => rfl
  | cons i is ih => exact ih (step s i)

/-- The same for a step that cannot fail. -/
theorem foldl_holds_iff {step : σ → ι → σ} {I Q : σ → Prop} {bad : σ → ι → Prop}
    (hstep : ∀ s i, I s → Q s → I (step s i) ∧ (Q (step s i) ↔ ¬ bad s i)) {s : σ} (hI : I s)
    (hQ : Q s) (is : List ι) :
    (∀ before after, is = before ++ after → Q (before.foldl step s)) ↔
      ∀ before i after, is = before ++ i :: after → ¬ bad (before.foldl step s) i := by
  have hok : ∀ i ∈ is, ∀ s, I s → Q s →
      ∃ s', (.ok (step s i) : Except Unit σ) = .ok s' ∧ I s' ∧ (Q s' ↔ ¬ bad s i) :=
    fun i _ s hI hQ => ⟨step s i, rfl, hstep s i hI hQ⟩
  have hiff := run_holds_iff hok hI hQ
  simp only [run_pure, Except.ok.injEq, exists_eq_left'] at hiff
  refine hiff.trans ⟨fun h before i after hsplit => ?_, fun h before i after t hsplit ht => ?_⟩
  · exact h before i after _ hsplit rfl
  · exact ht ▸ h before i after hsplit

/-- A run whose every step does to the state what a function does to its abstraction. -/
theorem run_refines {τ : Type} {R : σ → τ → Prop} {next : τ → ι → τ}
    (hstep : ∀ s t i, R s t → ∃ s', step s i = .ok s' ∧ R s' (next t i)) {s : σ} {t : τ}
    (h : R s t) (is : List ι) : ∃ s', run step s is = .ok s' ∧ R s' (is.foldl next t) := by
  induction is generalizing s t with
  | nil => exact ⟨s, rfl, h⟩
  | cons i is ih =>
    obtain ⟨u, hu, hR⟩ := hstep s t i h
    obtain ⟨s', hr, hs'⟩ := ih hR
    exact ⟨s', run_cons_ok.mpr ⟨u, hu, hr⟩, hs'⟩

/-! ### Runs of two step functions -/

/-- Two runs whose steps keep a relation between the states. -/
theorem run_simulates {τ : Type} {R : σ → τ → Prop} {step' : τ → ι → Except ε τ} {is : List ι}
    (hstep : ∀ i ∈ is, ∀ s t, R s t → ∃ s' t', step s i = .ok s' ∧ step' t i = .ok t' ∧ R s' t')
    {s : σ} {t : τ} (h : R s t) :
    ∃ s' t', run step s is = .ok s' ∧ run step' t is = .ok t' ∧ R s' t' := by
  induction is generalizing s t with
  | nil => exact ⟨s, t, rfl, rfl, h⟩
  | cons i is ih =>
    obtain ⟨u, v, hu, hv, hR⟩ := hstep i List.mem_cons_self s t h
    obtain ⟨s', t', hs', ht', hR'⟩ := ih (fun j hj => hstep j (List.mem_cons_of_mem i hj)) hR
    exact ⟨s', t', run_cons_ok.mpr ⟨u, hu, hs'⟩, run_cons_ok.mpr ⟨v, hv, ht'⟩, hR'⟩

/-- No failure of the kind that only one of the two has. -/
def Settled (bad : ε → Prop) {α : Type} (r : Except ε α) : Prop := ∀ e, r = .error e → ¬ bad e

variable {bad : ε → Prop}

@[simp] theorem settled_ok {α : Type} (a : α) : Settled bad (Except.ok a : Except ε α) := nofun

theorem settled_error {α : Type} {e : ε} : Settled bad (.error e : Except ε α) ↔ ¬ bad e :=
  ⟨fun h => h e rfl, fun h _ he => (Except.error.inj he) ▸ h⟩

/-- Two ways to go on that agree after every result agree from one on, if the first
part agrees and does not fail in the bad way. -/
theorem bind_congr {α β : Type} {x x' : Except ε α} {f f' : α → Except ε β}
    (hx : Settled bad x → x' = x) (hf : ∀ a, Settled bad (f a) → f' a = f a)
    (h : Settled bad (x.bind f)) : x'.bind f' = x.bind f := by
  cases x with
  | error e =>
    rw [hx (settled_error.mpr (settled_error.mp h))]
    rfl
  | ok a =>
    rw [hx (settled_ok a)]
    exact hf a h

theorem settled_bind {α β : Type} {x : Except ε α} {f : α → Except ε β} (hx : Settled bad x)
    (hf : ∀ a, Settled bad (f a)) : Settled bad (x.bind f) := by
  cases x with
  | error e => exact settled_error.mpr (settled_error.mp hx)
  | ok a => exact hf a

theorem settled_of_bind {α β : Type} {x : Except ε α} {f : α → Except ε β}
    (h : Settled bad (x.bind f)) : Settled bad x := by
  cases x with
  | error e => exact settled_error.mpr (settled_error.mp h)
  | ok a => exact settled_ok a

/-- A run whose steps all agree with those of another agrees with it. -/
theorem run_congr {step' : σ → ι → Except ε σ} {is : List ι}
    (hstep : ∀ i ∈ is, ∀ s, Settled bad (step s i) → step' s i = step s i) {s : σ}
    (h : Settled bad (run step s is)) : run step' s is = run step s is := by
  induction is generalizing s with
  | nil => rfl
  | cons i is ih =>
    have hrest := fun t => ih (fun j hj => hstep j (List.mem_cons_of_mem i hj)) (s := t)
    exact bind_congr (hstep i List.mem_cons_self s) hrest h

theorem run_settled {is : List ι} (hstep : ∀ i ∈ is, ∀ s, Settled bad (step s i)) (s : σ) :
    Settled bad (run step s is) := by
  induction is generalizing s with
  | nil => exact settled_ok s
  | cons i is ih =>
    have hrest := ih fun j hj => hstep j (List.mem_cons_of_mem i hj)
    exact settled_bind (hstep i List.mem_cons_self s) hrest

end Function

section Relation

variable {σ ι : Type} {R : σ → σ → Prop} {step : σ → ι → Option σ}

/-- A list of inputs that a partial step function can take is a run of its relation. -/
theorem reflTransGen_of_foldlM (hstep : ∀ s i s', step s i = some s' → R s s') {s s' : σ}
    {is : List ι} (h : is.foldlM step s = some s') : Relation.ReflTransGen R s s' := by
  induction is generalizing s with
  | nil =>
    obtain rfl : s = s' := by simpa using h
    exact .refl
  | cons i is ih =>
    rw [List.foldlM_cons] at h
    obtain ⟨t, ht, hrest⟩ := Option.bind_eq_some_iff.mp h
    exact .head (hstep s i t ht) (ih hrest)

end Relation

end Run
