import Mathlib.Logic.Function.Basic
import Mathlib.Tactic.Choose
import GbEmu.Lib.Run

/-!
Copy loops. Pass `i` of the loop stores `value i` under `key i` in a memory that
the state is built around; the loop then succeeds exactly with the memory that
holds every value under its key and is unchanged elsewhere.
-/

namespace Copy

variable {σ κ ε V : Type} [DecidableEq κ]

/-- A pass stores its value; it may rely on the keys not yet stored being unchanged. -/
def Passes (step : σ → Nat → Except ε σ) (mk : (κ → V) → σ) (m₀ : κ → V)
    (value : Nat → Except ε V) (key : Nat → κ) (n : Nat) : Prop :=
  ∀ i < n, ∀ m : κ → V, (∀ k, (∀ j < i, k ≠ key j) → m k = m₀ k) →
    step (mk m) i = (value i).map fun b => mk (Function.update m (key i) b)

variable {step : σ → Nat → Except ε σ} {mk : (κ → V) → σ} {m₀ : κ → V}
  {value : Nat → Except ε V} {key : Nat → κ}

theorem Passes.mono {n k : Nat} (h : Passes step mk m₀ value key n) (hk : k ≤ n) :
    Passes step mk m₀ value key k :=
  fun i hi => h i (Nat.lt_of_lt_of_le hi hk)

theorem run_eq_ok_iff {n : Nat} (hp : Passes step mk m₀ value key n)
    (hinj : ∀ i < n, ∀ j < n, key i = key j → i = j) (s' : σ) :
    Run.run step (mk m₀) (List.range n) = .ok s' ↔
      ∃ m, s' = mk m ∧ (∀ i < n, value i = .ok (m (key i))) ∧
        ∀ k, (∀ i < n, k ≠ key i) → m k = m₀ k := by
  induction n generalizing s' with
  | zero =>
    simp only [List.range_zero, Run.run_nil, Except.ok.injEq]
    constructor
    · rintro rfl
      exact ⟨m₀, rfl, by simp, by simp⟩
    · rintro ⟨m, rfl, -, hm⟩
      rw [show m = m₀ from funext fun k => hm k (by simp)]
  | succ n ih =>
    have ih := ih (hp.mono (Nat.le_succ n)) fun i hi j hj => hinj i (by omega) j (by omega)
    rw [List.range_succ, Run.run_snoc_ok]
    constructor
    · rintro ⟨t, ht, hs⟩
      obtain ⟨m, rfl, hv, hm⟩ := (ih t).mp ht
      rw [hp n (Nat.lt_succ_self n) m hm] at hs
      obtain ⟨b, hb, rfl⟩ := Run.map_eq_ok.mp hs
      refine ⟨_, rfl, fun i hi => ?_, fun k hk => ?_⟩
      · rcases Nat.lt_succ_iff_lt_or_eq.mp hi with h | rfl
        · have hne : key i ≠ key n := fun e => by
            have := hinj i (by omega) n (by omega) e
            omega
          rw [hv i h, Function.update_of_ne hne]
        · rw [hb, Function.update_self]
      · rw [Function.update_of_ne (hk n (Nat.lt_succ_self n))]
        exact hm k fun i hi => hk i (by omega)
    · rintro ⟨m, rfl, hv, hm⟩
      -- Undo the last store to recover the memory before it.
      have hother : ∀ k ≠ key n, Function.update m (key n) (m₀ (key n)) k = m k :=
        fun k hk => Function.update_of_ne hk _ _
      have hpre : ∀ k, (∀ j < n, k ≠ key j) →
          Function.update m (key n) (m₀ (key n)) k = m₀ k := by
        intro k hk
        by_cases hkn : k = key n
        · rw [hkn, Function.update_self]
        · rw [hother k hkn]
          exact hm k fun i hi => (Nat.lt_succ_iff_lt_or_eq.mp hi).elim (hk i) fun e => e ▸ hkn
      refine ⟨_, (ih _).mpr ⟨_, rfl, fun i hi => ?_, hpre⟩, ?_⟩
      · have hne : key i ≠ key n := fun e => by
          have := hinj i (by omega) n (by omega) e
          omega
        rw [hother _ hne, hv i (by omega)]
      · rw [hp n (Nat.lt_succ_self n) _ hpre, hv n (Nat.lt_succ_self n)]
        simp [Except.map]

/-- The loop finishes exactly when every value can be read. -/
theorem exists_run_ok_iff {n : Nat} (hp : Passes step mk m₀ value key n)
    (hinj : ∀ i < n, ∀ j < n, key i = key j → i = j) :
    (∃ s', Run.run step (mk m₀) (List.range n) = .ok s') ↔ ∀ i < n, ∃ b, value i = .ok b := by
  classical
  simp only [run_eq_ok_iff hp hinj]
  constructor
  · rintro ⟨s', m, -, hv, -⟩ i hi
    exact ⟨_, hv i hi⟩
  · intro h
    choose byte hbyte using h
    let m : κ → V := fun k =>
      if hk : ∃ i, i < n ∧ key i = k then byte hk.choose hk.choose_spec.1 else m₀ k
    refine ⟨mk m, m, rfl, fun i hi => ?_, fun k hk => ?_⟩
    · have hk : ∃ j, j < n ∧ key j = key i := ⟨i, hi, rfl⟩
      have hsame : hk.choose = i := hinj _ hk.choose_spec.1 i hi hk.choose_spec.2
      simp only [m, dif_pos hk]
      rw [← hbyte hk.choose hk.choose_spec.1, hsame]
    · exact dif_neg fun ⟨i, hi, e⟩ => hk i hi e.symm

end Copy
