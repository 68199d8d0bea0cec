import Mathlib.Logic.Function.Iterate

/-!
Loops that take a period off a tick count until less than a period is left, and
do something each time. Ticks can come in portions of any size: the residue and
the number of passes depend on their sum only.
-/

namespace Drain

variable {σ : Type}

/-- `while (ticks >= period) { s = body(s); ticks -= period; }`, at most `fuel` times. -/
def loop (period : Nat) (body : σ → σ) : Nat → Nat → σ → Nat × σ
  | 0, ticks, s => (ticks, s)
  | fuel + 1, ticks, s =>
    if ticks < period then (ticks, s) else loop period body fuel (ticks - period) (body s)

/-- Every pass takes at least one tick, so there is fuel enough for all of them. -/
def drain (period : Nat) (body : σ → σ) (ticks : Nat) (s : σ) : Nat × σ :=
  loop period body ticks ticks s

variable {period : Nat} {body : σ → σ}

theorem loop_eq (hp : 0 < period) {fuel ticks : Nat} (hf : ticks ≤ fuel) (s : σ) :
    loop period body fuel ticks s = (ticks % period, body^[ticks / period] s) := by
  induction fuel generalizing ticks s with
  | zero =>
    rw [Nat.le_zero.mp hf]
    simp [loop]
  | succ fuel ih =>
    rw [loop]
    by_cases h : ticks < period
    · rw [if_pos h, Nat.mod_eq_of_lt h, Nat.div_eq_of_lt h]
      rfl
    · have hle : period ≤ ticks := Nat.le_of_not_lt h
      rw [if_neg h, ih (by omega), ← Nat.mod_eq_sub_mod hle, Nat.div_eq_sub_div hp hle,
        Function.iterate_succ_apply]

theorem drain_eq (hp : 0 < period) (ticks : Nat) (s : σ) :
    drain period body ticks s = (ticks % period, body^[ticks / period] s) :=
  loop_eq hp (Nat.le_refl ticks) s

/-! ## Portions -/

theorem mod_portion (a b n : Nat) : ((a + b) % period + n) % period = (a + (b + n)) % period := by
  rw [Nat.mod_add_mod, Nat.add_assoc]

theorem div_portion (hp : 0 < period) (a b n : Nat) :
    (a + b) / period + ((a + b) % period + n) / period = (a + (b + n)) / period := by
  have hsplit : a + (b + n) = (a + b) % period + n + period * ((a + b) / period) := by
    have := Nat.mod_add_div (a + b) period
    omega
  rw [hsplit, Nat.add_mul_div_left _ _ hp, Nat.add_comm]

/-! ## Scaled loops -/

theorem iterate_related {τ : Type} {R : σ → τ → Prop} {f : σ → σ} {g : τ → τ}
    (hstep : ∀ s t, R s t → R (f s) (g t)) {s : σ} {t : τ} (h : R s t) (n : Nat) :
    R (f^[n] s) (g^[n] t) := by
  induction n generalizing s t with
  | zero => exact h
  | succ n ih => exact ih (hstep s t h)

/-- A loop with period and ticks in another unit makes the same passes. -/
theorem drain_scaled {τ : Type} {R : σ → τ → Prop} {body' : τ → τ}
    (hstep : ∀ s t, R s t → R (body s) (body' t)) {s : σ} {t : τ} (h : R s t) (hp : 0 < period)
    (unit : Nat) (hu : 0 < unit) (ticks : Nat) :
    (drain (unit * period) body (unit * ticks) s).1 = unit * (drain period body' ticks t).1 ∧
      R (drain (unit * period) body (unit * ticks) s).2 (drain period body' ticks t).2 := by
  rw [drain_eq (Nat.mul_pos hu hp), drain_eq hp, Nat.mul_mod_mul_left, Nat.mul_div_mul_left _ _ hu]
  exact ⟨rfl, iterate_related hstep h _⟩

end Drain
