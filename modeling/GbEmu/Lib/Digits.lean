import Mathlib.Data.Nat.Digits.Defs
import Mathlib.Tactic.LinearCombination

/-!
Arithmetic on numbers digit by digit, the least significant digit first. A machine
takes in the digits of two numbers in pairs, puts out one digit for each pair and
keeps what it carries over in its state.
-/

namespace Digits

variable {σ α : Type}

/-- The digits that the machine puts out, and its last state. -/
def chain (step : σ → α → α → σ) (digit : σ → α) : σ → List (α × α) → List α × σ
  | s, [] => ([], s)
  | s, (x, y) :: pairs =>
    let s := step s x y
    let (digits, last) := chain step digit s pairs
    (digit s :: digits, last)

/-- The number with these digits. -/
def value (base : Nat) (val : α → Nat) (digits : List α) : Nat :=
  Nat.ofDigits base (digits.map val)

theorem value_nil (base : Nat) (val : α → Nat) : value base val [] = 0 := rfl

theorem value_cons (base : Nat) (val : α → Nat) (d : α) (digits : List α) :
    value base val (d :: digits) = val d + base * value base val digits := rfl

section Chain

variable {step : σ → α → α → σ} {digit : σ → α} {base : Nat} {val : α → Nat} {carry : σ → Nat}
  {sign : Int}

theorem chain_cons (s : σ) (x y : α) (pairs : List (α × α)) :
    chain step digit s ((x, y) :: pairs) =
      (digit (step s x y) :: (chain step digit (step s x y) pairs).1,
        (chain step digit (step s x y) pairs).2) := rfl

theorem chain_valid {valid : α → Prop}
    (hstep : ∀ s x y, valid x → valid y → valid (digit (step s x y)))
    {xs ys : List α} (hx : ∀ x ∈ xs, valid x) (hy : ∀ y ∈ ys, valid y) (s : σ) :
    ∀ d ∈ (chain step digit s (xs.zip ys)).1, valid d := by
  induction xs generalizing ys s with
  | nil => exact fun d hd => absurd hd (List.not_mem_nil)
  | cons x xs ih =>
    cases ys with
    | nil => exact fun d hd => absurd hd (List.not_mem_nil)
    | cons y ys =>
      rw [List.forall_mem_cons] at hx hy
      rw [List.zip_cons_cons, chain_cons, List.forall_mem_cons]
      exact ⟨hstep s x y hx.1 hy.1, ih hx.2 hy.2 _⟩

/-- What holds of every digit with its carry holds of the whole numbers: `sign` is 1 for
a sum and -1 for a difference. -/
theorem chain_value (valid : α → Prop)
    (hstep : ∀ s x y, valid x → valid y →
      (val (digit (step s x y)) : Int) + sign * (base * carry (step s x y)) =
        val x + sign * (val y + carry s))
    {xs ys : List α} (hlength : xs.length = ys.length) (hx : ∀ x ∈ xs, valid x)
    (hy : ∀ y ∈ ys, valid y) (s : σ) :
    let r := chain step digit s (xs.zip ys)
    (value base val r.1 : Int) + sign * (carry r.2 * base ^ xs.length) =
      value base val xs + sign * (value base val ys + carry s) := by
  induction xs generalizing ys s with
  | nil =>
    obtain rfl : ys = [] := List.length_eq_zero_iff.mp hlength.symm
    simp [chain, value_nil]
  | cons x xs ih =>
    cases ys with
    | nil => cases hlength
    | cons y ys =>
      rw [List.forall_mem_cons] at hx hy
      have hdigit := hstep s x y hx.1 hy.1
      have hrest := ih (Nat.succ.inj hlength) hx.2 hy.2 (step s x y)
      simp only [List.zip_cons_cons, chain_cons, value_cons, List.length_cons, pow_succ,
        Nat.cast_add, Nat.cast_mul]
      linear_combination hdigit + base * hrest

end Chain

end Digits
