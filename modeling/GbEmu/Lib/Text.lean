import Mathlib.Data.List.Infix
import Mathlib.Data.List.TakeWhile

/-!
Text as a list of bytes: decimal numbers as they are written and read, and text that
is cut at a separator and put together again.
-/

namespace Text

/-- A string of ASCII characters. -/
def ascii (s : String) : List UInt8 := s.toList.map fun c => UInt8.ofNat c.toNat

/-! ## Numbers -/

def isDigit (b : UInt8) : Bool := 0x30 ≤ b && b ≤ 0x39

def decimal (n : Nat) : List UInt8 := (Nat.toDigits 10 n).map fun c => UInt8.ofNat c.toNat

def minus : UInt8 := 0x2D
def plus : UInt8 := 0x2B

def signedDecimal (v : Int) : List UInt8 :=
  if v < 0 then minus :: decimal v.natAbs else decimal v.natAbs

/-- The number that digits stand for. -/
def number (ds : List UInt8) : Nat := ds.foldl (fun n d => 10 * n + (d.toNat - 0x30)) 0

/-- A sign, if there is one. -/
def takeSign : List UInt8 → Bool × List UInt8
  | [] => (false, [])
  | b :: s => if b = minus then (true, s) else if b = plus then (false, s) else (false, b :: s)

/-- The number at the front of a text; whatever follows it is left unread. -/
def readSigned (s : List UInt8) : Option Int :=
  let (negative, s) := takeSign s
  match s.takeWhile isDigit with
  | [] => none
  | d :: ds => some (if negative then -(number (d :: ds) : Int) else number (d :: ds))

theorem toNat_isDigit {c : Char} (h : c.isDigit = true) :
    isDigit (UInt8.ofNat c.toNat) = true ∧ (UInt8.ofNat c.toNat).toNat = c.toNat := by
  have hc : 48 ≤ c.toNat ∧ c.toNat ≤ 57 := by
    simpa [Char.isDigit, UInt32.le_iff_toNat_le] using h
  have hsame : (UInt8.ofNat c.toNat).toNat = c.toNat :=
    UInt8.toNat_ofNat_of_lt' (Nat.lt_of_le_of_lt hc.2 (by decide))
  refine ⟨?_, hsame⟩
  simp only [isDigit, Bool.and_eq_true, decide_eq_true_eq, UInt8.le_iff_toNat_le, hsame]
  exact hc

theorem isDigit_decimal {n : Nat} {b : UInt8} (h : b ∈ decimal n) : isDigit b = true := by
  obtain ⟨c, hc, rfl⟩ := List.mem_map.mp h
  exact (toNat_isDigit (Nat.isDigit_of_mem_toDigits (by decide) (by decide) hc)).1

theorem decimal_ne_nil (n : Nat) : decimal n ≠ [] := by
  unfold decimal
  rw [Ne, List.map_eq_nil_iff]
  exact Nat.toDigits_ne_nil

theorem number_decimal (n : Nat) : number (decimal n) = n := by
  have hdigits : ∀ (cs : List Char) (init : Nat), (∀ c ∈ cs, c.isDigit = true) →
      (cs.map fun c => UInt8.ofNat c.toNat).foldl (fun n d => 10 * n + (d.toNat - 0x30)) init =
        Nat.ofDigitChars 10 cs init := by
    intro cs
    induction cs with
    | nil => exact fun _ _ => rfl
    | cons c cs ih =>
      intro init hcs
      rw [List.map_cons, List.foldl_cons, ih _ fun d hd => hcs d (List.mem_cons_of_mem c hd),
        (toNat_isDigit (hcs c List.mem_cons_self)).2, Nat.ofDigitChars_cons]
      rfl
  unfold number decimal
  rw [hdigits _ _ fun c hc => Nat.isDigit_of_mem_toDigits (by decide) (by decide) hc]
  exact Nat.ofDigitChars_toDigits (by decide) (by decide)

theorem isDigit_sign {b : UInt8} (h : isDigit b = true) : b ≠ minus ∧ b ≠ plus := by
  constructor
  · rintro rfl
    exact absurd h (by decide)
  · rintro rfl
    exact absurd h (by decide)

theorem signedDecimal_chars {v : Int} {c : UInt8} (h : c ∈ signedDecimal v) :
    c = minus ∨ isDigit c = true := by
  unfold signedDecimal at h
  split_ifs at h
  · rcases List.mem_cons.mp h with rfl | h
    · exact .inl rfl
    · exact .inr (isDigit_decimal h)
  · exact .inr (isDigit_decimal h)

/-- What is written is read again, up to text that does not go on with a digit. -/
theorem readSigned_append (v : Int) (rest : List UInt8)
    (hrest : ∀ c, rest.head? = some c → isDigit c = false) :
    readSigned (signedDecimal v ++ rest) = some v := by
  have hall : (decimal v.natAbs ++ rest).takeWhile isDigit = decimal v.natAbs := by
    rw [List.takeWhile_append_of_pos fun _ => isDigit_decimal]
    cases rest with
    | nil => simp
    | cons c rest =>
      rw [List.takeWhile_cons_of_neg (by rw [hrest c rfl]; decide), List.append_nil]
  obtain ⟨d, ds, hds⟩ := List.exists_cons_of_ne_nil (decimal_ne_nil v.natAbs)
  have hnumber := number_decimal v.natAbs
  obtain ⟨hminus, hplus⟩ := isDigit_sign (isDigit_decimal (hds ▸ List.mem_cons_self))
  rw [hds, List.cons_append] at hall
  rw [hds] at hnumber
  unfold signedDecimal readSigned
  by_cases hv : v < 0
  · rw [if_pos hv, hds]
    simp only [List.cons_append, takeSign, if_true, hall, hnumber]
    rw [Option.some.injEq]
    omega
  · rw [if_neg hv, hds]
    simp only [List.cons_append, takeSign, if_neg hminus, if_neg hplus, hall, hnumber]
    rw [Option.some.injEq]
    simp only [Bool.false_eq_true, if_false]
    omega

/-- What is written is read again. -/
theorem readSigned_signedDecimal (v : Int) : readSigned (signedDecimal v) = some v := by
  have hread := readSigned_append v [] nofun
  rwa [List.append_nil] at hread

/-! ## Pieces -/

section Pieces

variable {α : Type} {sep : α}

theorem intercalate_cons (first : List α) (rest : List (List α)) :
    [sep].intercalate (first :: rest) = first ++ (rest.map (sep :: ·)).flatten := by
  induction rest generalizing first with
  | nil => simp [List.intercalate]
  | cons second rest ih =>
    have hjoin : [sep].intercalate (first :: second :: rest) =
        first ++ sep :: [sep].intercalate (second :: rest) := by
      simp [List.intercalate]
    rw [hjoin, ih]
    simp

theorem mem_intercalate {x : α} {pieces : List (List α)} (h : x ∈ [sep].intercalate pieces) :
    x = sep ∨ ∃ piece ∈ pieces, x ∈ piece := by
  cases pieces with
  | nil => exact absurd h (by simp [List.intercalate])
  | cons first rest =>
    rw [intercalate_cons, List.mem_append, List.mem_flatten] at h
    rcases h with h | ⟨piece, hp, hx⟩
    · exact .inr ⟨first, List.mem_cons_self, h⟩
    · obtain ⟨piece, hpiece, rfl⟩ := List.mem_map.mp hp
      rcases List.mem_cons.mp hx with rfl | hx
      · exact .inl rfl
      · exact .inr ⟨piece, List.mem_cons_of_mem first hpiece, hx⟩

theorem mem_intercalate_of_mem (sep : α) {x : α} {pieces : List (List α)} {piece : List α}
    (hp : piece ∈ pieces) (hx : x ∈ piece) : x ∈ [sep].intercalate pieces := by
  cases pieces with
  | nil => exact absurd hp List.not_mem_nil
  | cons first rest =>
    rw [intercalate_cons, List.mem_append, List.mem_flatten]
    rcases List.mem_cons.mp hp with rfl | hp
    · exact .inl hx
    · exact .inr ⟨sep :: piece, List.mem_map_of_mem hp, List.mem_cons_of_mem sep hx⟩

/-- Pieces put together end as the last of them does, or with a separator if that is
empty. -/
theorem getLast?_intercalate (sep : α) {pieces : List (List α)} {last : List α}
    (h : pieces.getLast? = some last) :
    (last ≠ [] → ([sep].intercalate pieces).getLast? = last.getLast?) ∧
      (last = [] → ∀ c, ([sep].intercalate pieces).getLast? = some c → c = sep) := by
  induction pieces with
  | nil => cases h
  | cons first rest ih =>
    by_cases hr : rest = []
    · subst hr
      obtain rfl : first = last := by simpa using h
      refine ⟨fun _ => by simp [List.intercalate], fun he c hc => ?_⟩
      subst he
      simp [List.intercalate] at hc
    · rw [List.getLast?_cons_of_ne_nil hr] at h
      obtain ⟨ihne, ihnil⟩ := ih h
      obtain ⟨second, rest, rfl⟩ := List.exists_cons_of_ne_nil hr
      have hjoin : [sep].intercalate (first :: second :: rest) =
          (first ++ [sep]) ++ [sep].intercalate (second :: rest) := by
        simp [List.intercalate]
      rw [hjoin, List.getLast?_append]
      constructor
      · intro hlast
        obtain ⟨c, hc⟩ := List.getLast?_isSome.mpr hlast |> Option.isSome_iff_exists.mp
        rw [ihne hlast, hc]
        rfl
      · intro hlast c hc
        cases hrest : ([sep].intercalate (second :: rest)).getLast? with
        | none =>
          rw [hrest] at hc
          simpa using hc.symm
        | some d =>
          rw [hrest] at hc
          obtain rfl : d = c := by simpa using hc
          exact ihnil hlast d hrest

theorem mem_dropLast_of_drop {x : α} {l : List α} {n : Nat} (h : x ∈ (l.drop n).dropLast) :
    x ∈ l.dropLast := by
  induction n generalizing l with
  | zero => exact h
  | succ n ih =>
    cases l with
    | nil => exact h
    | cons a l =>
      have hx := ih h
      have hl : l ≠ [] := by
        rintro rfl
        exact absurd hx List.not_mem_nil
      rw [List.dropLast_cons_of_ne_nil hl]
      exact List.mem_cons_of_mem a hx

variable [DecidableEq α]

theorem not_mem_of_mem_splitOn {v : List α} {piece : List α} (h : piece ∈ v.splitOn sep) :
    sep ∉ piece := by
  induction v generalizing piece with
  | nil =>
    rw [List.splitOn_nil, List.mem_singleton] at h
    subst h
    exact List.not_mem_nil
  | cons x v ih =>
    rw [List.splitOn_cons_eq_if_modifyHead] at h
    obtain ⟨first, rest, hv⟩ := List.exists_cons_of_ne_nil (List.splitOn_ne_nil sep v)
    rw [hv] at h ih
    split_ifs at h with hx
    · rcases List.mem_cons.mp h with rfl | h
      · exact List.not_mem_nil
      · exact ih h
    · rw [List.modifyHead_cons] at h
      rcases List.mem_cons.mp h with rfl | h
      · have hfirst := ih List.mem_cons_self
        simp only [List.mem_cons, not_or]
        exact ⟨fun e => hx (beq_iff_eq.mpr e.symm), hfirst⟩
      · exact ih (List.mem_cons_of_mem _ h)

/-- No piece but the last is empty. -/
def Tight (sep : α) (v : List α) : Prop := ∀ piece ∈ (v.splitOn sep).dropLast, piece ≠ []

/-- Pieces are empty where a separator stands at the front, or two stand together. -/
theorem tight_iff {v : List α} :
    Tight sep v ↔ v.head? ≠ some sep ∧ ¬ [sep, sep] <:+: v := by
  -- The first piece is as long as what stands in front of it, so the induction has to
  -- know of the other pieces alone as well.
  suffices h : (Tight sep v ↔ v.head? ≠ some sep ∧ ¬ [sep, sep] <:+: v) ∧
      ((∀ piece ∈ (v.splitOn sep).tail.dropLast, piece ≠ []) ↔ ¬ [sep, sep] <:+: v) from h.1
  unfold Tight
  induction v with
  | nil => simp
  | cons x v ih =>
    obtain ⟨first, rest, hv⟩ := List.exists_cons_of_ne_nil (List.splitOn_ne_nil sep v)
    have hdouble : [sep, sep] <:+: x :: v ↔
        (x = sep ∧ v.head? = some sep) ∨ [sep, sep] <:+: v := by
      rw [List.infix_cons_iff, List.cons_prefix_cons]
      cases v with
      | nil => simp
      | cons y v =>
        rw [List.cons_prefix_cons, List.head?_cons, Option.some.injEq, eq_comm (a := x),
          eq_comm (a := y)]
        simp
    rw [hv] at ih
    rw [List.splitOn_cons_eq_if_modifyHead, hv, hdouble]
    by_cases hx : x = sep
    · subst hx
      have htail : (∀ piece ∈ (first :: rest).dropLast, piece ≠ []) ↔
          ¬ (v.head? = some x ∨ [x, x] <:+: v) := by
        rw [ih.1, not_or]
      simp [htail]
    · rw [if_neg (by simpa using hx), List.modifyHead_cons]
      have hfirst : (∀ piece ∈ ((x :: first) :: rest).dropLast, piece ≠ []) ↔
          ∀ piece ∈ rest.dropLast, piece ≠ [] := by
        cases rest with
        | nil => simp
        | cons second rest => simp [List.dropLast_cons_cons]
      have hrest := ih.2
      simp only [List.tail_cons] at hrest ⊢
      rw [hfirst, hrest]
      simp [hx]

end Pieces

end Text
