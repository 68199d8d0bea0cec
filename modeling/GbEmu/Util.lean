import Mathlib.Data.List.DropRight
import GbEmu.Lib.Text

/-!
The string helpers of `util.cpp`. A `std::string` is a list of bytes, and the
separator of `split` and `join` is one byte.
-/

namespace GbEmu.Util

open Text

/-- `std::isspace` in the C locale. -/
def isSpace (c : UInt8) : Bool := c == 0x20 || (0x09 ≤ c && c ≤ 0x0D)

def trim (str : List UInt8) : List UInt8 := (str.dropWhile isSpace).rdropWhile isSpace

/-- The loop of `split`, over what lies between the separators: a token is kept unless
it is empty, and what is left at the end is kept in any case. -/
def takeTokens : List (List UInt8) → List (List UInt8)
  | [] => []
  | [s] => [s]
  | token :: rest => if token.isEmpty then takeTokens rest else token :: takeTokens rest

def split (str : List UInt8) (sep : UInt8) : List (List UInt8) :=
  takeTokens ((trim str).splitOn sep)

def join (pieces : List (List UInt8)) (sep : UInt8) : List UInt8 :=
  pieces.foldl (fun output str => (if output.isEmpty then output else output ++ [sep]) ++ str) []

/-! ## Tokens -/

theorem takeTokens_cons {s : List UInt8} {rest : List (List UInt8)} (h : rest ≠ []) :
    takeTokens (s :: rest) = if s.isEmpty then takeTokens rest else s :: takeTokens rest := by
  obtain ⟨t, rest, rfl⟩ := List.exists_cons_of_ne_nil h
  rfl

theorem takeTokens_ne_nil {pieces : List (List UInt8)} (h : pieces ≠ []) :
    takeTokens pieces ≠ [] := by
  induction pieces with
  | nil => exact absurd rfl h
  | cons s rest ih =>
    by_cases hr : rest = []
    · subst hr
      exact List.cons_ne_nil s []
    · rw [takeTokens_cons hr]
      split_ifs
      · exact ih hr
      · exact List.cons_ne_nil s _

/-- Tokens are nonempty, but for the last. -/
theorem takeTokens_nonempty (pieces : List (List UInt8)) :
    ∀ token ∈ (takeTokens pieces).dropLast, token ≠ [] := by
  induction pieces with
  | nil => exact fun _ h => absurd h List.not_mem_nil
  | cons s rest ih =>
    by_cases hr : rest = []
    · subst hr
      exact fun _ h => absurd h List.not_mem_nil
    · rw [takeTokens_cons hr]
      split_ifs with hs
      · exact ih
      · rw [List.dropLast_cons_of_ne_nil (takeTokens_ne_nil hr)]
        rintro token htoken
        rcases List.mem_cons.mp htoken with rfl | htoken
        · simpa using hs
        · exact ih token htoken

theorem mem_takeTokens {pieces : List (List UInt8)} {token : List UInt8}
    (h : token ∈ takeTokens pieces) : token ∈ pieces := by
  induction pieces with
  | nil => exact absurd h List.not_mem_nil
  | cons s rest ih =>
    by_cases hr : rest = []
    · subst hr
      exact h
    · rw [takeTokens_cons hr] at h
      split_ifs at h
      · exact List.mem_cons_of_mem s (ih h)
      · rcases List.mem_cons.mp h with rfl | h
        · exact List.mem_cons_self
        · exact List.mem_cons_of_mem s (ih h)

theorem getLast?_takeTokens (pieces : List (List UInt8)) :
    (takeTokens pieces).getLast? = pieces.getLast? := by
  induction pieces with
  | nil => rfl
  | cons s rest ih =>
    by_cases hr : rest = []
    · subst hr
      rfl
    · rw [takeTokens_cons hr, List.getLast?_cons_of_ne_nil hr, ← ih]
      split_ifs
      · rfl
      · exact List.getLast?_cons_of_ne_nil (takeTokens_ne_nil hr)

theorem takeTokens_eq_self {pieces : List (List UInt8)}
    (h : ∀ s ∈ pieces.dropLast, s ≠ []) : takeTokens pieces = pieces := by
  induction pieces with
  | nil => rfl
  | cons s rest ih =>
    by_cases hr : rest = []
    · subst hr
      rfl
    · rw [List.dropLast_cons_of_ne_nil hr] at h
      have hs : s ≠ [] := h s List.mem_cons_self
      rw [takeTokens_cons hr, if_neg (by simpa using hs),
        ih fun t ht => h t (List.mem_cons_of_mem s ht)]

/-! ## Tokens put together -/

theorem join_eq_intercalate {pieces : List (List UInt8)} (sep : UInt8)
    (h : ∀ s ∈ pieces.dropLast, s ≠ []) : join pieces sep = [sep].intercalate pieces := by
  -- once the output is nonempty, every piece comes with a separator
  have hrest : ∀ (rest : List (List UInt8)) (output : List UInt8), output ≠ [] →
      rest.foldl (fun output str => (if output.isEmpty then output else output ++ [sep]) ++ str)
        output = output ++ (rest.map (sep :: ·)).flatten := by
    intro rest
    induction rest with
    | nil => simp
    | cons s rest ih =>
      intro output hout
      rw [List.foldl_cons, if_neg (by simpa using hout), ih _ (by simp)]
      simp
  cases pieces with
  | nil => rfl
  | cons s rest =>
    rw [intercalate_cons, join, List.foldl_cons, List.isEmpty_nil, if_pos rfl, List.nil_append]
    by_cases hr : rest = []
    · subst hr
      simp
    · rw [List.dropLast_cons_of_ne_nil hr] at h
      exact hrest rest s (h s List.mem_cons_self)

/-- A text without empty pieces in front of its last comes back whole. -/
theorem join_takeTokens {v : List UInt8} {sep : UInt8} (h : Tight sep v) :
    join (takeTokens (v.splitOn sep)) sep = v := by
  rw [takeTokens_eq_self h, join_eq_intercalate sep h, List.intercalate_splitOn]

/-! ## Trimmed text -/

theorem isSpace_of_isDigit {c : UInt8} (h : isDigit c = true) : isSpace c = false := by
  simp only [isDigit, Bool.and_eq_true, decide_eq_true_eq, UInt8.le_iff_toNat_le] at h
  have hlow : 48 ≤ c.toNat := h.1
  have hblank : c ≠ 0x20 := by
    rintro rfl
    exact absurd hlow (by decide)
  simp [isSpace, hblank, UInt8.le_iff_toNat_le]
  omega

/-- A number has no blanks in front of it. -/
theorem dropWhile_signedDecimal (v : Int) :
    (signedDecimal v).dropWhile isSpace = signedDecimal v := by
  cases hv : signedDecimal v with
  | nil => rfl
  | cons c s =>
    have hspace : isSpace c = false := by
      rcases signedDecimal_chars (hv ▸ List.mem_cons_self) with rfl | hc
      · decide
      · exact isSpace_of_isDigit hc
    exact List.dropWhile_cons_of_neg (by rw [hspace]; decide)

theorem trim_eq_self {s : List UInt8} (hfirst : ∀ c, s.head? = some c → isSpace c = false)
    (hlast : ∀ c, s.getLast? = some c → isSpace c = false) : trim s = s := by
  have hfront : s.dropWhile isSpace = s := by
    cases s with
    | nil => rfl
    | cons c s => exact List.dropWhile_cons_of_neg (by rw [hfirst c rfl]; decide)
  rw [trim, hfront, List.rdropWhile_eq_self_iff]
  intro hne
  rw [hlast _ (List.getLast?_eq_some_getLast hne)]
  decide

theorem isSpace_getLast?_trim {str : List UInt8} {c : UInt8} (h : (trim str).getLast? = some c) :
    isSpace c = false := by
  have hne : trim str ≠ [] := by
    intro he
    rw [he] at h
    cases h
  have hlast := List.rdropWhile_last_not isSpace (str.dropWhile isSpace) hne
  rw [List.getLast?_eq_some_getLast hne, Option.some.injEq] at h
  rw [← h]
  exact Bool.not_eq_true _ ▸ hlast

theorem mem_of_mem_trim {str : List UInt8} {x : UInt8} (h : x ∈ trim str) : x ∈ str := by
  have hfront : x ∈ str.dropWhile isSpace :=
    List.mem_reverse.mp ((List.dropWhile_sublist _).subset (List.mem_reverse.mp h))
  exact (List.dropWhile_sublist _).subset hfront

/-! ## Fields put together -/

/-- What comes out of `split` and `join` has no empty piece in front of its last and no
white space at its end, and nothing but what went in. -/
theorem join_drop_split (str : List UInt8) {sep : UInt8} {n : Nat}
    (hn : n < (split str sep).length) :
    Tight sep (join ((split str sep).drop n) sep) ∧
      (∀ c, (join ((split str sep).drop n) sep).getLast? = some c → c = sep ∨ isSpace c = false) ∧
      ∀ x ∈ join ((split str sep).drop n) sep, x = sep ∨ x ∈ str := by
  have hpieces : (trim str).splitOn sep ≠ [] := List.splitOn_ne_nil sep _
  have hnonempty : ∀ s ∈ ((split str sep).drop n).dropLast, s ≠ [] :=
    fun s hs => takeTokens_nonempty _ s (mem_dropLast_of_drop hs)
  have hsep : ∀ s ∈ (split str sep).drop n, sep ∉ s := fun s hs =>
    not_mem_of_mem_splitOn (mem_takeTokens (List.mem_of_mem_drop hs))
  have hlast : ((split str sep).drop n).getLast? = ((trim str).splitOn sep).getLast? := by
    rw [List.getLast?_drop, if_neg (Nat.not_le_of_lt hn), split, getLast?_takeTokens]
  have hne : (split str sep).drop n ≠ [] := by simpa using hn
  rw [join_eq_intercalate sep hnonempty]
  refine ⟨?_, ?_, ?_⟩
  · unfold Tight
    rw [List.splitOn_intercalate sep hsep hne]
    exact hnonempty
  · intro c hc
    obtain ⟨last, hlasts⟩ := Option.isSome_iff_exists.mp (List.getLast?_isSome.mpr hpieces)
    obtain ⟨hfull, hempty⟩ := getLast?_intercalate sep (hlast.trans hlasts)
    by_cases hl : last = []
    · exact .inl (hempty hl c hc)
    · have htrim := (getLast?_intercalate sep hlasts).1 hl
      rw [List.intercalate_splitOn, ← hfull hl] at htrim
      exact .inr (isSpace_getLast?_trim (htrim.trans hc))
  · intro x hx
    rcases mem_intercalate hx with rfl | ⟨piece, hp, hx⟩
    · exact .inl rfl
    · have hpiece := mem_takeTokens (List.mem_of_mem_drop hp)
      have hx := mem_intercalate_of_mem sep hpiece hx
      rw [List.intercalate_splitOn] at hx
      exact .inr (mem_of_mem_trim hx)

end GbEmu.Util
