import Mathlib.Data.List.Basic

/-!
Messages one behind the other in a stream, each of which shows its own end. A reader takes
the message at the front; of a stream that has come in part it takes the messages that are
whole, and keeps the rest.
-/

namespace Codec

variable {α β μ : Type} (read : List β → Option (μ × List β))

/-- At most so many messages, and what is left behind them. -/
def drain : Nat → List β → List μ × List β
  | 0, stream => ([], stream)
  | n + 1, stream =>
    match read stream with
    | none => ([], stream)
    | some (m, rest) => (m :: (drain n rest).1, (drain n rest).2)

/-- What is read from the front of a stream does not depend on what follows it, and is the
message that was encoded. -/
structure Delimits (encode : α → List β) (message : α → μ) (good : α → Prop) : Prop where
  empty : read [] = none
  whole : ∀ a, good a → read (encode a) = some (message a, [])
  stable : ∀ stream m rest, read stream = some (m, rest) →
    ∀ more, read (stream ++ more) = some (m, rest ++ more)

variable {read} {encode : α → List β} {message : α → μ} {good : α → Prop}

theorem drain_of_none {stream : List β} (h : read stream = none) (n : Nat) :
    drain read n stream = ([], stream) := by
  cases n with
  | zero => rfl
  | succ n => rw [drain, h]

theorem Delimits.ne_nil (h : Delimits read encode message good) {a : α} (ha : good a) :
    encode a ≠ [] := by
  intro hnil
  have hread := h.whole a ha
  rw [hnil, h.empty] at hread
  cases hread

theorem Delimits.front (h : Delimits read encode message good) {a : α} (ha : good a)
    (rest : List β) : read (encode a ++ rest) = some (message a, rest) :=
  h.stable _ _ _ (h.whole a ha) rest

/-- A message is not read before its last element is there. -/
theorem Delimits.part (h : Delimits read encode message good) {a : α} (ha : good a)
    {front back : List β} (hencode : encode a = front ++ back) (hback : back ≠ []) :
    read front = none := by
  cases hread : read front with
  | none => rfl
  | some taken =>
    have hmore := h.stable front taken.1 taken.2 hread back
    rw [← hencode, h.whole a ha, Option.some.injEq, Prod.mk.injEq] at hmore
    exact absurd (List.append_eq_nil_iff.mp hmore.2.symm).2 hback

/-- However much of a stream has come, the messages that are whole are taken, in order. -/
theorem Delimits.drain_eq (h : Delimits read encode message good) {sent : List α}
    (hsent : ∀ a ∈ sent, good a) {front back : List β}
    (hstream : front ++ back = sent.flatMap encode) {n : Nat} (hn : front.length ≤ n) :
    ∃ taken later left, sent = taken ++ later ∧
      drain read n front = (taken.map message, left) ∧ left ++ back = later.flatMap encode := by
  induction sent generalizing front n with
  | nil =>
    obtain rfl : front = [] := (List.append_eq_nil_iff.mp hstream).1
    exact ⟨[], [], [], rfl, drain_of_none h.empty n, hstream⟩
  | cons a sent ih =>
    have ha := hsent a List.mem_cons_self
    have hrest := fun a' ha' => hsent a' (List.mem_cons_of_mem a ha')
    rw [List.flatMap_cons] at hstream
    have hcut : (∃ back', encode a = front ++ back' ∧ back' ≠ []) ∨
        ∃ front', front = encode a ++ front' ∧ front' ++ back = sent.flatMap encode := by
      rcases List.append_eq_append_iff.mp hstream with ⟨tail, htail, hback⟩ | ⟨more, hfront, hmore⟩
      · by_cases hnil : tail = []
        · subst hnil
          exact .inr ⟨[], by rw [htail, List.append_nil, List.append_nil], hback⟩
        · exact .inl ⟨tail, htail, hnil⟩
      · exact .inr ⟨more, hfront, hmore.symm⟩
    rcases hcut with ⟨back', hencode, hback'⟩ | ⟨front', rfl, hfront'⟩
    · have hnone := h.part ha hencode hback'
      exact ⟨[], a :: sent, front, rfl, drain_of_none hnone n, hstream⟩
    · have hpos := List.length_pos_of_ne_nil (h.ne_nil ha)
      rw [List.length_append] at hn
      obtain ⟨k, rfl⟩ : ∃ k, n = k + 1 := ⟨n - 1, by omega⟩
      obtain ⟨taken, later, left, rfl, hdrain, hleft⟩ := ih hrest hfront' (n := k) (by omega)
      refine ⟨a :: taken, later, left, rfl, ?_, hleft⟩
      rw [drain, h.front ha]
      simp only [hdrain, List.map_cons]

end Codec
