import GbEmu.Lib.Run
import Mathlib.Data.List.Basic

/-!
Messages in a stream that arrives in pieces. A step reads one element; it fails with the
message that the element completes.
-/

namespace Messages

section Receive

variable {σ β μ : Type} (step : σ → β → Except μ σ)

/-- The message at the front of a stream, and what follows it. -/
def next (s : σ) : List β → Option (μ × List β)
  | [] => none
  | b :: stream =>
    match step s b with
    | .error message => some (message, stream)
    | .ok s' => next s' stream

/-- The message at the front of the pieces, and the pieces that follow the one in which it
ends. What that one has beyond the message is lost. -/
def receive (s : σ) : List (List β) → Option (μ × List (List β))
  | [] => none
  | piece :: pieces =>
    match Run.run step s piece with
    | .error message => some (message, pieces)
    | .ok s' => receive s' pieces

variable {step} {s s' : σ} {message : μ} {piece : List β} {pieces rest : List (List β)}

theorem next_append_of_ok (h : Run.run step s piece = .ok s') (stream : List β) :
    next step s (piece ++ stream) = next step s' stream := by
  induction piece generalizing s with
  | nil => exact congrArg (next step · stream) (Except.ok.inj h)
  | cons b piece ih =>
    obtain ⟨t, ht, hrest⟩ := Run.run_cons_ok.mp h
    rw [List.cons_append, next, ht]
    exact ih hrest

theorem next_append_of_error (h : Run.run step s piece = .error message) :
    ∃ left, left.length < piece.length ∧
      ∀ stream, next step s (piece ++ stream) = some (message, left ++ stream) := by
  induction piece generalizing s with
  | nil => cases h
  | cons b piece ih =>
    rw [Run.run_cons] at h
    cases ht : step s b with
    | error m =>
      rw [ht] at h
      obtain rfl := Except.error.inj h
      exact ⟨piece, Nat.lt_succ_self _, fun stream => by rw [List.cons_append, next, ht]⟩
    | ok t =>
      rw [ht] at h
      obtain ⟨left, hleft, hnext⟩ := ih h
      refine ⟨left, Nat.lt_succ_of_lt hleft, fun stream => ?_⟩
      rw [List.cons_append, next, ht]
      exact hnext stream

theorem receive_length (h : receive step s pieces = some (message, rest)) :
    rest.length < pieces.length := by
  induction pieces generalizing s with
  | nil => cases h
  | cons piece pieces ih =>
    rw [receive] at h
    cases hrun : Run.run step s piece with
    | error m =>
      rw [hrun] at h
      obtain ⟨-, rfl⟩ := Prod.mk.inj (Option.some.inj h)
      exact Nat.lt_succ_self _
    | ok t =>
      rw [hrun] at h
      exact Nat.lt_succ_of_lt (ih h)

/-- Without a message in the stream none is received. -/
theorem receive_none (h : next step s pieces.flatten = none) :
    receive step s pieces = none := by
  induction pieces generalizing s with
  | nil => rfl
  | cons piece pieces ih =>
    rw [List.flatten_cons] at h
    cases hrun : Run.run step s piece with
    | error m =>
      obtain ⟨left, -, hnext⟩ := next_append_of_error hrun
      rw [hnext] at h
      cases h
    | ok t =>
      rw [next_append_of_ok hrun] at h
      rw [receive, hrun]
      exact ih h

/-- The first message of the stream is received however the stream is cut; what is lost of
the rest is shorter than a piece. -/
theorem receive_some {after : List β} (h : next step s pieces.flatten = some (message, after)) :
    ∃ rest n, receive step s pieces = some (message, rest) ∧ rest.flatten = after.drop n ∧
      (∃ piece ∈ pieces, n < piece.length) ∧ ∀ piece ∈ rest, piece ∈ pieces := by
  induction pieces generalizing s with
  | nil => cases h
  | cons piece pieces ih =>
    rw [List.flatten_cons] at h
    cases hrun : Run.run step s piece with
    | error m =>
      obtain ⟨left, hleft, hnext⟩ := next_append_of_error hrun
      rw [hnext, Option.some.injEq, Prod.mk.injEq] at h
      obtain ⟨rfl, rfl⟩ := h
      refine ⟨pieces, left.length, by rw [receive, hrun], ?_, ?_, ?_⟩
      · exact (List.drop_left).symm
      · exact ⟨piece, List.mem_cons_self, hleft⟩
      · exact fun _ => List.mem_cons_of_mem piece
    | ok t =>
      rw [next_append_of_ok hrun] at h
      obtain ⟨rest, n, hreceive, hflatten, ⟨p, hp, hn⟩, hmem⟩ := ih h
      refine ⟨rest, n, ?_, hflatten, ⟨p, List.mem_cons_of_mem piece hp, hn⟩, ?_⟩
      · rw [receive, hrun]
        exact hreceive
      · exact fun q hq => List.mem_cons_of_mem piece (hmem q hq)

/-- Whatever part of the rest is to be lost, a way to cut the stream loses it. -/
theorem exists_pieces {stream after : List β} (h : next step s stream = some (message, after))
    (n : Nat) (hrest : rest.flatten = after.drop n) :
    ∃ pieces, pieces.flatten = stream ∧ receive step s pieces = some (message, rest) ∧
      ∀ piece ∈ pieces, piece ∈ rest ∨ piece ≠ [] ∧ piece.length ≤ n + 1 := by
  induction stream generalizing s with
  | nil => cases h
  | cons b stream ih =>
    rw [next] at h
    cases ht : step s b with
    | error m =>
      rw [ht, Option.some.injEq, Prod.mk.injEq] at h
      obtain ⟨rfl, rfl⟩ := h
      refine ⟨(b :: stream.take n) :: rest, ?_, ?_, fun piece hpiece => ?_⟩
      · rw [List.flatten_cons, hrest, List.cons_append, List.take_append_drop]
      · rw [receive, Run.run_cons, ht]
        rfl
      · rcases List.mem_cons.mp hpiece with rfl | hpiece
        · refine .inr ⟨List.cons_ne_nil _ _, ?_⟩
          rw [List.length_cons, List.length_take]
          omega
        · exact .inl hpiece
    | ok t =>
      rw [ht] at h
      obtain ⟨pieces, hflatten, hreceive, hmem⟩ := ih h
      refine ⟨[b] :: pieces, ?_, ?_, fun piece hpiece => ?_⟩
      · rw [List.flatten_cons, hflatten]
        rfl
      · rw [receive, Run.run_cons, ht]
        exact hreceive
      · rcases List.mem_cons.mp hpiece with rfl | hpiece
        · exact .inr ⟨List.cons_ne_nil _ _, Nat.le_add_left 1 n⟩
        · exact hmem piece hpiece

end Receive

end Messages
