import Mathlib.Logic.Function.Basic

/-!
Painting in layers. A layer colours some places and leaves the others alone; after
painting several layers one over the other, each place shows the last layer that
covers it. When the layers are sorted, that is the greatest one.
-/

namespace Painter

variable {ι α β : Type}

abbrev Layer (ι α : Type) := ι → Option α

def paint (canvas : ι → α) (layer : Layer ι α) : ι → α := fun p => (layer p).getD (canvas p)

/-- A single place. -/
def dot [DecidableEq ι] (p : ι) (c : α) : Layer ι α := fun q => if q = p then some c else none

theorem dot_self [DecidableEq ι] (p : ι) (c : α) : dot p c p = some c := if_pos rfl

theorem dot_of_ne [DecidableEq ι] {p q : ι} (h : q ≠ p) (c : α) : dot p c q = none := if_neg h

/-- Several layers as one, the last one on top. -/
def stack (layers : List (Layer ι α)) : Layer ι α :=
  fun p => layers.reverse.findSome? fun layer => layer p

theorem paint_some {canvas : ι → α} {layer : Layer ι α} {p : ι} {c : α} (h : layer p = some c) :
    paint canvas layer p = c := by
  rw [paint, h, Option.getD_some]

theorem paint_dot [DecidableEq ι] (canvas : ι → α) (p : ι) (c : α) :
    paint canvas (dot p c) = Function.update canvas p c := by
  funext q
  by_cases h : q = p
  · rw [h, Function.update_self, paint, dot_self, Option.getD_some]
  · rw [Function.update_of_ne h, paint, dot_of_ne h, Option.getD_none]

theorem paint_none (canvas : ι → α) : paint canvas (fun _ => none) = canvas := rfl

theorem stack_cons (a : Layer ι α) (layers : List (Layer ι α)) (p : ι) :
    stack (a :: layers) p = (stack layers p).or (a p) := by
  rw [stack, List.reverse_cons, List.findSome?_append]
  congr 1
  cases h : a p <;> simp [h]

theorem foldl_paint (canvas : ι → α) (layers : List (Layer ι α)) :
    layers.foldl paint canvas = paint canvas (stack layers) := by
  induction layers generalizing canvas with
  | nil => rfl
  | cons a layers ih =>
    rw [List.foldl_cons, ih]
    funext p
    simp only [paint, stack_cons]
    cases stack layers p with
    | none => rfl
    | some c => rfl

theorem stack_uncovered {layers : List (Layer ι α)} {p : ι} (h : ∀ a ∈ layers, a p = none) :
    stack layers p = none := by
  rw [stack, List.findSome?_eq_none_iff]
  intro a ha
  exact h a (List.mem_reverse.mp ha)

section Sorted

variable {l : List β} {f : β → Layer ι α} {r : β → β → Prop} {p : ι}

/-- A layer that all others covering the place come before. -/
theorem stack_top (hr : ∀ a b, r a b → ¬ r b a) (hl : l.Pairwise r) {b : β} (hb : b ∈ l)
    (hcover : f b p ≠ none) (htop : ∀ a ∈ l, a ≠ b → f a p ≠ none → r a b) :
    stack (l.map f) p = f b p := by
  induction l with
  | nil => cases hb
  | cons a l ih =>
    rw [List.pairwise_cons] at hl
    rw [List.map_cons, stack_cons]
    by_cases hmem : b ∈ l
    · rw [ih hl.2 hmem fun k hk => htop k (List.mem_cons_of_mem a hk)]
      cases hc : f b p with
      | none => exact absurd hc hcover
      | some c => rfl
    · obtain rfl : b = a := (List.mem_cons.mp hb).resolve_right hmem
      rw [stack_uncovered, Option.none_or]
      intro layer hlayer
      obtain ⟨k, hk, rfl⟩ := List.mem_map.mp hlayer
      by_contra hne
      have hafter := hl.1 k hk
      exact hr b k hafter
        (htop k (List.mem_cons_of_mem b hk) (fun h => hmem (h ▸ hk)) hne)

/-- If any layer covers the place, there is such a layer. -/
theorem exists_top (hl : l.Pairwise r) {a : β} (ha : a ∈ l) (hcover : f a p ≠ none) :
    ∃ b ∈ l, f b p ≠ none ∧ ∀ k ∈ l, k ≠ b → f k p ≠ none → r k b := by
  induction l generalizing a with
  | nil => cases ha
  | cons c l ih =>
    rw [List.pairwise_cons] at hl
    by_cases h : ∃ k ∈ l, f k p ≠ none
    · obtain ⟨k, hk, hkcover⟩ := h
      obtain ⟨b, hb, hbcover, htop⟩ := ih hl.2 hk hkcover
      refine ⟨b, List.mem_cons_of_mem c hb, hbcover, fun k' hk' hne hcover' => ?_⟩
      rcases List.mem_cons.mp hk' with rfl | hmem
      · exact hl.1 b hb
      · exact htop k' hmem hne hcover'
    · obtain rfl : a = c := (List.mem_cons.mp ha).resolve_right fun hmem => h ⟨a, hmem, hcover⟩
      refine ⟨a, List.mem_cons_self, hcover, fun k hk hne hkcover => ?_⟩
      exact absurd ⟨k, (List.mem_cons.mp hk).resolve_left hne, hkcover⟩ h

end Sorted

end Painter
