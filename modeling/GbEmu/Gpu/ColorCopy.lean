import Mathlib.Data.List.Basic
import GbEmu.Gpu

/-!
Copies of arrays of colours. The copy constructor exchanges green and blue, so a chain of
copies keeps the colours when it constructs an even number of times, or when there is
nothing to exchange.
-/

namespace GbEmu

namespace RGB

/-- The copy constructor. -/
def copy (other : RGB) : RGB := ⟨other.red, other.blue, other.green, other.alpha⟩

/-- `operator=`. -/
def assign (this other : RGB) : RGB :=
  { this with
    red := other.red
    green := other.green
    blue := other.blue
    alpha := other.alpha }

/-- `operator==`. -/
def equals (this other : RGB) : Bool :=
  this.red == other.red && this.green == other.green && this.blue == other.blue &&
    this.alpha == other.alpha

theorem equals_iff (this other : RGB) : this.equals other = true ↔ this = other := by
  cases this
  cases other
  simp [equals, and_assoc]

theorem assign_eq (this other : RGB) : this.assign other = other := rfl

theorem copy_involutive : Function.Involutive copy := fun _ => rfl

theorem copy_eq_self_iff (c : RGB) : c.copy = c ↔ c.green = c.blue := by
  cases c
  simp only [copy, mk.injEq, true_and, and_true]
  exact ⟨fun h => h.2, fun h => ⟨h.symm, h⟩⟩

end RGB

namespace Gpu

/-- One copy of an array: by constructing its elements, or by assigning them to those of an
array that is there. -/
inductive Copy
  | construct
  | assign (previous : Nat → RGB)

def Copy.apply (array : List RGB) : Copy → List RGB
  | construct => array.map RGB.copy
  | assign previous => array.mapIdx fun i c => (previous i).assign c

def Copy.isConstruct : Copy → Bool
  | construct => true
  | assign _ => false

/-- The last array of a chain of copies. -/
def copies (array : List RGB) (chain : List Copy) : List RGB := chain.foldl Copy.apply array

/-- Every element compares equal to the one it is a copy of. -/
def Equal (array other : List RGB) : Prop :=
  array.length = other.length ∧
    ∀ (i : Nat) c d, array[i]? = some c → other[i]? = some d → RGB.equals c d = true

theorem equal_iff (array other : List RGB) : Equal array other ↔ array = other := by
  constructor
  · rintro ⟨hlength, hequals⟩
    apply List.ext_getElem hlength
    intro i hi hi'
    apply (RGB.equals_iff _ _).mp
    exact hequals i _ _ (List.getElem?_eq_getElem hi) (List.getElem?_eq_getElem hi')
  · rintro rfl
    refine ⟨rfl, fun i c d hc hd => ?_⟩
    rw [RGB.equals_iff]
    exact Option.some.inj (hc.symm.trans hd)

theorem apply_assign (array : List RGB) (previous : Nat → RGB) :
    Copy.apply array (.assign previous) = array := by
  apply List.ext_getElem?
  intro i
  simp [Copy.apply, RGB.assign_eq]

theorem apply_construct_twice (array : List RGB) :
    Copy.apply (Copy.apply array .construct) .construct = array := by
  simp only [Copy.apply, List.map_map, RGB.copy_involutive.comp_self, List.map_id]

def constructions (chain : List Copy) : Nat := chain.countP Copy.isConstruct

/-- Two constructions take each other back, so a chain does what one or none would do. -/
theorem copies_eq (array : List RGB) (chain : List Copy) :
    copies array chain =
      if constructions chain % 2 = 0 then array else Copy.apply array .construct := by
  unfold copies constructions
  induction chain generalizing array with
  | nil => rfl
  | cons copy chain ih =>
    rw [List.foldl_cons, ih]
    cases copy with
    | construct =>
      rw [List.countP_cons_of_pos rfl, apply_construct_twice]
      rcases Nat.mod_two_eq_zero_or_one (chain.countP Copy.isConstruct) with heven | hodd
      · rw [if_pos heven, if_neg (by omega)]
      · rw [if_neg (by omega), if_pos (by omega)]
    | assign previous => rw [apply_assign, List.countP_cons_of_neg Bool.false_ne_true]

/-- A chain of copies keeps every colour exactly if it constructs an even number of times,
or if no colour has anything to exchange. -/
theorem copies_equal_iff (array : List RGB) (chain : List Copy) :
    Equal (copies array chain) array ↔
      constructions chain % 2 = 0 ∨ ∀ c ∈ array, c.green = c.blue := by
  rw [equal_iff, copies_eq]
  by_cases heven : constructions chain % 2 = 0
  · rw [if_pos heven]
    exact iff_of_true rfl (.inl heven)
  · have hid : array.map RGB.copy = array ↔ array.map RGB.copy = array.map id := by
      rw [List.map_id]
    rw [if_neg heven, or_iff_right heven, Copy.apply, hid, List.map_inj_left]
    simp only [RGB.copy_eq_self_iff, id_eq]

/-- A green pixel comes out blue. -/
theorem green_copied_blue :
    ¬ Equal (copies [⟨0x00, 0xFF, 0x00, 0xFF⟩] [.construct]) [⟨0x00, 0xFF, 0x00, 0xFF⟩] := by
  rw [equal_iff]
  decide

end Gpu

end GbEmu
