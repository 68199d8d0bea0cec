import Mathlib.Data.List.Induction

/-!
Paths as lists of components, resolved lexically: a parent component takes back the name
before it, and one without a name before it leads above the start.
-/

namespace Path

variable {α : Type} [DecidableEq α] {parent : α}

/-- Where a path leads: some levels up from the start, and then down a list of names, the
last of them first. -/
structure Place (α : Type) where
  up : Nat
  names : List α
  deriving DecidableEq, Repr

/-- Where no path has led yet. -/
def here : Place α := { up := 0, names := [] }

def Place.go (parent : α) (place : Place α) (c : α) : Place α :=
  if c = parent then
    match place.names with
    | [] => { place with up := place.up + 1 }
    | _ :: names => { place with names := names }
  else { place with names := c :: place.names }

def resolve (parent : α) (cs : List α) : Place α := cs.foldl (Place.go parent) here

/-- In the directory `root`, or that directory itself. -/
def Place.Below (root : α) (place : Place α) : Prop :=
  place.up = 0 ∧ place.names.getLast? = some root

instance (root : α) (place : Place α) : Decidable (place.Below root) :=
  inferInstanceAs (Decidable (_ ∧ _))

/-! ## Levels -/

/-- One level down for a name, one up for a parent, but not above the start. -/
def climb (parent : α) (level : Nat) (c : α) : Option Nat :=
  if c = parent then (if level = 0 then none else some (level - 1)) else some (level + 1)

/-- The level below the start that a path ends on, if it never climbs above it. -/
def level (parent : α) (cs : List α) : Option Nat := cs.foldlM (climb parent) 0

theorem level_snoc (cs : List α) (c : α) :
    level parent (cs ++ [c]) = (level parent cs).bind fun n => climb parent n c := by
  unfold level
  rw [List.foldlM_append]
  cases cs.foldlM (climb parent) 0 <;> simp

theorem resolve_snoc (cs : List α) (c : α) :
    resolve parent (cs ++ [c]) = (resolve parent cs).go parent c := by
  simp [resolve]

/-- A path has a level as long as it does not lead above the start, and then as many names. -/
theorem level_eq (cs : List α) :
    level parent cs =
      if (resolve parent cs).up = 0 then some (resolve parent cs).names.length else none := by
  induction cs using List.reverseRecOn with
  | nil => rfl
  | append_singleton cs c ih =>
    rw [level_snoc, resolve_snoc, ih]
    unfold climb Place.go
    by_cases hc : c = parent
    · cases hnames : (resolve parent cs).names <;>
        by_cases hup : (resolve parent cs).up = 0 <;> simp [hc, hup]
    · by_cases hup : (resolve parent cs).up = 0 <;> simp [hc, hup]

/-- A path that has a level changes nothing of the place it starts from. -/
theorem foldl_go {rest : List α} {n : Nat} (h : level parent rest = some n) (place : Place α) :
    ∃ names, names.length = n ∧
      rest.foldl (Place.go parent) place = { place with names := names ++ place.names } := by
  induction rest using List.reverseRecOn generalizing n with
  | nil =>
    obtain rfl : 0 = n := Option.some.inj h
    exact ⟨[], rfl, rfl⟩
  | append_singleton rest c ih =>
    rw [level_snoc] at h
    obtain ⟨m, hm, hclimb⟩ := Option.bind_eq_some_iff.mp h
    obtain ⟨names, hlength, hplace⟩ := ih hm
    rw [List.foldl_append, hplace]
    unfold climb at hclimb
    by_cases hc : c = parent
    · rw [if_pos hc] at hclimb
      split_ifs at hclimb with hzero
      obtain rfl := Option.some.inj hclimb
      cases names with
      | nil => exact absurd hlength.symm hzero
      | cons name names => exact ⟨names, by rw [← hlength]; rfl, by simp [Place.go, hc]⟩
    · rw [if_neg hc] at hclimb
      obtain rfl := Option.some.inj hclimb
      exact ⟨c :: names, congrArg Nat.succ hlength, by simp [Place.go, hc]⟩

/-! ## Below a directory -/

/-- A path that comes to `root` on the level of its start, and does not leave it again. -/
def Enters (parent root : α) (cs : List α) : Prop :=
  ∃ before after, cs = before ++ root :: after ∧ level parent before = some 0 ∧
    (level parent after).isSome

/-- Behind a root on the first level stands what comes after it. -/
theorem resolve_append {root : α} {before after : List α} {n : Nat} (hroot : root ≠ parent)
    (hbefore : level parent before = some 0) (hafter : level parent after = some n) :
    ∃ names, names.length = n ∧
      resolve parent (before ++ root :: after) = { up := 0, names := names ++ [root] } := by
  rw [level_eq] at hbefore
  split_ifs at hbefore with hup
  have hnames : (resolve parent before).names = [] :=
    List.length_eq_zero_iff.mp (Option.some.inj hbefore)
  obtain ⟨names, hlength, hplace⟩ := foldl_go hafter ((resolve parent before).go parent root)
  refine ⟨names, hlength, ?_⟩
  unfold resolve at hplace hnames hup ⊢
  rw [List.foldl_append, List.foldl_cons, hplace]
  simp [Place.go, hroot, hnames, hup]

theorem below_of_enters {root : α} {cs : List α} (hroot : root ≠ parent)
    (h : Enters parent root cs) : (resolve parent cs).Below root := by
  obtain ⟨before, after, rfl, hbefore, hafter⟩ := h
  obtain ⟨n, hn⟩ := Option.isSome_iff_exists.mp hafter
  obtain ⟨names, -, hplace⟩ := resolve_append hroot hbefore hn
  rw [hplace]
  exact ⟨rfl, List.getLast?_concat ..⟩

/-- A component behind the root stays there, if there is a level for it to climb. -/
theorem enters_snoc {root : α} {cs : List α} {c : α} (hroot : root ≠ parent)
    (h : Enters parent root cs)
    (hclimb : ∀ n, level parent cs = some (n + 1) → (climb parent n c).isSome) :
    Enters parent root (cs ++ [c]) := by
  obtain ⟨before, after, rfl, hbefore, hafter⟩ := h
  obtain ⟨n, hn⟩ := Option.isSome_iff_exists.mp hafter
  obtain ⟨names, hlength, hplace⟩ := resolve_append hroot hbefore hn
  refine ⟨before, after ++ [c], by rw [List.append_assoc]; rfl, hbefore, ?_⟩
  rw [level_snoc, hn]
  refine hclimb n ?_
  rw [level_eq, hplace, if_pos rfl, List.length_append, hlength]
  rfl

theorem enters_of_below {root : α} {cs : List α} (hroot : root ≠ parent)
    (h : (resolve parent cs).Below root) : Enters parent root cs := by
  induction cs using List.reverseRecOn with
  | nil => cases h.2
  | append_singleton cs c ih =>
    rw [resolve_snoc] at h
    unfold Place.go at h
    by_cases hc : c = parent
    · rw [if_pos hc] at h
      cases hnames : (resolve parent cs).names with
      | nil =>
        rw [hnames] at h
        exact absurd h.1 (Nat.succ_ne_zero _)
      | cons name names =>
        rw [hnames] at h
        obtain ⟨hup, hlast⟩ := h
        have hne : names ≠ [] := by
          rintro rfl
          cases hlast
        have hbelow : (resolve parent cs).Below root := by
          refine ⟨hup, ?_⟩
          rw [hnames, List.getLast?_cons_of_ne_nil hne]
          exact hlast
        refine enters_snoc hroot (ih hbelow) fun n hn => ?_
        have hpos := List.length_pos_iff.mpr hne
        rw [level_eq, if_pos hup, hnames, List.length_cons, Option.some.injEq] at hn
        rw [climb, if_pos hc, if_neg (by omega)]
        rfl
    · rw [if_neg hc] at h
      obtain ⟨hup, hlast⟩ := h
      cases hnames : (resolve parent cs).names with
      | nil =>
        rw [hnames] at hlast
        obtain rfl : c = root := Option.some.inj hlast
        refine ⟨cs, [], rfl, ?_, rfl⟩
        rw [level_eq, if_pos hup, hnames]
        rfl
      | cons name names =>
        rw [hnames, List.getLast?_cons_of_ne_nil (List.cons_ne_nil name names)] at hlast
        refine enters_snoc hroot (ih ⟨hup, by rw [hnames]; exact hlast⟩) fun n _ => ?_
        rw [climb, if_neg hc]
        rfl

theorem below_iff {root : α} (hroot : root ≠ parent) (cs : List α) :
    (resolve parent cs).Below root ↔ Enters parent root cs :=
  ⟨enters_of_below hroot, below_of_enters hroot⟩

end Path
