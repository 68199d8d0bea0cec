import GbEmu.Configuration.Parse

/-!
Lines of a settings file that say nothing a setting can take. The reader ignores most
of them; a key that is no number stops it, a key that is a known number only modulo 256
or in front of other text is taken for it, and a type other than the setting's replaces
the setting all the same.
-/

namespace GbEmu.Configuration

open Text Util

def keyField (line : List UInt8) : List UInt8 := (split line colon).getD 0 []
def typeField (line : List UInt8) : List UInt8 := (split line colon).getD 1 []

def knownTypes : List (List UInt8) := [Setting.typeInt, Setting.typeString, Setting.typeBool]

/-- A line that is to leave every setting as it is. -/
def Ignorable (settings : Configuration) (line : List UInt8) : Prop :=
  Skipped line ∨ (∀ k : ConfigKey, keyField line ≠ decimal k.toByte.toNat) ∨
    typeField line ∉ knownTypes ∨
    ∃ k : ConfigKey, keyField line = decimal k.toByte.toNat ∧ typeField line ≠ (settings k).type

/-- What a line may do: nothing if it is to be ignored, otherwise replace the setting of
its key by one of the same type. -/
structure Obeyed (settings : Configuration) (line : List UInt8) (after : Configuration) :
    Prop where
  ignored : Ignorable settings line → after = settings
  entered : ¬ Ignorable settings line → ∃ k : ConfigKey, keyField line = decimal k.toByte.toNat ∧
    (∀ k', k' ≠ k → after k' = settings k') ∧ (after k).type = (settings k).type

/-- A line that the reader treats as it should: it is skipped; or its key can be read as a
number, and this is no key, or the type is unknown, or both are the setting's own as the
writer writes them, or the setting is there already. -/
def Good (junk : Int32) (settings : Configuration) (line : List UInt8) : Prop :=
  Skipped line ∨ ∃ n, stoi (keyField line) = .ok n ∧
    (ConfigKey.find (UInt8.ofInt n) = none ∨ typeField line ∉ knownTypes ∨
      ∃ k, ConfigKey.find (UInt8.ofInt n) = some k ∧
        (keyField line = decimal k.toByte.toNat ∧ typeField line = (settings k).type ∨
          Setting.read junk (typeField line) (valueField (split line colon)) =
            some (settings k)))

section Rule

variable {junk : Int32} {settings after : Configuration} {line : List UInt8}

theorem key_injective {k k' : ConfigKey} (h : decimal k.toByte.toNat = decimal k'.toByte.toNat) :
    k = k' := by
  have hnumber : k.toByte.toNat = k'.toByte.toNat := by
    rw [← number_decimal k.toByte.toNat, h, number_decimal]
  cases k <;> cases k' <;> first | rfl | exact absurd hnumber (by decide)

theorem type_known (setting : Setting) : setting.type ∈ knownTypes := by
  cases setting <;> simp [knownTypes, Setting.type]

theorem read_known (junk : Int32) {type : List UInt8} (value : List UInt8)
    (h : type ∈ knownTypes) :
    ∃ setting, Setting.read junk type value = some setting ∧ setting.type = type := by
  simp only [knownTypes, List.mem_cons, List.not_mem_nil, or_false] at h
  rcases h with rfl | rfl | rfl
  · exact ⟨_, rfl, rfl⟩
  · exact ⟨_, rfl, rfl⟩
  · exact ⟨_, rfl, rfl⟩

theorem read_unknown {type value : List UInt8} (h : type ∉ knownTypes) :
    Setting.read junk type value = none := by
  simp only [knownTypes, List.mem_cons, List.not_mem_nil, or_false, not_or] at h
  obtain ⟨hint, hstring, hbool⟩ := h
  simp [Setting.read, hint, hstring, hbool]

theorem obeyed_self : Obeyed settings line settings := by
  refine ⟨fun _ => rfl, fun h => ?_⟩
  obtain ⟨k, hk⟩ : ∃ k : ConfigKey, keyField line = decimal k.toByte.toNat :=
    not_forall_not.mp fun hk => h (.inr (.inl hk))
  exact ⟨k, hk, fun _ _ => rfl, rfl⟩

/-- A key and a type as the writer writes them are not to be ignored. -/
theorem not_ignorable {k : ConfigKey} (hskip : ¬ Skipped line)
    (hkey : keyField line = decimal k.toByte.toNat) (htype : typeField line = (settings k).type) :
    ¬ Ignorable settings line := by
  rintro (h | h | h | ⟨k', hk', h⟩)
  · exact hskip h
  · exact h k hkey
  · exact h (htype ▸ type_known (settings k))
  · obtain rfl := key_injective (hkey.symm.trans hk')
    exact h htype

section Assign

variable {tokens : List (List UInt8)} {n : Int}

theorem assign_no_key (h : ConfigKey.find (UInt8.ofInt n) = none) :
    assign junk settings tokens n = settings := by
  simp only [assign, h]

theorem assign_no_type (h : tokens.getD 1 [] ∉ knownTypes) :
    assign junk settings tokens n = settings := by
  unfold assign
  cases ConfigKey.find (UInt8.ofInt n) with
  | none => rfl
  | some k => simp only [read_unknown h]

theorem assign_entry {k : ConfigKey} {setting : Setting}
    (hk : ConfigKey.find (UInt8.ofInt n) = some k)
    (h : Setting.read junk (tokens.getD 1 []) (valueField tokens) = some setting) :
    assign junk settings tokens n = Function.update settings k setting := by
  simp only [assign, hk, h]

end Assign

/-- A key field that stands for a key is not the text of another. -/
theorem find_of_keyField {n : Int} {k : ConfigKey} (hn : stoi (keyField line) = .ok n)
    (h : keyField line = decimal k.toByte.toNat) : ConfigKey.find (UInt8.ofInt n) = some k := by
  rw [h, stoi_key, Except.ok.injEq] at hn
  rw [← hn]
  exact find_key k

theorem good_of_obeyed {n : Int} (hn : stoi (keyField line) = .ok n)
    (h : Obeyed settings line (assign junk settings (split line colon) n)) :
    Good junk settings line := by
  refine .inr ⟨n, hn, ?_⟩
  cases hk : ConfigKey.find (UInt8.ofInt n) with
  | none => exact .inl rfl
  | some k =>
    refine .inr ?_
    by_cases htype : typeField line ∈ knownTypes
    · refine .inr ⟨k, rfl, ?_⟩
      obtain ⟨setting, hread, -⟩ := read_known junk
        (valueField (split line colon)) htype
      by_cases hown : keyField line = decimal k.toByte.toNat ∧ typeField line = (settings k).type
      · exact .inl hown
      · have hignorable : Ignorable settings line := by
          by_cases hkey : keyField line = decimal k.toByte.toNat
          · exact .inr (.inr (.inr ⟨k, hkey, fun he => hown ⟨hkey, he⟩⟩))
          · refine .inr (.inl fun k' hk' => ?_)
            have hfind := find_of_keyField hn hk'
            rw [hk, Option.some.injEq] at hfind
            exact hkey (hfind ▸ hk')
        have hsame := congrFun (h.ignored hignorable) k
        rw [assign_entry hk hread, Function.update_self] at hsame
        exact .inr (hsame ▸ hread)
    · exact .inl htype

theorem obeyed_of_good {n : Int} (hskip : ¬ Skipped line)
    (h : ConfigKey.find (UInt8.ofInt n) = none ∨ typeField line ∉ knownTypes ∨
      ∃ k, ConfigKey.find (UInt8.ofInt n) = some k ∧
        (keyField line = decimal k.toByte.toNat ∧ typeField line = (settings k).type ∨
          Setting.read junk (typeField line) (valueField (split line colon)) =
            some (settings k))) :
    Obeyed settings line (assign junk settings (split line colon) n) := by
  rcases h with hk | htype | ⟨k, hk, ⟨hkey, htype⟩ | hread⟩
  · rw [assign_no_key hk]
    exact obeyed_self
  · rw [assign_no_type htype]
    exact obeyed_self
  · obtain ⟨setting, hread, hsame⟩ := read_known junk
      (valueField (split line colon)) (htype ▸ type_known (settings k))
    rw [assign_entry hk hread]
    refine ⟨fun hi => absurd hi (not_ignorable hskip hkey htype), fun _ => ⟨k, hkey, ?_, ?_⟩⟩
    · exact fun k' hk' => Function.update_of_ne hk' _ _
    · rw [Function.update_self, hsame, htype]
  · rw [assign_entry hk hread, Function.update_eq_self]
    exact obeyed_self

/-- The reader obeys the rule for a line exactly if the line is good. -/
theorem obeyed_iff :
    (∃ after, parseLine junk settings line = .ok after ∧ Obeyed settings line after) ↔
      Good junk settings line := by
  by_cases hskip : Skipped line
  · exact iff_of_true ⟨settings, parseLine_skipped hskip, obeyed_self⟩ (.inl hskip)
  · rw [parseLine_entry hskip]
    constructor
    · rintro ⟨after, hafter, hobeyed⟩
      obtain ⟨n, hn, rfl⟩ := Run.map_eq_ok.mp hafter
      exact good_of_obeyed hn hobeyed
    · rintro (h | ⟨n, hn, hcase⟩)
      · exact absurd h hskip
      · exact ⟨_, Run.map_eq_ok.mpr ⟨n, hn, rfl⟩, obeyed_of_good hskip hcase⟩

end Rule

/-- A file is read to its end and every line does what it may exactly if every line is
good in the settings that the lines before it leave. -/
theorem parse_obeys_iff (junk : Int32) (settings : Configuration) (content : List UInt8) :
    ((∃ t, parse junk settings content = .ok t) ∧
      ∀ before line rest s t, lines content = before ++ line :: rest →
        Run.run (parseLine junk) settings before = .ok s → parseLine junk s line = .ok t →
        Obeyed s line t) ↔
      ∀ before line rest s, lines content = before ++ line :: rest →
        Run.run (parseLine junk) settings before = .ok s → Good junk s line := by
  constructor
  · rintro ⟨⟨t, ht⟩, hobeyed⟩ before line rest s hsplit hs
    rw [parse, hsplit] at ht
    obtain ⟨after, hafter⟩ := Run.run_step ht hs
    exact obeyed_iff.mp ⟨after, hafter, hobeyed before line rest s after hsplit hs hafter⟩
  · intro hgood
    refine ⟨Run.run_succeeds fun before line rest s hsplit hs => ?_,
      fun before line rest s t hsplit hs ht => ?_⟩
    · obtain ⟨after, hafter, -⟩ := obeyed_iff.mpr (hgood before line rest s hsplit hs)
      exact ⟨after, hafter⟩
    · obtain ⟨after, hafter, hobeyed⟩ := obeyed_iff.mpr (hgood before line rest s hsplit hs)
      exact Except.ok.inj (ht.symm.trans hafter) ▸ hobeyed

/-- A key that is no number stops the reader; the key 256 is taken for 0, and a text for
the number of a port. -/
theorem malformed_lines_taken :
    (¬ ∃ t, parse 0 default (ascii "x:int:1") = .ok t) ∧
    (∃ t, parse 0 default (ascii "256:string:a") = .ok t ∧
      ¬ Obeyed default (ascii "256:string:a") t) ∧
    ∃ t, parse 0 default (ascii "4:string:a") = .ok t ∧
      ¬ Obeyed default (ascii "4:string:a") t := by
  have hthrown : parse 0 default (ascii "x:int:1") = .error .thrown := rfl
  refine ⟨?_, ⟨_, rfl, fun h => ?_⟩, ⟨_, rfl, fun h => ?_⟩⟩
  · rintro ⟨t, ht⟩
    rw [hthrown] at ht
    cases ht
  · have hsame := congrFun (h.ignored (.inr (.inl fun k => by cases k <;> decide))) .rom
    exact absurd hsame (by decide)
  · have hsame := congrFun
      (h.ignored (.inr (.inr (.inr ⟨.linkPort, by decide, by decide⟩)))) .linkPort
    exact absurd hsame (by decide)

end GbEmu.Configuration
