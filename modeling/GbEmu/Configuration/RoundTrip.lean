import GbEmu.Configuration.Parse

/-!
Settings written to a file and read again. The writer puts fields side by side and
escapes nothing; the reader trims the line, leaves out empty fields and puts the rest
together, so that a text comes back exactly if it has none of what the reader drops.
-/

namespace GbEmu

open Text Util

/-- Text that the reader hands back as it was written. -/
structure Survives (v : List UInt8) : Prop where
  line : newline ∉ v
  last : ∀ c, v.getLast? = some c → isSpace c = false
  first : v.head? ≠ some colon
  double : ¬ [colon, colon] <:+: v

namespace Configuration

theorem colon_not_space : isSpace colon = false := by decide

/-! ## What is read survives -/

theorem survives_valueField {line : List UInt8} (hline : newline ∉ line)
    (h : ¬ Skipped line) : Survives (valueField (split line colon)) := by
  have hfields : 2 < (split line colon).length := by
    simp only [Skipped, not_or] at h
    omega
  obtain ⟨htight, hlast, hmem⟩ := join_drop_split line hfields
  obtain ⟨hfirst, hdouble⟩ := tight_iff.mp htight
  refine ⟨fun hn => ?_, fun c hc => ?_, hfirst, hdouble⟩
  · rcases hmem _ hn with hcolon | hn
    · exact absurd hcolon (by decide)
    · exact hline hn
  · rcases hlast c hc with rfl | hc
    · exact colon_not_space
    · exact hc

theorem toString_read {junk : Int32} {type value : List UInt8} {setting : Setting}
    (h : Setting.read junk type value = some setting) : setting.toString = value := by
  unfold Setting.read at h
  split_ifs at h <;> rw [← Option.some.inj h] <;> rfl

/-- The texts of all settings survive. -/
def AllSurvive (settings : Configuration) : Prop := ∀ k, Survives (settings k).toString

theorem parseLine_survives {junk : Int32} {settings settings' : Configuration}
    {line : List UInt8} (hline : newline ∉ line) (hs : settings.AllSurvive)
    (h : parseLine junk settings line = .ok settings') : settings'.AllSurvive := by
  rcases parseLine_cases h with rfl | ⟨k, setting, hentry, hread, rfl⟩
  · exact hs
  · intro k'
    by_cases hk : k' = k
    · subst hk
      rw [Function.update_self, toString_read hread]
      exact survives_valueField hline hentry
    · rw [Function.update_of_ne hk]
      exact hs k'

theorem parse_survives {junk : Int32} {settings settings' : Configuration}
    {content : List UInt8} (hs : settings.AllSurvive)
    (h : parse junk settings content = .ok settings') : settings'.AllSurvive := by
  have hlines : ∀ l ∈ lines content, newline ∉ l := fun _ => newline_not_mem_of_lines
  unfold parse at h
  generalize lines content = ls at hlines h
  induction ls generalizing settings with
  | nil => exact Except.ok.inj h ▸ hs
  | cons l ls ih =>
    obtain ⟨t, ht, hrest⟩ := Run.run_cons_ok.mp h
    have hl := hlines l List.mem_cons_self
    exact ih (parseLine_survives hl hs ht) (fun m hm => hlines m (List.mem_cons_of_mem l hm)) hrest

/-! ## What survives is read -/

/-- A setting as the defaults and the update functions make it. -/
def Canonical : Setting → Prop
  | .int value iValue => value = intText iValue
  | .string _ => True
  | .bool value bValue => value = boolText bValue

theorem readInt_intText (junk v : Int32) : readInt junk (intText v) = v := by
  have hread : readSigned (intText v) = some v.toInt := readSigned_signedDecimal v.toInt
  have hblank : (intText v).dropWhile isSpace = intText v := dropWhile_signedDecimal v.toInt
  have hne : intText v ≠ [] := by
    intro h
    rw [h] at hread
    cases hread
  obtain ⟨c, s, hcs⟩ := List.exists_cons_of_ne_nil hne
  have hlow := v.le_toInt
  have hhigh := v.toInt_lt
  unfold readInt
  rw [hblank]
  rw [hcs] at hread ⊢
  simp only [hread]
  rw [show max (-2 ^ 31) (min v.toInt (2 ^ 31 - 1)) = v.toInt by omega, Int32.ofInt_toInt]

theorem read_canonical (junk : Int32) {setting : Setting} (h : Canonical setting) :
    Setting.read junk setting.type setting.toString = some setting := by
  cases setting with
  | int value iValue =>
    obtain rfl : value = intText iValue := h
    have hread := readInt_intText junk iValue
    simp only [Setting.read, Setting.type, Setting.toString, hread]
    rfl
  | string value => rfl
  | bool value bValue =>
    obtain rfl : value = boolText bValue := h
    cases bValue <;> rfl

section Line

variable (key : ConfigKey)

theorem key_text : colon ∉ decimal key.toByte.toNat ∧
    ∃ d s, decimal key.toByte.toNat = d :: s ∧ isSpace d = false ∧ d ≠ hash := by
  cases key <;> exact ⟨by decide, _, _, rfl, by decide, by decide⟩

theorem type_text (setting : Setting) : colon ∉ setting.type ∧ setting.type ≠ [] := by
  cases setting with
  | int => exact ⟨show colon ∉ Setting.typeInt by decide, by rintro ⟨⟩⟩
  | string => exact ⟨show colon ∉ Setting.typeString by decide, by rintro ⟨⟩⟩
  | bool => exact ⟨show colon ∉ Setting.typeBool by decide, by rintro ⟨⟩⟩

/-- The fields of a line that the writer makes. -/
theorem split_output {setting : Setting} (h : Survives setting.toString) :
    split (setting.output key) colon =
      decimal key.toByte.toNat :: setting.type :: setting.toString.splitOn colon := by
  obtain ⟨hkey, d, s, hd, hspace, -⟩ := key_text key
  obtain ⟨htype, htypene⟩ := type_text setting
  have hline : setting.output key =
      decimal key.toByte.toNat ++ colon :: (setting.type ++ colon :: setting.toString) := by
    simp [Setting.output]
  have htrim : trim (setting.output key) = setting.output key := by
    refine trim_eq_self (fun c hc => ?_) fun c hc => ?_
    · rw [hline, hd] at hc
      obtain rfl : d = c := by simpa using hc
      exact hspace
    · rw [Setting.output, List.getLast?_append, List.getLast?_concat] at hc
      cases hlast : setting.toString.getLast? with
      | none =>
        rw [hlast] at hc
        exact Option.some.inj hc ▸ colon_not_space
      | some e =>
        rw [hlast] at hc
        exact Option.some.inj hc ▸ h.last e hlast
  have htight : Tight colon setting.toString := tight_iff.mpr ⟨h.first, h.double⟩
  have hrest : setting.toString.splitOn colon ≠ [] := List.splitOn_ne_nil _ _
  rw [split, htrim, hline, List.splitOn_append_cons_self_of_not_mem hkey,
    List.splitOn_append_cons_self_of_not_mem htype, takeTokens_cons (List.cons_ne_nil _ _),
    if_neg (by simp [hd]), takeTokens_cons hrest, if_neg (by simpa using htypene),
    takeTokens_eq_self htight]

/-- A line that the writer makes puts its setting in place. -/
theorem parseLine_output (junk : Int32) (settings : Configuration) {setting : Setting}
    (hc : Canonical setting) (h : Survives setting.toString) :
    parseLine junk settings (setting.output key) =
      .ok (Function.update settings key setting) := by
  obtain ⟨-, d, s, hd, -, hhash⟩ := key_text key
  have hsplit := split_output key h
  have htight : Tight colon setting.toString := tight_iff.mpr ⟨h.first, h.double⟩
  have hskip : ¬ Skipped (setting.output key) := by
    rintro (he | he | he)
    · simp [Setting.output, hd] at he
    · simp only [Setting.output, hd, List.cons_append, List.head?_cons, Option.some.injEq] at he
      exact hhash he
    · rw [hsplit] at he
      obtain ⟨v, vs, hvs⟩ := List.exists_cons_of_ne_nil
        (List.splitOn_ne_nil colon setting.toString)
      simp only [hvs, List.length_cons] at he
      omega
  have hvalue : valueField (split (setting.output key) colon) = setting.toString := by
    have hjoin := join_takeTokens htight
    rw [takeTokens_eq_self htight] at hjoin
    rw [hsplit]
    exact hjoin
  have hassign : assign junk settings (split (setting.output key) colon) key.toByte.toNat =
      Function.update settings key setting := by
    unfold assign
    rw [find_key, hvalue, hsplit]
    simp only [List.getD_cons_succ, List.getD_cons_zero, read_canonical junk hc]
  have hkey : (split (setting.output key) colon).getD 0 [] = decimal key.toByte.toNat := by
    rw [hsplit]
    rfl
  rw [parseLine_entry hskip, ← hassign, hkey, stoi_key]
  rfl

end Line

theorem newline_not_mem_output {setting : Setting} (key : ConfigKey)
    (h : Survives setting.toString) : newline ∉ setting.output key := by
  have hkey : newline ∉ decimal key.toByte.toNat := by cases key <;> decide
  have htype : newline ∉ setting.type := by
    cases setting with
    | int => exact show newline ∉ Setting.typeInt by decide
    | string => exact show newline ∉ Setting.typeString by decide
    | bool => exact show newline ∉ Setting.typeBool by decide
  have hcolon : newline ≠ colon := by decide
  simp [Setting.output, hkey, htype, hcolon, h.line]

def header (key : ConfigKey) : List UInt8 := ascii "# " ++ key.toString

theorem parseLine_header (junk : Int32) (settings : Configuration) (key : ConfigKey) :
    parseLine junk settings (header key) = .ok settings :=
  parseLine_skipped (.inr (.inl (by cases key <;> decide)))

/-- The lines of the file for some keys. -/
def fileLines (settings : Configuration) (ks : List ConfigKey) : List (List UInt8) :=
  ks.flatMap fun key => [header key, (settings key).output key]

theorem str_eq (settings : Configuration) :
    settings.str = (fileLines settings ConfigKey.keys).flatMap (· ++ [newline]) := by
  unfold str fileLines
  rw [List.flatMap_assoc]
  refine congrArg (List.flatMap · ConfigKey.keys) (funext fun key => ?_)
  simp [header]

/-- Reading the lines for some keys sets these. -/
theorem run_fileLines (junk : Int32) {settings : Configuration}
    (hc : ∀ k, Canonical (settings k)) (hs : settings.AllSurvive) (ks : List ConfigKey)
    (start : Configuration) :
    Run.run (parseLine junk) start (fileLines settings ks) =
      .ok fun k => if k ∈ ks then settings k else start k := by
  induction ks generalizing start with
  | nil => simp [fileLines]
  | cons key ks ih =>
    have hlines : fileLines settings (key :: ks) =
        header key :: (settings key).output key :: fileLines settings ks := rfl
    rw [hlines, Run.run_cons_of_ok (parseLine_header junk start key),
      Run.run_cons_of_ok (parseLine_output key junk start (hc key) (hs key)), ih]
    refine congrArg Except.ok (funext fun k => ?_)
    by_cases hk : k ∈ ks
    · simp [hk]
    · by_cases he : k = key
      · subst he
        simp [hk]
      · simp [hk, he]

/-- Settings whose texts all survive are read as they were written. -/
theorem parse_str (junk : Int32) (start : Configuration) {settings : Configuration}
    (hc : ∀ k, Canonical (settings k)) (hs : settings.AllSurvive) :
    parse junk start settings.str = .ok settings := by
  have hlines : ∀ l ∈ fileLines settings ConfigKey.keys, newline ∉ l := by
    intro l hl
    obtain ⟨key, -, hl⟩ := List.mem_flatMap.mp hl
    rcases List.mem_cons.mp hl with rfl | hl
    · cases key <;> decide
    · rw [List.mem_singleton.mp hl]
      exact newline_not_mem_output key (hs key)
  rw [parse, str_eq, lines_flatMap hlines, run_fileLines junk hc hs]
  refine congrArg Except.ok (funext fun k => if_pos ?_)
  cases k <;> decide

/-! ## Runs of updates -/

theorem survives_of_chars {v : List UInt8} (h : ∀ c ∈ v, c = minus ∨ isDigit c = true) :
    Survives v := by
  have hnot : ∀ c, c ≠ minus → isDigit c = false → c ∉ v := by
    intro c hminus hdigit hc
    rcases h c hc with he | hd
    · exact hminus he
    · rw [hdigit] at hd
      cases hd
  have hcolon : colon ∉ v := hnot colon (by decide) (by decide)
  refine ⟨hnot newline (by decide) (by decide), fun c hc => ?_, fun hf => ?_, fun hd => ?_⟩
  · rcases h c (List.mem_of_getLast? hc) with rfl | hd
    · decide
    · exact isSpace_of_isDigit hd
  · exact hcolon (List.mem_of_head? hf)
  · exact hcolon (hd.subset List.mem_cons_self)

/-- What a number or a truth value writes survives. -/
theorem survives_canonical {setting : Setting} (hc : Canonical setting)
    (htype : setting.type ≠ Setting.typeString) : Survives setting.toString := by
  cases setting with
  | int value iValue =>
    obtain rfl : value = intText iValue := hc
    exact survives_of_chars fun _ => signedDecimal_chars
  | string value => exact absurd rfl htype
  | bool value bValue =>
    obtain rfl : value = boolText bValue := hc
    exact survives_of_chars fun c hc => .inr (isDigit_decimal hc)

theorem allSurvive_default : default.AllSurvive := by
  have hempty : Survives [] := survives_of_chars fun c hc => absurd hc List.not_mem_nil
  have hlast (c : UInt8) (hc : (ascii "127.0.0.1").getLast? = some c) : isSpace c = false := by
    obtain rfl : 0x31 = c := Option.some.inj hc
    decide
  have haddr : Survives (ascii "127.0.0.1") := ⟨by decide, hlast, by decide, by decide⟩
  intro k
  cases k with
  | rom => exact hempty
  | linkAddr => exact haddr
  | _ => exact survives_canonical rfl (by decide)

/-- The settings after calls of the update functions, from the defaults. -/
def updated (us : List Update) : Configuration := us.foldl (fun s u => (s.update u).1) default

theorem canonical_set {u : Update} {setting : Setting} (h : u.type = setting.type) :
    Canonical (u.set setting) := by
  rcases type_cases h with ⟨_, _, _, rfl, rfl⟩ | ⟨_, _, _, _, rfl, rfl⟩ | ⟨_, _, _, _, rfl, rfl⟩
  · trivial
  · rfl
  · rfl

theorem canonical_update {settings : Configuration} (u : Update) (h : ∀ k, Canonical (settings k))
    (k : ConfigKey) : Canonical ((settings.update u).1 k) := by
  by_cases hk : u.key = k
  · subst hk
    by_cases htype : u.type = (settings u.key).type
    · rw [update_key htype]
      exact canonical_set htype
    · rw [update_refused htype]
      exact h u.key
  · rw [update_other hk]
    exact h k

theorem type_updated (us : List Update) (k : ConfigKey) :
    (updated us k).type = (default k).type :=
  List.foldlRecOn (motive := fun s : Configuration => (s k).type = (default k).type) us _ rfl
    fun s hs u _ => (type_update s u k).trans hs

theorem canonical_updated (us : List Update) : ∀ k, Canonical (updated us k) :=
  List.foldlRecOn (motive := fun s : Configuration => ∀ k, Canonical (s k)) us _
    (fun k => by cases k <;> trivial) fun _ hs u _ => canonical_update u hs

/-- The text of a string setting after an update. -/
def Update.text (key : ConfigKey) (last : List UInt8) : Update → List UInt8
  | .string k value => if k = key then value else last
  | _ => last

/-- The last text that `updateString` has been given for a key, or else the default. -/
def lastText (key : ConfigKey) (us : List Update) : List UInt8 :=
  us.foldl (Update.text key) (default key).toString

theorem toString_update {settings : Configuration} {key : ConfigKey} (u : Update)
    (h : (settings key).type = Setting.typeString) :
    ((settings.update u).1 key).toString = u.text key (settings key).toString := by
  by_cases hk : u.key = key
  · subst hk
    by_cases htype : u.type = (settings u.key).type
    · rw [update_key htype]
      rw [h] at htype
      cases u with
      | string k value =>
        simp only [Update.set, Update.text, Update.key, if_true]
        cases settings k <;> rfl
      | int => exact absurd htype (show Setting.typeInt ≠ Setting.typeString by decide)
      | bool => exact absurd htype (show Setting.typeBool ≠ Setting.typeString by decide)
    · rw [update_refused htype]
      cases u with
      | string k value => exact absurd h.symm htype
      | int => rfl
      | bool => rfl
  · rw [update_other hk]
    cases u with
    | string k value => exact (if_neg hk).symm
    | int => rfl
    | bool => rfl

/-- A string setting holds the last text it has been given. -/
theorem toString_updated {key : ConfigKey} (us : List Update)
    (h : (default key).type = Setting.typeString) :
    (updated us key).toString = lastText key us := by
  unfold updated lastText
  generalize default = settings at h ⊢
  induction us generalizing settings with
  | nil => rfl
  | cons u us ih =>
    rw [List.foldl_cons, List.foldl_cons, ih _ ((type_update settings u key).trans h),
      toString_update u h]

/-- The texts that come from outside decide whether all of them survive. -/
theorem allSurvive_updated_iff (us : List Update) :
    (updated us).AllSurvive ↔
      Survives (lastText .rom us) ∧ Survives (lastText .linkAddr us) := by
  have hrom : (updated us .rom).toString = lastText .rom us := toString_updated us rfl
  have haddr : (updated us .linkAddr).toString = lastText .linkAddr us := toString_updated us rfl
  rw [← hrom, ← haddr]
  constructor
  · exact fun h => ⟨h .rom, h .linkAddr⟩
  · rintro ⟨hrom, haddr⟩ k
    cases k with
    | rom => exact hrom
    | linkAddr => exact haddr
    | _ =>
      refine survives_canonical (canonical_updated us _) ?_
      rw [type_updated]
      decide

/-! ## The round trip -/

/-- What callers see of two configurations is the same. -/
def Agree (s t : Configuration) : Prop :=
  ∀ k, s.getString k = t.getString k ∧ s.getInt k = t.getInt k ∧ s.getBool k = t.getBool k

theorem allSurvive_of_roundTrip {junk : Int32} {settings t : Configuration}
    (h : parse junk default settings.str = .ok t) (hagree : Agree t settings) :
    settings.AllSurvive := by
  intro k
  have hstring : (t k).toString = (settings k).toString := (hagree k).1
  rw [← hstring]
  exact parse_survives allSurvive_default h k

/-- The settings come back from the file exactly if the two texts set from outside have
no line break, no colon in front, no two colons together and no white space at the end. -/
theorem roundTrip_iff (junk : Int32) (us : List Update) :
    (∃ t, parse junk default (updated us).str = .ok t ∧ Agree t (updated us)) ↔
      Survives (lastText .rom us) ∧ Survives (lastText .linkAddr us) := by
  rw [← allSurvive_updated_iff]
  constructor
  · rintro ⟨t, hparse, hagree⟩
    exact allSurvive_of_roundTrip hparse hagree
  · intro h
    exact ⟨updated us, parse_str junk default (canonical_updated us) h, fun _ => ⟨rfl, rfl, rfl⟩⟩

/-- The file name `a::b` does not come back. -/
theorem not_roundTrip : ¬ ∀ (junk : Int32) (us : List Update),
    ∃ t, parse junk default (updated us).str = .ok t ∧ Agree t (updated us) := by
  intro h
  obtain ⟨t, hparse, hagree⟩ := h 0 [.string .rom (ascii "a::b")]
  have hrom := (allSurvive_of_roundTrip hparse hagree .rom).double
  exact hrom (by decide)

end Configuration

end GbEmu
