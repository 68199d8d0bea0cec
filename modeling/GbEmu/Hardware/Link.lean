import GbEmu.Hardware

/-!
The link against the settings. A change of the master flag, the port or the address
takes the link down, and its new value, read as a truth value, decides whether it comes
back: a port is true only when it is zero, an address never.
-/

namespace GbEmu

open GbEmu.Configuration

namespace Configuration.Update

/-- The new value as `toBool` reads it. -/
def truth : Update → Bool
  | string _ _ => false
  | int _ value => value == 0
  | bool _ value => value

/-- Keys of an enumeration get one of its values. -/
structure Enumerated (u : Update) : Prop where
  speed : u.key = .speed → ∃ e : EmuSpeed, u = int .speed (Int32.ofNat e.toByte.toNat)
  emuMode : u.key = .emuMode → ∃ e : EmuMode, u = int .emuMode (Int32.ofNat e.toByte.toNat)
  linkType : u.key = .linkType → ∃ e : LinkType, u = int .linkType (Int32.ofNat e.toByte.toNat)

end Configuration.Update

namespace Configuration

/-- What the handler reads as an enumeration is one of its values. -/
structure Enumerated (settings : Configuration) : Prop where
  speed : ∃ e : EmuSpeed, settings.getEnum .speed = e.toByte
  linkType : ∃ e : LinkType, settings.getEnum .linkType = e.toByte

/-- The settings ask for a link. -/
def Linked (settings : Configuration) : Prop :=
  settings.getBool .linkEnable = true ∧ settings.getEnum .linkType = LinkType.socket.toByte

section Update

variable {settings : Configuration} {u : Update}

theorem toBool_set {setting : Setting} (h : u.type = setting.type) :
    (u.set setting).toBool = u.truth := by
  rcases type_cases h with ⟨_, _, _, rfl, rfl⟩ | ⟨_, _, _, _, rfl, rfl⟩ | ⟨_, _, _, _, rfl, rfl⟩
  · rfl
  · rfl
  · rfl

/-- A setting that has been set reads as the value it has been given. -/
theorem getBool_update (h : u.type = (settings u.key).type) :
    (settings.update u).1.getBool u.key = u.truth := by
  rw [getBool, update_key h]
  exact toBool_set h

theorem ofInt_toInt_ofNat (b : UInt8) : UInt8.ofInt (Int32.ofNat b.toNat).toInt = b := by
  have hb : b.toNat < 2 ^ 31 := Nat.lt_trans b.toNat_lt (by decide)
  rw [Int32.toInt_ofNat_of_lt hb]
  have hbyte := b.toNat_lt
  rw [← UInt8.toNat_inj, UInt8.ofInt, UInt8.toNat_ofNat']
  omega

theorem getEnum_update {key : ConfigKey} {b : UInt8}
    (h : (Update.int key (Int32.ofNat b.toNat)).type = (settings key).type) :
    (settings.update (.int key (Int32.ofNat b.toNat))).1.getEnum key = b := by
  have hset := update_key h
  rw [Update.key] at hset
  rw [getEnum, getInt, hset]
  rcases type_cases h with ⟨_, _, _, hu, -⟩ | ⟨_, _, _, _, -, hs⟩ | ⟨_, _, _, _, hu, -⟩
  · cases hu
  · rw [hs]
    exact ofInt_toInt_ofNat b
  · cases hu

theorem getEnum_other {key : ConfigKey} (hk : u.key ≠ key) :
    (settings.update u).1.getEnum key = settings.getEnum key := by
  rw [getEnum, getInt, update_other hk]
  rfl

theorem enum_update {E : Type} {toByte : E → UInt8} {key : ConfigKey}
    (hs : ∃ e, settings.getEnum key = toByte e)
    (hu : u.key = key → ∃ e, u = .int key (Int32.ofNat (toByte e).toNat)) :
    ∃ e, (settings.update u).1.getEnum key = toByte e := by
  by_cases hk : u.key = key
  · obtain ⟨e, rfl⟩ := hu hk
    by_cases h : (Update.int key (Int32.ofNat (toByte e).toNat)).type = (settings key).type
    · exact ⟨e, getEnum_update h⟩
    · rw [update_refused h]
      exact hs
  · rw [getEnum_other hk]
    exact hs

theorem enumerated_update (hs : settings.Enumerated) (hu : u.Enumerated) :
    (settings.update u).1.Enumerated :=
  ⟨enum_update hs.speed hu.speed, enum_update hs.linkType hu.linkType⟩

/-- Only two settings say whether there is to be a link. -/
theorem linked_update (henable : u.key ≠ .linkEnable) (htype : u.key ≠ .linkType) :
    (settings.update u).1.Linked ↔ settings.Linked := by
  rw [Linked, Linked, getEnum_other htype, getBool, update_other henable]
  rfl

end Update

end Configuration

namespace Hardware

/-- The link is there exactly if the settings ask for it. -/
def LinkFollows (s : Configuration × Hardware) : Prop := s.2.link.isSome = true ↔ s.1.Linked

/-- The settings that a link is made with. -/
def linkParameters : List ConfigKey := [.linkMaster, .linkPort, .linkAddr]

/-- The new value takes a link down that the settings ask for: it is for a setting that the
link is made with, and does not read as true. -/
def Drops (settings : Configuration) (u : Update) : Prop :=
  u.key ∈ linkParameters ∧ u.truth = false ∧ settings.Linked

/-- An update that is taken and after which the link does not come back. -/
def Unlinks (s : Configuration × Hardware) (u : Update) : Prop :=
  (s.1.update u).2 = true ∧ Drops s.1 u

section Link

variable {settings : Configuration} {g : Hardware}

theorem readSpeed_link (hs : settings.Enumerated) :
    ∃ g', g.readSpeed settings = .ok g' ∧ g'.link = g.link := by
  obtain ⟨e, he⟩ := hs.speed
  unfold readSpeed
  rw [he]
  cases e with
  | normal => exact ⟨_, rfl, rfl⟩
  | twice => exact ⟨_, rfl, rfl⟩
  | free => exact ⟨_, rfl, rfl⟩

/-- `initLink` makes the link that the settings ask for. -/
theorem initLink_linked (hs : settings.Enumerated) (hlink : g.link = none) :
    ∃ g', g.initLink settings = .ok g' ∧ LinkFollows (settings, g') := by
  obtain ⟨e, he⟩ := hs.linkType
  unfold initLink LinkFollows Linked
  by_cases henable : settings.getBool .linkEnable = true
  · rw [if_pos henable, he]
    cases e with
    | socket => exact ⟨_, rfl, iff_of_true rfl ⟨henable, he⟩⟩
    | pipe =>
      refine ⟨_, rfl, iff_of_false nofun fun h => ?_⟩
      exact absurd (he.symm.trans h.2) (by decide)
  · rw [if_neg henable]
    refine ⟨g, rfl, iff_of_false ?_ fun h => henable h.1⟩
    rw [hlink]
    decide

theorem restartLink_linked (key : ConfigKey) (hs : settings.Enumerated) :
    ∃ g', g.restartLink settings key = .ok g' ∧
      (LinkFollows (settings, g') ↔ ¬ (settings.getBool key = false ∧ settings.Linked)) := by
  unfold restartLink
  by_cases hkey : settings.getBool key = true
  · obtain ⟨g', hg', hfollows⟩ := initLink_linked (g := { g with link := none }) hs rfl
    refine ⟨g', (if_pos hkey).trans hg', iff_of_true hfollows fun h => ?_⟩
    rw [hkey] at h
    exact absurd h.1 (by decide)
  · refine ⟨{ g with link := none }, if_neg hkey, ?_⟩
    rw [Bool.not_eq_true] at hkey
    simp [LinkFollows, hkey]

end Link

/-- A change of what only a socket uses. -/
theorem onConfigChange_socket {settings : Configuration} {g : Hardware} {key : ConfigKey}
    (hkey : key = .linkPort ∨ key = .linkAddr) :
    g.onConfigChange settings key =
      if settings.getEnum .linkType ≠ LinkType.socket.toByte then .ok g
      else g.restartLink settings key := by
  rcases hkey with rfl | rfl
  · rfl
  · rfl

section Change

variable {settings : Configuration} {g : Hardware} {u : Update}

theorem follows_of_link (hfollows : LinkFollows (settings, g)) (henable : u.key ≠ .linkEnable)
    (htype : u.key ≠ .linkType) {g' : Hardware} (hlink : g'.link = g.link) :
    LinkFollows ((settings.update u).1, g') := by
  unfold LinkFollows at hfollows ⊢
  rw [hlink, linked_update henable htype]
  exact hfollows

theorem follows_iff_of_other (hkey : u.key ∉ linkParameters) {g' : Hardware}
    (hfollows : LinkFollows ((settings.update u).1, g')) :
    LinkFollows ((settings.update u).1, g') ↔ ¬ Drops settings u :=
  iff_of_true hfollows fun hdrops => hkey hdrops.1

theorem restartLink_parameter (h : u.type = (settings u.key).type)
    (hs : (settings.update u).1.Enumerated) (hkey : u.key ∈ linkParameters) :
    ∃ g', g.restartLink (settings.update u).1 u.key = .ok g' ∧
      (LinkFollows ((settings.update u).1, g') ↔ ¬ Drops settings u) := by
  have henable : u.key ≠ .linkEnable := fun hk => absurd (hk ▸ hkey) (by decide)
  have htype : u.key ≠ .linkType := fun hk => absurd (hk ▸ hkey) (by decide)
  obtain ⟨g', hg', hiff⟩ := restartLink_linked (g := g) u.key hs
  rw [getBool_update h, linked_update henable htype] at hiff
  refine ⟨g', hg', hiff.trans (not_congr ?_)⟩
  exact (and_iff_right hkey).symm

theorem onConfigChange_parameter (h : u.type = (settings u.key).type)
    (hs : (settings.update u).1.Enumerated) (hfollows : LinkFollows (settings, g))
    (hkey : u.key = .linkPort ∨ u.key = .linkAddr) :
    ∃ g', g.onConfigChange (settings.update u).1 u.key = .ok g' ∧
      (LinkFollows ((settings.update u).1, g') ↔ ¬ Drops settings u) := by
  have hparameter : u.key ∈ linkParameters := by rcases hkey with hk | hk <;> rw [hk] <;> decide
  have henable : u.key ≠ .linkEnable := fun hk => absurd (hk ▸ hparameter) (by decide)
  have htype : u.key ≠ .linkType := fun hk => absurd (hk ▸ hparameter) (by decide)
  rw [onConfigChange_socket hkey, getEnum_other htype]
  split_ifs with hlink
  · refine ⟨g, rfl, iff_of_true (follows_of_link hfollows henable htype rfl) fun hdrops => ?_⟩
    exact hlink hdrops.2.2.2
  · exact restartLink_parameter h hs hparameter

/-- An update that the configuration takes. -/
theorem onConfigChange_linked (h : u.type = (settings u.key).type) (hs : settings.Enumerated)
    (hu : u.Enumerated) (hfollows : LinkFollows (settings, g)) :
    ∃ g', g.onConfigChange (settings.update u).1 u.key = .ok g' ∧
      (LinkFollows ((settings.update u).1, g') ↔ ¬ Drops settings u) := by
  have hs' := enumerated_update hs hu
  have htruth := getBool_update h
  have hsame := @follows_of_link settings g u hfollows
  have hother := @follows_iff_of_other settings u
  cases hk : u.key with
  | rom =>
    rw [hk] at hsame hother
    exact ⟨g, rfl, hother (by decide) (hsame (by decide) (by decide) rfl)⟩
  | emuMode =>
    rw [hk] at hsame hother
    exact ⟨g, rfl, hother (by decide) (hsame (by decide) (by decide) rfl)⟩
  | speed =>
    obtain ⟨g', hg', hlink⟩ := readSpeed_link (g := g) hs'
    rw [hk] at hsame hother
    exact ⟨g', hg', hother (by decide) (hsame (by decide) (by decide) hlink)⟩
  | linkMaster =>
    have hrestart := restartLink_parameter (g := g) h hs' (by rw [hk]; decide)
    rw [hk] at hrestart
    exact hrestart
  | linkPort => exact hk ▸ onConfigChange_parameter h hs' hfollows (.inl hk)
  | linkAddr => exact hk ▸ onConfigChange_parameter h hs' hfollows (.inr hk)
  | linkType =>
    -- the type is true exactly if it is a socket, so what is restarted is what is asked for
    obtain ⟨g', hg', hiff⟩ := restartLink_linked (g := g) .linkType hs'
    rw [hk] at hother htruth
    refine ⟨g', hg', hother (by decide) (hiff.mpr fun ⟨hfalse, hlinked⟩ => ?_)⟩
    obtain ⟨e, rfl⟩ := hu.linkType hk
    cases e with
    | socket => exact absurd (htruth.symm.trans hfalse) (by decide)
    | pipe => exact absurd ((getEnum_update h).symm.trans hlinked.2) (by decide)
  | linkEnable =>
    obtain ⟨g', hg', hiff⟩ := restartLink_linked (g := g) .linkEnable hs'
    rw [hk] at hother
    refine ⟨g', hg', hother (by decide) (hiff.mpr fun ⟨hfalse, hlinked⟩ => ?_)⟩
    exact absurd (hlinked.1.symm.trans hfalse) (by decide)

end Change

/-- An update keeps the link in step with the settings exactly if it does not unlink. -/
theorem configure_linked {s : Configuration × Hardware} {u : Update} (hu : u.Enumerated)
    (hs : s.1.Enumerated) (hfollows : LinkFollows s) :
    ∃ s', configure s u = .ok s' ∧ s'.1.Enumerated ∧ (LinkFollows s' ↔ ¬ Unlinks s u) := by
  obtain ⟨settings, g⟩ := s
  by_cases h : u.type = (settings u.key).type
  · obtain ⟨g', hg', hiff⟩ := onConfigChange_linked h hs hu hfollows
    have htaken : (settings.update u).2 = true := by rw [update_taken h]
    refine ⟨((settings.update u).1, g'), ?_, enumerated_update hs hu, ?_⟩
    · have hstep : configure (settings, g) u =
          (onConfigChange (settings.update u).1 g u.key).map
            fun g' => ((settings.update u).1, g') :=
        if_pos htaken
      rw [hstep, hg']
      rfl
    · rw [hiff]
      exact not_congr (and_iff_right htaken).symm
  · refine ⟨(settings, g), ?_, hs, iff_of_true hfollows fun hbad => ?_⟩
    · simp [configure, update_refused h]
    · have htaken := hbad.1
      rw [update_refused h] at htaken
      cases htaken

theorem new_linked {settings : Configuration} (hs : settings.Enumerated) :
    ∃ g, new settings = .ok g ∧ LinkFollows (settings, g) := by
  obtain ⟨g, hg, hfollows⟩ := initLink_linked (g := { speed := ticksFree, link := none }) hs rfl
  obtain ⟨g', hg', hlink⟩ := readSpeed_link (g := g) hs
  refine ⟨g', ?_, ?_⟩
  · show (initLink settings _).bind _ = _
    rw [hg]
    exact hg'
  · unfold LinkFollows at hfollows ⊢
    rw [hlink]
    exact hfollows

/-- From construction on, the link follows the settings all along a run of updates exactly
if none of them unlinks. -/
theorem link_follows_iff {settings : Configuration} (hs : settings.Enumerated)
    (us : List Update) (hus : ∀ u ∈ us, u.Enumerated) :
    ∃ g, new settings = .ok g ∧
      ((∀ before after, us = before ++ after →
          ∃ s, Run.run configure (settings, g) before = .ok s ∧ LinkFollows s) ↔
        ∀ before u after s, us = before ++ u :: after →
          Run.run configure (settings, g) before = .ok s → ¬ Unlinks s u) := by
  obtain ⟨g, hg, hfollows⟩ := new_linked hs
  refine ⟨g, hg, Run.run_holds_iff (I := fun s : Configuration × Hardware => s.1.Enumerated)
    (fun u hu s hs hf => configure_linked (hus u hu) hs hf) hs hfollows⟩

theorem enumerated_default : Configuration.default.Enumerated :=
  ⟨⟨.free, rfl⟩, ⟨.socket, rfl⟩⟩

/-- A link that is switched on and gets a port. -/
theorem link_follows_port :
    ∃ g, new Configuration.default = .ok g ∧
      ((∀ before after, [.bool .linkEnable true, .int .linkPort 9000] = before ++ after →
          ∃ s, Run.run configure (Configuration.default, g) before = .ok s ∧ LinkFollows s) ↔
        ∀ before u after s, [.bool .linkEnable true, .int .linkPort 9000] = before ++ u :: after →
          Run.run configure (Configuration.default, g) before = .ok s → ¬ Unlinks s u) := by
  refine link_follows_iff enumerated_default _ fun u hu => ?_
  rcases List.mem_cons.mp hu with rfl | hu
  · exact ⟨nofun, nofun, nofun⟩
  · obtain rfl := List.mem_singleton.mp hu
    exact ⟨nofun, nofun, nofun⟩

/-- The link is gone after a new port, though it is switched on. -/
theorem link_lost :
    ∃ g s, new Configuration.default = .ok g ∧
      Run.run configure (Configuration.default, g)
        [.bool .linkEnable true, .int .linkPort 9000] = .ok s ∧
      s.1.Linked ∧ s.2.link = none :=
  ⟨_, _, rfl, rfl, ⟨by decide, by decide⟩, rfl⟩

end Hardware

end GbEmu
