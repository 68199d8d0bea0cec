import Mathlib.Logic.Relation
import GbEmu.Bus.Frame

/-!
What a bus write can do: a chain of elementary updates, each to one field of the
state. A property that every elementary update keeps is kept by every write,
whatever copies and register writes it starts in turn.
-/

namespace GbEmu.Bus

inductive Update (s : Bus) : Bus → Prop
  | cartridge (c : Option Cartridge) : Update s { s with cartridge := c }
  | working (m : Nat → Nat → UInt8) : Update s { s with working := m }
  | oam (m : UInt16 → UInt8) : Update s { s with oam := m }
  | zero (m : UInt16 → UInt8) : Update s { s with zero := m }
  | vram (m : Nat → Nat → UInt8) : Update s { s with gpu := { s.gpu with memory := m } }
  | bgPalette (p : CgbColors) : Update s { s with gpu := { s.gpu with bgPalette := p } }
  | spritePalette (p : CgbColors) : Update s { s with gpu := { s.gpu with spritePalette := p } }
  | divider : Update s { s with rtcReset := true }
  | link (l : Option ConsoleLink) : Update s { s with link := l }
  -- STAT is never stored whole.
  | status (value : UInt8) : Update s (s.writeBytes gpuStatusAddress value 0x78)
  | register (address : UInt16) (value : UInt8) (h : address ≠ gpuStatusAddress) :
      Update s (s.setIo address value)

abbrev Updates : Bus → Bus → Prop := Relation.ReflTransGen Update

theorem writeRegion_updates {s s' : Bus} {r : Region} {address : UInt16} {value : UInt8}
    (hr : r ≠ .io) (h : s.writeRegion r address value = .ok s') : Updates s s' := by
  rcases writeRegion_cases hr h with
    rfl | ⟨c, rfl⟩ | ⟨m, rfl⟩ | ⟨m, rfl⟩ | ⟨m, rfl⟩ | ⟨-, rfl⟩
  · exact .refl
  · exact .single (.cartridge c)
  · exact .single (.working m)
  · exact .single (.oam m)
  · exact .single (.zero m)
  · exact .single (.vram _)

section MappedIO

variable {write : Bus → UInt16 → UInt8 → Except Fault Bus} {U : Bus → Bus → Prop}

-- Each register's own part, for any kind `U` of elementary updates.

/-- A copy keeps what each of its writes keeps. -/
theorem copy_updates (hw : ∀ s a v s', write s a v = .ok s' → Relation.ReflTransGen U s s')
    {source dest : UInt16} {length : Nat} {s s' : Bus}
    (h : copy write source dest length s = .ok s') : Relation.ReflTransGen U s s' := by
  refine Run.run_invariant (P := Relation.ReflTransGen U s) ?_ h .refl
  intro t i t' ht hstep
  obtain ⟨byte, -, hstore⟩ := copyByte_ok hstep
  exact ht.trans (hw _ _ _ _ hstore)

theorem writePaletteData_updates
    (hw : ∀ s a v s', write s a v = .ok s' → Relation.ReflTransGen U s s')
    {index : UInt16} {store : Bus → UInt8 → Bus} (hstore : ∀ s i, U s (store s i)) {s s' : Bus}
    (h : writePaletteData write index store s = .ok s') : Relation.ReflTransGen U s s' := by
  simp only [writePaletteData] at h
  have hfirst := Relation.ReflTransGen.single (hstore s (s.io index &&& 0x3F))
  split_ifs at h with hp
  · exact hfirst.trans (hw _ _ _ _ h)
  · rw [Except.ok.injEq] at h
    exact h ▸ hfirst

theorem writeDmaMode_updates
    (hw : ∀ s a v s', write s a v = .ok s' → Relation.ReflTransGen U s s')
    (hreg : ∀ t v, U t (t.setIo gpuDmaMode v)) {value : UInt8} {s s' : Bus}
    (h : writeDmaMode write value s = .ok s') : Relation.ReflTransGen U s s' := by
  simp only [writeDmaMode] at h
  split_ifs at h with hm
  · obtain ⟨t, hc, rfl⟩ := Run.map_eq_ok.mp h
    exact (copy_updates hw hc).tail (hreg t _)
  · rw [Except.ok.injEq] at h
    exact h ▸ .single (hreg s _)

theorem writeSerialControl_updates (hreg : ∀ s v, U s (s.setIo serialControlAddress v))
    (hlink : ∀ s l, U s { s with link := l }) (value : UInt8) (s : Bus) :
    Relation.ReflTransGen U s (writeSerialControl value s) := by
  have hstore := hreg s (BitField.insert
    (ConsoleLink.linkClock ||| ConsoleLink.linkSpeed ||| ConsoleLink.linkTransfer)
    (s.io serialControlAddress) value)
  unfold writeSerialControl
  simp only
  split_ifs with hv
  · exact (Relation.ReflTransGen.single hstore).tail (hlink _ _)
  · exact .single hstore

theorem writeIo_updates (hw : ∀ s a v s', write s a v = .ok s' → Updates s s') {s s' : Bus}
    {address : UInt16} {value : UInt8} (h : writeIo write s address value = .ok s') :
    Updates s s' := by
  rcases writeIo_cases h with
    ⟨rfl, rfl⟩ | ⟨ha, v, rfl⟩ | rfl | hp | hp | ho | ⟨-, hm⟩ | ⟨-, rfl⟩
  · exact .single (.status value)
  · exact .single (.register address v ha)
  · exact .single .divider
  · exact writePaletteData_updates hw (fun _ _ => .bgPalette _) hp
  · exact writePaletteData_updates hw (fun _ _ => .spritePalette _) hp
  · exact copy_updates hw ho
  · exact writeDmaMode_updates hw (fun t v => .register gpuDmaMode v (by decide)) hm
  · exact writeSerialControl_updates (fun t v => .register serialControlAddress v (by decide))
      (fun _ l => .link l) value s

end MappedIO

/-- **Every successful bus write is a chain of elementary updates.** -/
theorem write_updates {depth : Nat} {s s' : Bus} {address : UInt16} {value : UInt8}
    (h : write depth s address value = .ok s') : Updates s s' := by
  induction depth generalizing s s' address value with
  | zero => cases h
  | succ depth ih =>
    obtain ⟨r, hr⟩ := s.find_isSome address
    simp only [write, hr] at h
    by_cases hio : r = .io
    · subst hio
      exact writeIo_updates (fun _ _ _ _ => ih) h
    · simp only at h
      split_ifs at h with hw
      · exact writeRegion_updates hio h
      · rw [Except.ok.injEq] at h
        exact h ▸ .refl

end GbEmu.Bus
