import GbEmu.Bus.Guard
import GbEmu.Cartridge.Bounds

/-!
The bank of work RAM. The register FF70 is stored as it is written and used as an
index, so the switchable half is safe only while the register is below the number
of banks; the fixed half always is.
-/

namespace GbEmu.Bus

theorem find_working_iff (s : Bus) (address : UInt16) :
    s.find address = some .working ↔ 0xC000 ≤ address.toNat ∧ address.toNat < 0xFE00 := by
  rw [s.find_eq_some_iff (by decide) (by decide)]
  unfold regionOf
  split_ifs <;> simp <;> omega

/-- The index counts from the start of work RAM, of which the echo is a copy. -/
theorem workingIndex_eq {a : Nat} (h : 0xC000 ≤ a) (h' : a < 0xFE00) :
    workingIndex a = (a - 0xC000) % 0x2000 := by
  have hshadow : isShadowAddressed a = decide (0xE000 ≤ a) := by
    rw [Bool.eq_iff_iff]
    simp [isShadowAddressed, within]
    omega
  unfold workingIndex
  rw [hshadow]
  by_cases he : 0xE000 ≤ a
  · simp [he]
    omega
  · simp [he]
    omega

/-- The selected bank exists, and the access it is for stays inside it. -/
def WorkRamInBounds (s : Bus) (address : UInt16) : Prop :=
  (∃ bank < 8, s.workingBank (workingIndex address.toNat) = .ok bank) ∧
    (∃ byte, s.peek address = .ok byte) ∧
    ∀ depth value, ∃ s', write (depth + 1) s address value = .ok s'

theorem workingBank_ok_iff {s : Bus} (hcgb : s.isCGB = true) (index : Nat) :
    (∃ bank < 8, s.workingBank index = .ok bank) ↔
      (s.io workingRamBankSelect).toNat < 8 ∨ index < 0x1000 := by
  unfold workingBank
  simp only [hcgb, Bool.not_true, Bool.false_eq_true, if_false]
  by_cases hlow : index < 0x1000
  · simp [hlow]
  · simp only [hlow, if_false, or_false, workingRamSize, Nat.reduceDiv]
    by_cases hbank : (s.io workingRamBankSelect).toNat < 8
    · have hmax : max 1 (s.io workingRamBankSelect).toNat < 8 := Nat.max_lt.mpr ⟨by decide, hbank⟩
      simp only [workingRamBankSelect] at hmax hbank ⊢
      simp [hmax, hbank]
    · have hmax : ¬ max 1 (s.io workingRamBankSelect).toNat < 8 :=
        fun h => hbank (Nat.max_lt.mp h).2
      simp only [workingRamBankSelect] at hmax hbank ⊢
      simp [hmax, hbank]

/-- An access fails only where the bank does not exist. -/
theorem workRamInBounds_iff {s : Bus} {address : UInt16} (h : 0xC000 ≤ address.toNat)
    (h' : address.toNat < 0xFE00) :
    s.WorkRamInBounds address ↔
      ∃ bank < 8, s.workingBank (workingIndex address.toNat) = .ok bank := by
  refine ⟨fun hin => hin.1, fun hbank => ⟨hbank, ?_, fun depth value => ?_⟩⟩
  · obtain ⟨bank, -, hb⟩ := hbank
    simp [peek, (s.find_working_iff address).mpr ⟨h, h'⟩, readRegion, readWorking, hb, Except.map]
  · obtain ⟨bank, -, hb⟩ := hbank
    simp [write, (s.find_working_iff address).mpr ⟨h, h'⟩, Region.isWritable, writeRegion,
      writeWorking, hb, Except.map]

/-- Stores to the bank register are of a bank that exists. -/
def bankGuard (_ : Bus) (address : UInt16) (value : UInt8) : Bool :=
  address != workingRamBankSelect || decide (value.toNat < 8)

theorem bankSelect_run {s₀ s : Bus} (h : Relation.ReflTransGen (GuardedStep bankGuard) s₀ s)
    (hs : (s₀.io workingRamBankSelect).toNat < 8) : (s.io workingRamBankSelect).toNat < 8 := by
  induction h with
  | refl => exact hs
  | tail _ hstep ih =>
    obtain ⟨depth, address, value, hw⟩ := hstep
    refine guardedUpdates_register (P := fun v => v.toNat < 8) (by decide) ?_
      (guardedWrite_updates hw) ih
    intro t v ha _
    simpa [bankGuard] using ha

/-- **Work RAM bounds.** A run that stores only existing banks to FF70 keeps every
access in bounds; and in any state an access is in bounds exactly if FF70 names an
existing bank or the address lies in the fixed half. -/
theorem workRam_in_bounds_iff {s : Bus} (hcgb : s.isCGB = true) :
    (∀ s₀ : Bus, (s₀.io workingRamBankSelect).toNat < 8 →
      Relation.ReflTransGen (GuardedStep bankGuard) s₀ s →
        ∀ address : UInt16, 0xC000 ≤ address.toNat → address.toNat < 0xFE00 →
          s.WorkRamInBounds address) ∧
      ∀ address : UInt16, 0xC000 ≤ address.toNat → address.toNat < 0xFE00 →
        (s.WorkRamInBounds address ↔
          (s.io workingRamBankSelect).toNat < 8 ∨ (address.toNat - 0xC000) % 0x2000 < 0x1000) := by
  have hstate : ∀ address : UInt16, 0xC000 ≤ address.toNat → address.toNat < 0xFE00 →
      (s.WorkRamInBounds address ↔
        (s.io workingRamBankSelect).toNat < 8 ∨ (address.toNat - 0xC000) % 0x2000 < 0x1000) := by
    intro address h h'
    rw [workRamInBounds_iff h h', workingBank_ok_iff hcgb, workingIndex_eq h h']
  refine ⟨fun s₀ hs₀ hrun address h h' => ?_, hstate⟩
  exact (hstate address h h').mpr (.inl (bankSelect_run hrun hs₀))

theorem load_cgb : ∃ c, Cartridge.load { Cartridge.defaultHost with emuMode := 1 }
    (some Cartridge.headerImage) = .ok c ∧ c.valid = true ∧ c.cgb = true :=
  Cartridge.load_headerImage_mode 1

/-- A CGB console on which the program selects bank 3 and stores a byte there. -/
theorem workRam_in_bounds_iff_store : ∃ (c : Cartridge) (s : Bus), c.cgb = true ∧
    Relation.ReflTransGen (GuardedStep bankGuard) (powerOn false ⟨[], by decide⟩ (some c) none) s ∧
    s.io workingRamBankSelect = 3 ∧ s.working 3 0 = 0x42 ∧ s.peek 0xD000 = .ok 0x42 ∧
    s.WorkRamInBounds 0xD000 := by
  obtain ⟨c, -, -, hc⟩ := load_cgb
  let s₀ := powerOn false ⟨[], by decide⟩ (some c) none
  let selected := s₀.setIo workingRamBankSelect 3
  have hbank : (s₀.io workingRamBankSelect).toNat < 8 := show (0 : UInt8).toNat < 8 by decide
  have hselect : guardedWrite bankGuard 1 s₀ workingRamBankSelect 3 = .ok selected := rfl
  let cells := Function.update (selected.working 3) 0 0x42
  let stored : Bus := { selected with working := Function.update selected.working 3 cells }
  have hfind : ∀ t : Bus, t.find 0xD000 = some .working :=
    fun t => (t.find_working_iff 0xD000).mpr (by decide)
  have hindex : workingIndex (0xD000 : UInt16).toNat = 0x1000 :=
    workingIndex_eq (by decide) (by decide)
  have hbanked : ∀ t : Bus, t.isCGB = true → t.io workingRamBankSelect = 3 →
      t.workingBank 0x1000 = .ok 3 := by
    intro t hcgb h3
    unfold workingBank
    rw [hcgb, show t.io 0xFF70 = 3 from h3]
    rfl
  have h3 : selected.io workingRamBankSelect = 3 := setIo_io_self ..
  have hselected := hbanked selected hc h3
  have hstore : guardedWrite bankGuard 1 selected 0xD000 0x42 = .ok stored := by
    rw [guardedWrite, if_pos (show bankGuard selected 0xD000 0x42 = true from rfl), route, hfind]
    show selected.writeWorking 0xD000 0x42 = .ok stored
    simp only [writeWorking, hindex, hselected]
    rfl
  have hstored : stored.io workingRamBankSelect = 3 := by
    rw [show stored.io = selected.io from rfl]
    exact h3
  have hread : stored.peek 0xD000 = .ok 0x42 := by
    rw [peek, hfind]
    show stored.readWorking 0xD000 = .ok 0x42
    simp only [readWorking, hindex, hbanked stored hc hstored]
    rfl
  have hrun : Relation.ReflTransGen (GuardedStep bankGuard) s₀ stored :=
    .tail (.single ⟨1, _, _, hselect⟩) ⟨1, _, _, hstore⟩
  refine ⟨c, stored, hc, hrun, hstored, ?_, hread,
    (workRam_in_bounds_iff (s := stored) hc).1 s₀ hbank hrun 0xD000 (by decide) (by decide)⟩
  simp [stored, cells]

/-- One write of 8 to FF70 takes the switchable half of a CGB console out of bounds. -/
theorem workRam_out_of_bounds :
    ¬ ∀ (host : Host) (bytes : List UInt8) (c : Cartridge),
      Cartridge.load host (some bytes) = .ok c → c.valid = true → ∀ (bios : Bios) (s : Bus),
        Relation.ReflTransGen (fun s s' => ∃ depth a v, write depth s a v = .ok s')
          (powerOn false bios (some c) none) s → s.isCGB = true →
        ∀ address : UInt16, 0xC000 ≤ address.toNat → address.toNat < 0xFE00 →
          s.WorkRamInBounds address := by
  intro hall
  obtain ⟨c, hload, hv, hc⟩ := load_cgb
  let s := (powerOn false ⟨[], by decide⟩ (some c) none).setIo workingRamBankSelect 8
  have hw :
      write 1 (powerOn false ⟨[], by decide⟩ (some c) none) workingRamBankSelect 8 = .ok s := by
    rfl
  have hin := hall _ _ c hload hv ⟨[], by decide⟩ s (.single ⟨1, _, _, hw⟩) hc 0xD000 (by decide)
    (by decide)
  rw [workRamInBounds_iff (by decide) (by decide), workingBank_ok_iff (s := s) hc,
    workingIndex_eq (by decide) (by decide)] at hin
  exact absurd hin (by simp [s, setIo])

end GbEmu.Bus
