import Mathlib.Logic.Relation
import GbEmu.Bus

/-!
Which region an address belongs to, and what a bus write leaves alone.
-/

namespace GbEmu.Bus

/-! ## Regions by address -/

/-- The region of an address from 0x8000 on; it does not depend on the state. -/
def regionOf (a : Nat) : Region :=
  if a < 0xA000 then .gpu
  else if a < 0xC000 then .cartridge
  else if a < 0xFE00 then .working
  else if a < 0xFEA0 then .oam
  else if a < 0xFF00 then .unusable
  else if a < 0xFF80 then .io
  else .zero

/-- From there on the address tests of the regions exclude each other. -/
theorem isAddressed_high (s : Bus) {address : UInt16} (h : 0x8000 ≤ address.toNat) (r : Region) :
    s.isAddressed r address = true ↔ regionOf address.toNat = r := by
  have hlt := address.toNat_lt
  have hfit := s.bios.fits
  unfold regionOf
  cases r with
  | _ =>
    simp only [isAddressed, within, isShadowAddressed, Bool.and_eq_true, Bool.or_eq_true,
      decide_eq_true_eq, Bool.not_eq_true']
    split_ifs <;> simp <;> omega

theorem regionOf_ne_bios (a : Nat) : regionOf a ≠ .bios := by
  unfold regionOf
  split_ifs <;> decide

theorem find_high (s : Bus) {address : UInt16} (h : 0x8000 ≤ address.toNat) :
    s.find address = some (regionOf address.toNat) := by
  have htest :
      (fun r => s.isAddressed r address) = fun r => decide (regionOf address.toNat = r) := by
    funext r
    rw [Bool.eq_iff_iff, decide_eq_true_iff]
    exact s.isAddressed_high h r
  have hbios := regionOf_ne_bios address.toNat
  unfold find regions
  rw [htest]
  generalize regionOf address.toNat = r at hbios
  cases r with
  | bios => exact absurd rfl hbios
  | _ => cases s.inBios <;> rfl

/-- Below 0x8000 the BIOS may cover the cartridge. -/
theorem find_low (s : Bus) {address : UInt16} (h : address.toNat < 0x8000) :
    s.find address = some .bios ∨ s.find address = some .cartridge := by
  have hcart : s.isAddressed .cartridge address = true := by
    simp [isAddressed, within]
    omega
  unfold find regions
  cases s.inBios with
  | false => exact Or.inr (by simp [hcart])
  | true =>
    cases hb : s.isAddressed .bios address with
    | true => exact Or.inl (by simp [hb])
    | false => exact Or.inr (by simp [hb, hcart])

/-- Every address belongs to some region. -/
theorem find_isSome (s : Bus) (address : UInt16) : ∃ r, s.find address = some r := by
  by_cases h : 0x8000 ≤ address.toNat
  · exact ⟨_, s.find_high h⟩
  · rcases s.find_low (Nat.lt_of_not_le h) with h' | h' <;> exact ⟨_, h'⟩

/-- The regions above the cartridge ROM are those of `regionOf`. -/
theorem find_eq_some_iff (s : Bus) {r : Region} (hb : r ≠ .bios) (hc : r ≠ .cartridge)
    (address : UInt16) :
    s.find address = some r ↔ 0x8000 ≤ address.toNat ∧ regionOf address.toNat = r := by
  by_cases h : 0x8000 ≤ address.toNat
  · simp [s.find_high h, h]
  · rcases s.find_low (Nat.lt_of_not_le h) with h' | h' <;> simp [h', h, hb.symm, hc.symm]

theorem find_gpu_iff (s : Bus) (address : UInt16) :
    s.find address = some .gpu ↔ 0x8000 ≤ address.toNat ∧ address.toNat < 0xA000 := by
  rw [s.find_eq_some_iff (by decide) (by decide)]
  unfold regionOf
  split_ifs <;> simp <;> omega

theorem find_oam_iff (s : Bus) (address : UInt16) :
    s.find address = some .oam ↔ 0xFE00 ≤ address.toNat ∧ address.toNat < 0xFEA0 := by
  rw [s.find_eq_some_iff (by decide) (by decide)]
  unfold regionOf
  split_ifs <;> simp <;> omega

theorem find_io_iff (s : Bus) (address : UInt16) :
    s.find address = some .io ↔ 0xFF00 ≤ address.toNat ∧ address.toNat < 0xFF80 := by
  rw [s.find_eq_some_iff (by decide) (by decide)]
  unfold regionOf
  split_ifs <;> simp <;> omega

/-! ## Registers -/

@[simp] theorem setIo_io_self (s : Bus) (a : UInt16) (v : UInt8) : (s.setIo a v).io a = v :=
  Function.update_self _ _ _

theorem setIo_io_of_ne (s : Bus) {a b : UInt16} (h : b ≠ a) (v : UInt8) :
    (s.setIo a v).io b = s.io b :=
  Function.update_of_ne h _ _

theorem setIo_self (s : Bus) (a : UInt16) : s.setIo a (s.io a) = s := by
  unfold setIo
  rw [Function.update_eq_self]

theorem setIo_setIo (s : Bus) (a : UInt16) (v w : UInt8) :
    (s.setIo a v).setIo a w = s.setIo a w := by
  simp [setIo]

theorem setIo_comm (s : Bus) {a b : UInt16} (h : a ≠ b) (v w : UInt8) :
    (s.setIo a v).setIo b w = (s.setIo b w).setIo a v := by
  simp [setIo, Function.update_comm h]

/-! ## Memories and the reads that depend on them -/

def withOam (s : Bus) (m : UInt16 → UInt8) : Bus := { s with oam := m }

def withVram (s : Bus) (m : Nat → Nat → UInt8) : Bus := { s with gpu := { s.gpu with memory := m } }

@[simp] theorem find_withOam (s : Bus) (m : UInt16 → UInt8) : (s.withOam m).find = s.find := rfl

@[simp] theorem find_withVram (s : Bus) (m : Nat → Nat → UInt8) :
    (s.withVram m).find = s.find := rfl

@[simp] theorem find_setIo (s : Bus) (a : UInt16) (v : UInt8) : (s.setIo a v).find = s.find := rfl

@[simp] theorem withOam_withOam (s : Bus) (m m' : UInt16 → UInt8) :
    (s.withOam m).withOam m' = s.withOam m' := rfl

@[simp] theorem withVram_withVram (s : Bus) (m m' : Nat → Nat → UInt8) :
    (s.withVram m).withVram m' = s.withVram m' := rfl

@[simp] theorem fatal_withOam (s : Bus) (m : UInt16 → UInt8) : (s.withOam m).fatal = s.fatal := rfl

@[simp] theorem fatal_withVram (s : Bus) (m : Nat → Nat → UInt8) :
    (s.withVram m).fatal = s.fatal := rfl

theorem withVram_memory (s : Bus) : s.withVram s.gpu.memory = s := rfl

theorem readRegion_withOam (s : Bus) (m : UInt16 → UInt8) {r : Region} (hr : r ≠ .oam)
    (address : UInt16) : (s.withOam m).readRegion r address = s.readRegion r address := by
  cases r <;> first | rfl | exact absurd rfl hr

theorem readRegion_withVram (s : Bus) (m : Nat → Nat → UInt8) {r : Region} (hr : r ≠ .gpu)
    (address : UInt16) : (s.withVram m).readRegion r address = s.readRegion r address := by
  cases r <;> first | rfl | exact absurd rfl hr

theorem read_withOam (s : Bus) (m : UInt16 → UInt8) {address : UInt16}
    (h : s.find address ≠ some .oam) : (s.withOam m).read address = s.read address := by
  obtain ⟨r, hr⟩ := s.find_isSome address
  have hne : r ≠ .oam := fun e => h (e ▸ hr)
  simp [read, hr, readRegion_withOam s m hne]

theorem read_oam (s : Bus) {address : UInt16} (h : s.find address = some .oam) :
    s.read address = .ok (s.oam address) := by
  simp [read, h, readRegion, Region.isReadOnly]

theorem read_withVram (s : Bus) (m : Nat → Nat → UInt8) {address : UInt16}
    (h : s.find address ≠ some .gpu) : (s.withVram m).read address = s.read address := by
  obtain ⟨r, hr⟩ := s.find_isSome address
  have hne : r ≠ .gpu := fun e => h (e ▸ hr)
  simp [read, hr, readRegion_withVram s m hne]

theorem peek_withVram (s : Bus) (m : Nat → Nat → UInt8) {address : UInt16}
    (h : s.find address ≠ some .gpu) : (s.withVram m).peek address = s.peek address := by
  obtain ⟨r, hr⟩ := s.find_isSome address
  have hne : r ≠ .gpu := fun e => h (e ▸ hr)
  simp [peek, hr, readRegion_withVram s m hne]

/-- `read` and `peek` differ on read-only regions only. -/
theorem read_eq_peek (s : Bus) {address : UInt16} (h : s.find address ≠ some .cartridge) :
    s.read address = s.peek address := by
  obtain ⟨r, hr⟩ := s.find_isSome address
  have hro : r.isReadOnly = false := by
    cases r <;> first | rfl | exact absurd hr h
  simp [read, peek, hr, hro]

theorem read_cartridge (s : Bus) {address : UInt16} (h : s.find address = some .cartridge) :
    s.read address = s.fatal := by
  simp [read, h, Region.isReadOnly]

/-! ## Writes by region -/

theorem write_oam (s : Bus) (depth : Nat) {address : UInt16} (h : s.find address = some .oam)
    (value : UInt8) :
    write (depth + 1) s address value =
      .ok (s.withOam (Function.update s.oam address value)) := by
  simp [write, h, Region.isWritable, writeRegion, withOam]

theorem write_gpu (s : Bus) (depth : Nat) {address : UInt16} (h : s.find address = some .gpu)
    (value : UInt8) : write (depth + 1) s address value = .ok (s.writeGpu address value) := by
  simp [write, h, Region.isWritable, writeRegion]

theorem write_io (s : Bus) (depth : Nat) {address : UInt16} (h : s.find address = some .io)
    (value : UInt8) :
    write (depth + 1) s address value = writeIo (write depth) s address value := by
  simp [write, h]

/-- A pass of the copy loop reads a byte and stores it. -/
theorem copyByte_ok {write : Bus → UInt16 → UInt8 → Except Fault Bus} {source dest : UInt16}
    {s s' : Bus} {i : Nat} (h : copyByte write source dest s i = .ok s') :
    ∃ byte, s.read (source + UInt16.ofNat i) = .ok byte ∧
      write s (dest + UInt16.ofNat i) byte = .ok s' := by
  unfold copyByte at h
  exact Run.bind_eq_ok.mp h

/-- What a region other than mapped IO can do to the state. -/
theorem writeRegion_cases {s s' : Bus} {r : Region} {address : UInt16} {value : UInt8}
    (hr : r ≠ .io) (h : s.writeRegion r address value = .ok s') :
    s' = s ∨ (∃ c, s' = { s with cartridge := c }) ∨ (∃ m, s' = { s with working := m }) ∨
      (∃ m, s' = s.withOam m) ∨ (∃ m, s' = { s with zero := m }) ∨
      (r = .gpu ∧ s' = s.writeGpu address value) := by
  cases r with
  | io => exact absurd rfl hr
  | bios | unusable => exact .inl (Except.ok.inj h).symm
  | gpu => simp [← Except.ok.inj h]
  | oam => exact .inr (.inr (.inr (.inl ⟨_, (Except.ok.inj h).symm⟩)))
  | zero => exact .inr (.inr (.inr (.inr (.inl ⟨_, (Except.ok.inj h).symm⟩))))
  | working =>
    simp only [writeRegion, writeWorking] at h
    obtain ⟨bank, -, h⟩ := Run.map_eq_ok.mp h
    exact .inr (.inr (.inl ⟨_, h.symm⟩))
  | cartridge =>
    simp only [writeRegion, writeCartridge] at h
    split at h
    · exact .inl (Except.ok.inj h).symm
    · rename_i c hc
      split_ifs at h with hv
      · obtain ⟨c', -, h⟩ := Run.map_eq_ok.mp h
        exact .inr (.inl ⟨_, h.symm⟩)
      · exact .inl (Except.ok.inj h).symm

/-- What a write to a mapped register can do: STAT keeps its unmasked bits, most
registers are stored in some form, and the others start an action. -/
theorem writeIo_cases {write : Bus → UInt16 → UInt8 → Except Fault Bus} {s s' : Bus}
    {address : UInt16} {value : UInt8} (h : writeIo write s address value = .ok s') :
    (address = gpuStatusAddress ∧ s' = s.writeBytes address value 0x78) ∨
      (address ≠ gpuStatusAddress ∧ ∃ stored, s' = s.setIo address stored) ∨
      s' = { s with rtcReset := true } ∨
      writePaletteData write gpuBgPaletteIndex (writeBgPalette value) s = .ok s' ∨
      writePaletteData write gpuSpritePaletteIndex (writeSpritePalette value) s = .ok s' ∨
      writeDmaOam write value s = .ok s' ∨
      (address = gpuDmaMode ∧ writeDmaMode write value s = .ok s') ∨
      (address = serialControlAddress ∧ s' = writeSerialControl value s) := by
  unfold writeIo at h
  rcases ite_eq_iff.mp h with ⟨hstatus, h⟩ | ⟨hne, h⟩
  · exact .inl ⟨hstatus, (Except.ok.inj h).symm⟩
  refine .inr ?_
  rcases ite_eq_iff.mp h with ⟨-, h⟩ | ⟨-, h⟩
  · exact .inl ⟨hne, _, (Except.ok.inj h).symm⟩
  rcases ite_eq_iff.mp h with ⟨-, h⟩ | ⟨-, h⟩
  · exact .inl ⟨hne, _, (Except.ok.inj h).symm⟩
  rcases ite_eq_iff.mp h with ⟨-, h⟩ | ⟨-, h⟩
  · exact .inl ⟨hne, _, (Except.ok.inj h).symm⟩
  rcases ite_eq_iff.mp h with ⟨-, h⟩ | ⟨-, h⟩
  · exact .inl ⟨hne, _, (Except.ok.inj h).symm⟩
  rcases ite_eq_iff.mp h with ⟨-, h⟩ | ⟨-, h⟩
  · exact .inr (.inl (Except.ok.inj h).symm)
  rcases ite_eq_iff.mp h with ⟨-, h⟩ | ⟨-, h⟩
  · exact .inr (.inr (.inl h))
  rcases ite_eq_iff.mp h with ⟨-, h⟩ | ⟨-, h⟩
  · exact .inr (.inr (.inr (.inl h)))
  rcases ite_eq_iff.mp h with ⟨-, h⟩ | ⟨-, h⟩
  · exact .inr (.inr (.inr (.inr (.inl h))))
  rcases ite_eq_iff.mp h with ⟨hmode, h⟩ | ⟨-, h⟩
  · exact .inr (.inr (.inr (.inr (.inr (.inl ⟨hmode, h⟩)))))
  rcases ite_eq_iff.mp h with ⟨hserial, h⟩ | ⟨-, h⟩
  · exact .inr (.inr (.inr (.inr (.inr (.inr ⟨hserial, (Except.ok.inj h).symm⟩)))))
  exact .inl ⟨hne, _, (Except.ok.inj h).symm⟩

end GbEmu.Bus
