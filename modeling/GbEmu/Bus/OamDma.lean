import GbEmu.Bus.Frame
import GbEmu.Cartridge.Bounds
import GbEmu.Lib.Copy

/-!
OAM DMA. The transfer reads its source through `read`, which refuses the
cartridge, while a CPU load goes through `peek`.
-/

namespace GbEmu.Bus

/-! ## Readable addresses -/

/-- A transfer can read what the CPU would load from the address. -/
def Readable (s : Bus) (address : UInt16) : Prop :=
  if s.find address = some .cartridge then s.ndebug = true ∧ s.peek address = .ok dummy
  else ∃ byte, s.peek address = .ok byte

theorem readable_iff (s : Bus) (address : UInt16) :
    s.Readable address ↔ ∃ byte, s.read address = .ok byte ∧ s.peek address = .ok byte := by
  unfold Readable
  split_ifs with h
  · rw [s.read_cartridge h]
    unfold fatal
    cases hn : s.ndebug <;> simp
  · rw [s.read_eq_peek h]
    simp

/-! ## The copy loop -/

/-- Out of depth, a copy of at least one byte cannot finish. -/
theorem copy_zero_ne_ok (source dest : UInt16) {length : Nat} (h : 0 < length) (s s' : Bus) :
    copy (write 0) source dest length s ≠ .ok s' := by
  obtain ⟨n, rfl⟩ := Nat.exists_eq_succ_of_ne_zero (Nat.pos_iff_ne_zero.mp h)
  intro hc
  rw [copy, List.range_succ_eq_map, Run.run_cons_ok] at hc
  obtain ⟨t, ht, -⟩ := hc
  -- Its first pass already writes.
  obtain ⟨byte, -, hstore⟩ := copyByte_ok ht
  cases hstore

/-! ## OAM DMA -/

/-- Address `i` of the page. -/
def oamSource (page : UInt8) (i : Nat) : UInt16 := page.toUInt16 * 0x0100 + UInt16.ofNat i

def oamDest (i : Nat) : UInt16 := UInt16.ofNat graphicsRamOffset + UInt16.ofNat i

/-- The first 160 bytes of the page, as `peek` reads them, are in OAM; nothing else changed. -/
structure OamCopied (s : Bus) (page : UInt8) (s' : Bus) : Prop where
  copied : ∀ i < graphicsRamSize, s.peek (oamSource page i) = .ok (s'.oam (oamDest i))
  kept : ∀ address, (∀ i < graphicsRamSize, address ≠ oamDest i) → s'.oam address = s.oam address
  rest : s' = s.withOam s'.oam

theorem oamDest_toNat {i : Nat} (hi : i < 160) : (oamDest i).toNat = 0xFE00 + i := by
  simp [oamDest]
  omega

theorem oamDest_injective {i j : Nat} (hi : i < 160) (hj : j < 160) (h : oamDest i = oamDest j) :
    i = j := by
  have h' := congrArg UInt16.toNat h
  rw [oamDest_toNat hi, oamDest_toNat hj] at h'
  omega

theorem oamSource_toNat (page : UInt8) {i : Nat} (hi : i < 160) :
    (oamSource page i).toNat = page.toNat * 256 + i := by
  have := page.toNat_lt
  simp [oamSource]
  omega

/-- The page that contains OAM copies every byte onto itself. -/
theorem oamSource_eq_dest (s : Bus) (page : UInt8) {i : Nat} (hi : i < 160)
    (h : s.find (oamSource page i) = some .oam) : oamSource page i = oamDest i := by
  rw [find_oam_iff, oamSource_toNat page hi] at h
  apply UInt16.toNat_inj.mp
  rw [oamSource_toNat page hi, oamDest_toNat hi]
  omega

theorem find_oamDest (s : Bus) {i : Nat} (hi : i < 160) : s.find (oamDest i) = some .oam := by
  rw [find_oam_iff, oamDest_toNat hi]
  omega

theorem oam_passes (s : Bus) (page : UInt8) (depth : Nat) :
    Copy.Passes (copyByte (write (depth + 1)) (page.toUInt16 * 0x0100)
      (UInt16.ofNat graphicsRamOffset)) s.withOam s.oam (fun i => s.read (oamSource page i))
      oamDest graphicsRamSize := by
  intro i hi m hm
  have hread : (s.withOam m).read (oamSource page i) = s.read (oamSource page i) := by
    by_cases h : s.find (oamSource page i) = some .oam
    · have hkey : m (oamDest i) = s.oam (oamDest i) :=
        hm _ fun j hj e => absurd (oamDest_injective hi (Nat.lt_trans hj hi) e) (by omega)
      rw [read_oam (s.withOam m) h, read_oam s h, s.oamSource_eq_dest page hi h]
      exact congrArg _ hkey
    · exact read_withOam s m h
  change ((s.withOam m).read (oamSource page i)).bind
      (fun byte => write (depth + 1) (s.withOam m) (oamDest i) byte) =
    (s.read (oamSource page i)).map fun byte => s.withOam (Function.update m (oamDest i) byte)
  rw [hread]
  cases s.read (oamSource page i) with
  | error e => rfl
  | ok byte =>
    simp only [Except.bind, Except.map]
    rw [write_oam _ depth (find_oamDest _ hi)]
    rfl

theorem write_dmaOam (depth : Nat) (s : Bus) (page : UInt8) :
    write (depth + 1) s gpuDmaOam page = writeDmaOam (write depth) page s := by
  rw [write_io _ _ (by rw [find_io_iff]; decide)]
  rfl

theorem write_dmaOam_run (depth : Nat) (s : Bus) (page : UInt8) :
    write (depth + 2) s gpuDmaOam page =
      Run.run (copyByte (write (depth + 1)) (page.toUInt16 * 0x0100)
        (UInt16.ofNat graphicsRamOffset)) (s.withOam s.oam) (List.range graphicsRamSize) :=
  write_dmaOam (depth + 1) s page

theorem oamDest_injOn : ∀ i < graphicsRamSize, ∀ j < graphicsRamSize,
    oamDest i = oamDest j → i = j :=
  fun _ hi _ hj => oamDest_injective hi hj

/-- A finished OAM DMA has changed OAM only, and read every byte of the page. -/
theorem oamDma_reads {depth : Nat} {s s' : Bus} {page : UInt8}
    (hw : write depth s gpuDmaOam page = .ok s') :
    ∃ m, s' = s.withOam m ∧
      ∀ i < graphicsRamSize, s.read (oamSource page i) = .ok (m (oamDest i)) := by
  match depth with
  | 0 => cases hw
  | 1 =>
    rw [write_dmaOam] at hw
    exact absurd hw (copy_zero_ne_ok _ _ (by decide) s s')
  | depth + 2 =>
    rw [write_dmaOam_run, Copy.run_eq_ok_iff (oam_passes s page depth) oamDest_injOn] at hw
    obtain ⟨m, rfl, hv, -⟩ := hw
    exact ⟨m, rfl, hv⟩

theorem readable_of_oamCopied {depth : Nat} {s s' : Bus} {page : UInt8}
    (hw : write depth s gpuDmaOam page = .ok s') (hc : OamCopied s page s') :
    ∀ i < graphicsRamSize, s.Readable (oamSource page i) := by
  intro i hi
  obtain ⟨m, rfl, hread⟩ := oamDma_reads hw
  exact (readable_iff _ _).mpr ⟨_, hread i hi, hc.copied i hi⟩

theorem oamCopied_of_readable {s : Bus} {page : UInt8}
    (h : ∀ i < graphicsRamSize, s.Readable (oamSource page i)) :
    ∃ s', write 2 s gpuDmaOam page = .ok s' ∧ OamCopied s page s' := by
  simp only [readable_iff] at h
  obtain ⟨s', hs'⟩ := (Copy.exists_run_ok_iff (oam_passes s page 0) oamDest_injOn).mpr
    fun i hi => (h i hi).imp fun _ hb => hb.1
  obtain ⟨m, rfl, hv, hkept⟩ :=
    (Copy.run_eq_ok_iff (oam_passes s page 0) oamDest_injOn s').mp hs'
  refine ⟨_, (write_dmaOam_run 0 s page).trans hs', fun i hi => ?_, hkept, rfl⟩
  obtain ⟨byte, hread, hpeek⟩ := h i hi
  rw [hpeek, ← hread]
  exact hv i hi

/-- **OAM DMA copies the page the CPU sees exactly when every byte of it is readable.** -/
theorem oamDma_copies_iff (s : Bus) (page : UInt8) :
    (∃ depth s', write depth s gpuDmaOam page = .ok s' ∧ OamCopied s page s') ↔
      ∀ i < graphicsRamSize, s.Readable (oamSource page i) := by
  constructor
  · rintro ⟨depth, s', hw, hc⟩
    exact readable_of_oamCopied hw hc
  · intro h
    obtain ⟨s', hw, hc⟩ := oamCopied_of_readable h
    exact ⟨2, s', hw, hc⟩

/-- The header page of a cartridge is not copied, with or without assertions. -/
theorem oamDma_cartridge_page : ∃ c, Cartridge.load Cartridge.defaultHost
    (some Cartridge.headerImage) = .ok c ∧ c.valid = true ∧ ∀ ndebug depth s',
      write depth (powerOn ndebug ⟨[], by decide⟩ (some c) none) gpuDmaOam 0x01 = .ok s' →
        ¬ OamCopied (powerOn ndebug ⟨[], by decide⟩ (some c) none) 0x01 s' := by
  obtain ⟨c, m, hload, hv, hm, hb, -⟩ := Cartridge.load_headerImage
  refine ⟨c, hload, hv, fun ndebug depth s' hw hc => ?_⟩
  have hbyte : Cartridge.headerImage[0x100]? = some 0 := by decide
  have h := readable_of_oamCopied hw hc 0 (by decide)
  have hfind : (powerOn ndebug ⟨[], by decide⟩ (some c) none).find (oamSource 0x01 0) =
      some .cartridge := by
    rfl
  have hpeek : (powerOn ndebug ⟨[], by decide⟩ (some c) none).peek (oamSource 0x01 0) = .ok 0 := by
    have hcart : c.read (oamSource 0x01 0) = .ok 0 := by
      simp [Cartridge.read, hb, hm, oamSource, hbyte]
    simp only [peek, hfind, readRegion, readCartridge]
    rw [show (powerOn ndebug ⟨[], by decide⟩ (some c) none).cartridge = some c from rfl]
    simp only [hv, if_true, hcart]
  rw [Readable, if_pos hfind, hpeek] at h
  exact absurd (Except.ok.inj h.2) (by decide)

end GbEmu.Bus
