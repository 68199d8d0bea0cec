import Mathlib.Tactic.IntervalCases
import GbEmu.Bus.OamDma

/-!
The general-purpose DMA into VRAM. The transfer starts only when bit 7 of FF55 is
clear, which the transfer before it leaves set; it uses the upper bits of FF53
instead of forcing the destination into VRAM; and, as OAM DMA, it reads its source
through `read`.
-/

namespace GbEmu.Bus

/-- `((FF53 << 8) | FF54) & 0x1FF0`, the offset into VRAM that a request names. -/
def vramTarget (s : Bus) : Nat :=
  let dest := ((s.io gpuDmaDestHigh).toUInt16 <<< (8 : UInt16)) ||| (s.io gpuDmaDestLow).toUInt16
  (dest &&& 0x1FF0).toNat

def dmaSourceAt (s : Bus) (i : Nat) : UInt16 := s.dmaSource + UInt16.ofNat i

def dmaDestAt (s : Bus) (i : Nat) : UInt16 := s.dmaDest + UInt16.ofNat i

/-- The requested bytes are in the selected bank and FF55 reads 0xFF; nothing else changed. -/
structure DmaCopied (s : Bus) (value : UInt8) (s' : Bus) : Prop where
  copied : ∀ i < dmaLength value,
    s.peek (s.dmaSourceAt i) = .ok (s'.gpu.memory s.vramBank (s.vramTarget + i))
  kept : ∀ bank index, (bank = s.vramBank → ∀ i < dmaLength value, index ≠ s.vramTarget + i) →
    s'.gpu.memory bank index = s.gpu.memory bank index
  mode : s'.peek gpuDmaMode = .ok 0xFF
  rest : s' = (s.withVram s'.gpu.memory).setIo gpuDmaMode (s'.io gpuDmaMode)

def DmaHonoured (s : Bus) (value : UInt8) : Prop :=
  ∃ depth s', write depth s gpuDmaMode value = .ok s' ∧ DmaCopied s value s'

/-- Bit 7 of FF55 is clear, FF53 itself points into VRAM and the source is readable. -/
structure DmaReady (s : Bus) (value : UInt8) : Prop where
  started : s.io gpuDmaMode &&& 0x80 = 0
  inVram : s.io gpuDmaDestHigh &&& 0xE0 = 0x80
  readable : ∀ i < dmaLength value, s.Readable (s.dmaSourceAt i)

theorem toNat_and_F0 (x : UInt8) : (x &&& 0xF0).toNat = x.toNat / 16 * 16 := by
  have hb : x &&& 0xF0 = (x >>> (4 : UInt8)) <<< (4 : UInt8) := by
    apply UInt8.toBitVec_inj.mp
    ext i hi
    interval_cases i <;> simp
  rw [hb, BitField.toNat_shiftRight_shiftLeft x 4 (by decide)]
  rfl

theorem toNat_and_E0 (x : UInt8) : (x &&& 0xE0).toNat = x.toNat / 32 * 32 := by
  have hb : x &&& 0xE0 = (x >>> (5 : UInt8)) <<< (5 : UInt8) := by
    apply UInt8.toBitVec_inj.mp
    ext i hi
    interval_cases i <;> simp
  rw [hb, BitField.toNat_shiftRight_shiftLeft x 5 (by decide)]
  rfl

theorem toNat_and_1F (x : UInt8) : (x &&& 0x1F).toNat = x.toNat % 32 := by
  rw [UInt8.toNat_and]
  exact Nat.and_two_pow_sub_one_eq_mod x.toNat 5

theorem dmaAddress_toNat (hi lo : UInt8) :
    (dmaAddress hi lo).toNat = hi.toNat * 256 + lo.toNat / 16 * 16 := by
  have hb : dmaAddress hi lo = (hi.toUInt16 <<< (8 : UInt16)) ||| (lo &&& 0xF0).toUInt16 := by
    unfold dmaAddress
    apply UInt16.toBitVec_inj.mp
    ext i hi'
    interval_cases i <;> simp
  rw [hb, BitField.toNat_join, toNat_and_F0]

theorem vramTarget_eq (s : Bus) : s.vramTarget = s.dmaDest.toNat % 0x2000 := by
  have hb : ∀ hi lo : UInt8, ((hi.toUInt16 <<< (8 : UInt16)) ||| lo.toUInt16) &&& 0x1FF0 =
      ((hi &&& 0x1F).toUInt16 <<< (8 : UInt16)) ||| (lo &&& 0xF0).toUInt16 := by
    intro hi lo
    apply UInt16.toBitVec_inj.mp
    ext i hi'
    interval_cases i <;> simp
  have hlo := (s.io gpuDmaDestLow).toNat_lt
  simp only [vramTarget, dmaDest]
  rw [hb, BitField.toNat_join, toNat_and_F0, toNat_and_1F, dmaAddress_toNat]
  omega

/-- The upper three bits of FF53 choose one of eight blocks of 8 KiB. -/
theorem dest_block_iff (s : Bus) :
    s.io gpuDmaDestHigh &&& 0xE0 = 0x80 ↔ s.dmaDest.toNat / 0x2000 = 4 := by
  have hlo := (s.io gpuDmaDestLow).toNat_lt
  rw [← UInt8.toNat_inj, toNat_and_E0, dmaDest, dmaAddress_toNat]
  simp only [UInt8.toNat_ofNat, Nat.reducePow, Nat.reduceMod]
  omega


theorem dmaLength_le (value : UInt8) : dmaLength value ≤ 0x1000 := by
  have := value.toNat_lt
  unfold dmaLength
  omega

theorem dmaDestAt_toNat {s : Bus} {n i : Nat} (hv : s.io gpuDmaDestHigh &&& 0xE0 = 0x80)
    (hb : s.vramTarget + n ≤ gpuRamSize) (hi : i < n) :
    (s.dmaDestAt i).toNat = gpuRamOffset + (s.vramTarget + i) := by
  rw [dest_block_iff] at hv
  rw [vramTarget_eq] at hb ⊢
  simp only [gpuRamSize] at hb
  simp [dmaDestAt]
  omega

/-- The write of the register starts the loop, or clears the register. -/
theorem write_dmaMode (depth : Nat) (s : Bus) (value : UInt8) :
    write (depth + 1) s gpuDmaMode value = writeDmaMode (write depth) value s := by
  rw [write_io _ _ (by rw [find_io_iff]; decide)]
  rfl

theorem write_dmaMode_started {s : Bus} (hs : s.io gpuDmaMode &&& 0x80 = 0) (depth : Nat)
    (value : UInt8) :
    write (depth + 1) s gpuDmaMode value =
      (copy (write depth) s.dmaSource s.dmaDest (dmaLength value) s).map
        fun t => t.setIo gpuDmaMode 0xFF := by
  rw [write_dmaMode, writeDmaMode]
  simp only [hs, if_true]

theorem write_dmaMode_busy {s : Bus} (hs : s.io gpuDmaMode &&& 0x80 ≠ 0) (depth : Nat)
    (value : UInt8) : write (depth + 1) s gpuDmaMode value = .ok (s.setIo gpuDmaMode 0) := by
  have hz : s.io gpuDmaMode &&& 0x80 &&& (value &&& 0x7F) = 0 := by
    rw [UInt8.and_comm value, ← UInt8.and_assoc, UInt8.and_assoc (s.io gpuDmaMode),
      show (0x80 : UInt8) &&& 0x7F = 0 from rfl, UInt8.and_zero, UInt8.zero_and]
  rw [write_dmaMode, writeDmaMode]
  simp only [hs, if_false, hz]

theorem peek_dmaMode (s : Bus) : s.peek gpuDmaMode = .ok (s.io gpuDmaMode) := by
  have hf : s.find gpuDmaMode = some .io := by
    rw [find_io_iff]
    decide
  simp only [peek, hf, readRegion, readIo]
  rfl

/-- After a transfer the next request finds bit 7 set and copies nothing. -/
theorem not_dmaCopied_of_busy {depth : Nat} {s s' : Bus} {value : UInt8}
    (hs : s.io gpuDmaMode &&& 0x80 ≠ 0) (hw : write depth s gpuDmaMode value = .ok s') :
    ¬ DmaCopied s value s' := by
  intro hc
  match depth with
  | 0 => cases hw
  | depth + 1 =>
    rw [write_dmaMode_busy hs, Except.ok.injEq] at hw
    have hm := hc.mode
    rw [peek_dmaMode, ← hw, Except.ok.injEq] at hm
    simp [setIo] at hm

/-! ## A destination in VRAM -/

/-- The state with another row of the selected bank. -/
def withVramRow (s : Bus) (row : Nat → UInt8) : Bus :=
  s.withVram (Function.update s.gpu.memory s.vramBank row)

theorem withVramRow_self (s : Bus) : s.withVramRow (s.gpu.memory s.vramBank) = s := by
  rw [withVramRow, Function.update_eq_self, withVram_memory]

theorem dma_passes {s : Bus} {n : Nat} (hv : s.io gpuDmaDestHigh &&& 0xE0 = 0x80)
    (hb : s.vramTarget + n ≤ gpuRamSize) (hsrc : ∀ i < n, s.find (s.dmaSourceAt i) ≠ some .gpu)
    (depth : Nat) :
    Copy.Passes (copyByte (write (depth + 1)) s.dmaSource s.dmaDest) s.withVramRow
      (s.gpu.memory s.vramBank) (fun i => s.read (s.dmaSourceAt i)) (s.vramTarget + ·) n := by
  intro i hi row _
  have hto := dmaDestAt_toNat hv hb hi
  have hdest : (s.withVramRow row).find (s.dmaDestAt i) = some .gpu := by
    rw [find_gpu_iff, hto]
    simp only [gpuRamOffset, gpuRamSize] at *
    omega
  change ((s.withVramRow row).read (s.dmaSourceAt i)).bind
      (fun byte => write (depth + 1) (s.withVramRow row) (s.dmaDestAt i) byte) =
    (s.read (s.dmaSourceAt i)).map
      fun byte => s.withVramRow (Function.update row (s.vramTarget + i) byte)
  rw [withVramRow, read_withVram s _ (hsrc i hi), ← withVramRow]
  cases s.read (s.dmaSourceAt i) with
  | error e => rfl
  | ok byte =>
    simp only [Except.bind, Except.map]
    rw [write_gpu _ depth hdest, writeGpu, hto, Nat.add_sub_cancel_left]
    have hbank : (s.withVramRow row).vramBank = s.vramBank := rfl
    have hmem : (s.withVramRow row).gpu.memory = Function.update s.gpu.memory s.vramBank row := rfl
    rw [hbank, hmem, Function.update_self, Function.update_idem]
    rfl

theorem dmaTarget_injOn (s : Bus) (n : Nat) :
    ∀ i < n, ∀ j < n, s.vramTarget + i = s.vramTarget + j → i = j :=
  fun _ _ _ _ h => Nat.add_left_cancel h

theorem dma_copy_run (s : Bus) (depth n : Nat) :
    copy (write depth) s.dmaSource s.dmaDest n s =
      Run.run (copyByte (write depth) s.dmaSource s.dmaDest)
        (s.withVramRow (s.gpu.memory s.vramBank)) (List.range n) := by
  rw [withVramRow_self]
  rfl

section Started

variable {s : Bus} {value : UInt8} (hs : s.io gpuDmaMode &&& 0x80 = 0)
  (hv : s.io gpuDmaDestHigh &&& 0xE0 = 0x80)
  (hb : s.vramTarget + dmaLength value ≤ gpuRamSize)
  (hsrc : ∀ i < dmaLength value, s.find (s.dmaSourceAt i) ≠ some .gpu)

include hs hv hb hsrc

theorem readable_of_dmaCopied {depth : Nat} {s' : Bus}
    (hw : write depth s gpuDmaMode value = .ok s') (hc : DmaCopied s value s') :
    ∀ i < dmaLength value, s.Readable (s.dmaSourceAt i) := by
  have hpos : 0 < dmaLength value := by
    unfold dmaLength
    omega
  intro i hi
  match depth with
  | 0 => cases hw
  | 1 =>
    rw [write_dmaMode_started hs] at hw
    obtain ⟨t, hrun, -⟩ := Run.map_eq_ok.mp hw
    exact absurd hrun (copy_zero_ne_ok _ _ hpos s t)
  | depth + 2 =>
    rw [write_dmaMode_started hs, dma_copy_run] at hw
    obtain ⟨t, hrun, hset⟩ := Run.map_eq_ok.mp hw
    obtain ⟨row, rfl, hread, -⟩ :=
      (Copy.run_eq_ok_iff (dma_passes hv hb hsrc depth) (s.dmaTarget_injOn _) t).mp hrun
    have hmem : s'.gpu.memory s.vramBank = row := by
      rw [← hset]
      exact Function.update_self _ _ _
    have hpeek := hc.copied i hi
    rw [hmem] at hpeek
    exact (readable_iff _ _).mpr ⟨_, hread i hi, hpeek⟩

theorem dmaCopied_of_readable (h : ∀ i < dmaLength value, s.Readable (s.dmaSourceAt i)) :
    s.DmaHonoured value := by
  simp only [readable_iff] at h
  have hinj := s.dmaTarget_injOn (dmaLength value)
  obtain ⟨t, ht⟩ := (Copy.exists_run_ok_iff (dma_passes hv hb hsrc 0) hinj).mpr
    fun i hi => (h i hi).imp fun _ hb => hb.1
  obtain ⟨row, rfl, hread, hkept⟩ :=
    (Copy.run_eq_ok_iff (dma_passes hv hb hsrc 0) hinj t).mp ht
  have hrow : ((s.withVramRow row).setIo gpuDmaMode 0xFF).gpu.memory s.vramBank = row :=
    Function.update_self _ _ _
  refine ⟨2, (s.withVramRow row).setIo gpuDmaMode 0xFF, ?_, fun i hi => ?_, ?_, ?_, ?_⟩
  · rw [write_dmaMode_started hs, dma_copy_run, ht]
    rfl
  · obtain ⟨byte, hr, hp⟩ := h i hi
    rw [hp, ← hr, hrow]
    exact hread i hi
  · intro bank index hout
    by_cases hbank : bank = s.vramBank
    · rw [hbank, hrow]
      exact hkept index (hout hbank)
    · exact congrFun (Function.update_of_ne hbank row s.gpu.memory) index
  · rw [peek_dmaMode]
    simp [setIo]
  · simp only [setIo, Function.update_self]
    rfl

end Started

/-! ## A destination outside VRAM -/

/-- Registers and VRAM that a write to `address` leaves alone. -/
structure Spares (address : UInt16) (s s' : Bus) : Prop where
  vram : s.find address ≠ some .gpu → s'.gpu.memory = s.gpu.memory
  io : ∀ r, r ≠ address → r ≠ gpuBgPaletteIndex → r ≠ gpuSpritePaletteIndex → s'.io r = s.io r

theorem writeRegion_spares {s s' : Bus} {r : Region} {address : UInt16} {value : UInt8}
    (hf : s.find address = some r) (hr : r ≠ .io) (h : s.writeRegion r address value = .ok s') :
    Spares address s s' := by
  rcases writeRegion_cases hr h with
    rfl | ⟨c, rfl⟩ | ⟨m, rfl⟩ | ⟨m, rfl⟩ | ⟨m, rfl⟩ | ⟨rfl, rfl⟩
  all_goals try exact ⟨fun _ => rfl, fun _ _ _ _ => rfl⟩
  exact ⟨fun hg => absurd hf hg, fun _ _ _ _ => rfl⟩

theorem setIo_spares (s : Bus) (address : UInt16) (value : UInt8) :
    Spares address s (s.setIo address value) :=
  ⟨fun _ => rfl, fun _ hr _ _ => Function.update_of_ne hr _ _⟩

/-- A register without a special case is stored as it is. -/
theorem write_paletteIndex {depth : Nat} {s s' : Bus} {index : UInt16} {value : UInt8}
    (hi : index = gpuBgPaletteIndex ∨ index = gpuSpritePaletteIndex)
    (h : write depth s index value = .ok s') : s' = s.setIo index value := by
  match depth with
  | 0 => cases h
  | depth + 1 =>
    rcases hi with rfl | rfl
    all_goals
      rw [write_io _ _ (by rw [find_io_iff]; decide)] at h
      exact (Except.ok.inj h).symm

theorem writePaletteData_spares {depth : Nat} {s s' : Bus} {index address : UInt16}
    {store : Bus → UInt8 → Bus} (hi : index = gpuBgPaletteIndex ∨ index = gpuSpritePaletteIndex)
    (hstore : ∀ s i, (store s i).gpu.memory = s.gpu.memory ∧ (store s i).io = s.io)
    (h : writePaletteData (write depth) index store s = .ok s') : Spares address s s' := by
  simp only [writePaletteData] at h
  obtain ⟨hmem, hio⟩ := hstore s (s.io index &&& 0x3F)
  split_ifs at h with hp
  · rw [write_paletteIndex hi h]
    refine ⟨fun _ => hmem, fun r _ hr hr' => ?_⟩
    have hne : r ≠ index := by
      rcases hi with rfl | rfl
      · exact hr
      · exact hr'
    exact (Function.update_of_ne hne _ _).trans (congrFun hio r)
  · rw [← Except.ok.inj h]
    exact ⟨fun _ => hmem, fun r _ _ _ => congrFun hio r⟩

theorem writeSerialControl_spares (value : UInt8) (s : Bus) :
    Spares serialControlAddress s (writeSerialControl value s) := by
  unfold writeSerialControl
  simp only
  split_ifs with hv
  · exact ⟨fun _ => rfl, fun _ hr _ _ => Function.update_of_ne hr _ _⟩
  · exact setIo_spares _ _ _

/-- Only the register FF55 reaches further than its own cell, the palette indices and OAM. -/
theorem write_spares {depth : Nat} {s s' : Bus} {address : UInt16} {value : UInt8}
    (ha : address ≠ gpuDmaMode) (h : write depth s address value = .ok s') :
    Spares address s s' := by
  match depth with
  | 0 => cases h
  | depth + 1 =>
    obtain ⟨r, hr⟩ := s.find_isSome address
    by_cases hio : r = .io
    · rw [write_io s depth (hio ▸ hr)] at h
      rcases writeIo_cases h with
        ⟨-, rfl⟩ | ⟨-, v, rfl⟩ | rfl | hp | hp | ho | ⟨e, -⟩ | ⟨rfl, rfl⟩
      · exact setIo_spares _ _ _
      · exact setIo_spares _ _ _
      · exact ⟨fun _ => rfl, fun _ _ _ _ => rfl⟩
      · refine writePaletteData_spares (.inl rfl) ?_ hp
        exact fun _ _ => ⟨rfl, rfl⟩
      · refine writePaletteData_spares (.inr rfl) ?_ hp
        exact fun _ _ => ⟨rfl, rfl⟩
      · rw [← write_dmaOam] at ho
        obtain ⟨m, rfl, -⟩ := oamDma_reads ho
        exact ⟨fun _ => rfl, fun _ _ _ _ => rfl⟩
      · exact absurd e ha
      · exact writeSerialControl_spares value s
    · simp only [write, hr] at h
      split_ifs at h with hw
      · exact writeRegion_spares hr hio h
      · rw [← Except.ok.inj h]
        exact ⟨fun _ => rfl, fun _ _ _ _ => rfl⟩

theorem Spares.dmaDest {address : UInt16} {s s' : Bus} (h : Spares address s s')
    (hh : address ≠ gpuDmaDestHigh) (hl : address ≠ gpuDmaDestLow) : s'.dmaDest = s.dmaDest := by
  unfold Bus.dmaDest
  rw [h.io _ hh.symm (by decide) (by decide), h.io _ hl.symm (by decide) (by decide)]

def InVram (address : UInt16) : Prop := 0x8000 ≤ address.toNat ∧ address.toNat < 0xA000

/-- A transfer whose destination starts here can touch VRAM. -/
def NearVram (address : UInt16) : Prop := 0x7000 < address.toNat ∧ address.toNat < 0xA000

theorem copy_dmaDest {depth n : Nat} {source dest : UInt16} {s t : Bus}
    (hlow : ∀ i < n, (dest + UInt16.ofNat i).toNat < 0xFF00)
    (h : copy (write depth) source dest n s = .ok t) : t.dmaDest = s.dmaDest := by
  refine Run.run_range (P := fun _ u => u.dmaDest = s.dmaDest) h rfl fun i u u' hi hu hstep => ?_
  obtain ⟨byte, -, hw⟩ := copyByte_ok hstep
  have hne : ∀ r : UInt16, 0xFF00 ≤ r.toNat → dest + UInt16.ofNat i ≠ r := by
    rintro r hr rfl
    have := hlow i hi
    omega
  have hspare := write_spares (hne _ (by decide)) hw
  rw [hspare.dmaDest (hne _ (by decide)) (hne _ (by decide)), hu]

section Reach

variable {depth : Nat} (hmode : ∀ (u u' : Bus) v, write depth u gpuDmaMode v = .ok u' →
  u'.gpu.memory = u.gpu.memory ∨ NearVram u'.dmaDest)

include hmode

/-- A copy beside VRAM can change it only through FF55; the destination registers
come before FF55, so the pass leaves them as that nested transfer found them. -/
theorem copy_reaches {n : Nat} {source dest : UInt16} {s t : Bus} (hn : n ≤ 0x1000)
    (hvram : ∀ i < n, ¬ InVram (dest + UInt16.ofNat i))
    (h : copy (write depth) source dest n s = .ok t) :
    t.gpu.memory = s.gpu.memory ∨
      (NearVram t.dmaDest ∧ ∃ k < n, dest + UInt16.ofNat k = gpuDmaMode) := by
  refine Run.run_range (P := fun m u => u.gpu.memory = s.gpu.memory ∨
    (NearVram u.dmaDest ∧ ∃ k < m, dest + UInt16.ofNat k = gpuDmaMode)) h (.inl rfl) ?_
  intro i u u' hi hu hstep
  obtain ⟨byte, -, hw⟩ := copyByte_ok hstep
  by_cases ha : dest + UInt16.ofNat i = gpuDmaMode
  · rw [ha] at hw
    rcases hmode u u' byte hw with hmem | hnear
    · rcases hu with hu | ⟨-, k, hk, hkey⟩
      · exact .inl (hmem.trans hu)
      · have hlt := dest.toNat_lt
        have hsame := congrArg UInt16.toNat (hkey.trans ha.symm)
        simp at hsame
        omega
    · exact .inr ⟨hnear, i, Nat.lt_succ_self i, ha⟩
  · have hspare := write_spares ha hw
    have hmem : u'.gpu.memory = u.gpu.memory := by
      refine hspare.vram ?_
      rw [Ne, find_gpu_iff]
      exact hvram i hi
    rcases hu with hu | ⟨hnear, k, hk, hkey⟩
    · exact .inl (hmem.trans hu)
    · have hne : ∀ r : UInt16, r = gpuDmaDestHigh ∨ r = gpuDmaDestLow →
          dest + UInt16.ofNat i ≠ r := by
        intro r hr hi'
        have hlt := dest.toNat_lt
        have h1 := congrArg UInt16.toNat hkey
        have h2 := congrArg UInt16.toNat hi'
        rcases hr with rfl | rfl
        all_goals
          simp at h1 h2
          omega
      rw [← hspare.dmaDest (hne _ (.inl rfl)) (hne _ (.inr rfl))] at hnear
      exact .inr ⟨hnear, k, Nat.lt_succ_of_lt hk, hkey⟩

end Reach

/-- Whatever transfers a write of FF55 nests, VRAM is kept unless the destination
registers end up close to it. -/
theorem write_dmaMode_reaches {depth : Nat} (s s' : Bus) (value : UInt8)
    (h : write depth s gpuDmaMode value = .ok s') :
    s'.gpu.memory = s.gpu.memory ∨ NearVram s'.dmaDest := by
  induction depth generalizing s s' value with
  | zero => cases h
  | succ depth ih =>
    by_cases hs : s.io gpuDmaMode &&& 0x80 = 0
    · rw [write_dmaMode_started hs] at h
      obtain ⟨t, hc, hset⟩ := Run.map_eq_ok.mp h
      have hdest : s'.dmaDest = t.dmaDest := by
        rw [← hset]
        exact (setIo_spares t gpuDmaMode 0xFF).dmaDest (by decide) (by decide)
      have hmem : s'.gpu.memory = t.gpu.memory := by
        rw [← hset]
        rfl
      have hlen := dmaLength_le value
      rw [hdest, hmem]
      by_cases hnear : NearVram s.dmaDest
      · refine .inr ?_
        rw [copy_dmaDest (fun i hi => ?_) hc]
        · exact hnear
        · have hlt := hnear.2
          simp
          omega
      · refine (copy_reaches ih hlen (fun i hi hin => hnear ?_) hc).imp_right And.left
        have hlt := s.dmaDest.toNat_lt
        simp only [InVram, NearVram] at hin ⊢
        simp at hin
        omega
    · rw [write_dmaMode_busy hs] at h
      exact .inl (Except.ok.inj h ▸ rfl)

/-- With its upper bits elsewhere, the destination leaves VRAM as it was. -/
theorem vram_kept_of_outside {depth : Nat} {s s' : Bus} {value : UInt8}
    (hs : s.io gpuDmaMode &&& 0x80 = 0) (hout : s.io gpuDmaDestHigh &&& 0xE0 ≠ 0x80)
    (hb : s.vramTarget + dmaLength value ≤ gpuRamSize)
    (hw : write depth s gpuDmaMode value = .ok s') (hdest : s'.dmaDest = s.dmaDest) :
    s'.gpu.memory = s.gpu.memory := by
  rcases write_dmaMode_reaches s s' value hw with h | hnear
  · exact h
  · match depth with
    | 0 => cases hw
    | depth + 1 =>
      rw [write_dmaMode_started hs] at hw
      obtain ⟨t, hc, hset⟩ := Run.map_eq_ok.mp hw
      -- The whole destination lies in the block below VRAM.
      have hbelow : ∀ i < dmaLength value, (s.dmaDest + UInt16.ofNat i).toNat < 0x8000 := by
        intro i hi
        rw [Ne, dest_block_iff] at hout
        rw [vramTarget_eq] at hb
        rw [hdest] at hnear
        have h1 := hnear.1
        have h2 := hnear.2
        simp only [gpuRamSize] at hb
        simp
        omega
      have hmem : t.gpu.memory = s.gpu.memory := by
        refine (copy_reaches (fun u u' v => write_dmaMode_reaches u u' v) (dmaLength_le value)
          (fun i hi hin => ?_) hc).resolve_right ?_
        · have := hbelow i hi
          have := hin.1
          omega
        · rintro ⟨-, k, hk, hkey⟩
          have := hbelow k hk
          rw [hkey] at this
          exact absurd this (by decide)
      rw [← hset, ← hmem]
      rfl

/-! ## Requests that are honoured -/

theorem find_ne_gpu {s : Bus} {address : UInt16} (h : ¬ InVram address) :
    s.find address ≠ some .gpu := by
  rw [Ne, find_gpu_iff]
  exact h

theorem readable_withVram (s : Bus) (m : Nat → Nat → UInt8) {address : UInt16}
    (h : ¬ InVram address) : (s.withVram m).Readable address ↔ s.Readable address := by
  rw [readable_iff, readable_iff, read_withVram s m (find_ne_gpu h),
    peek_withVram s m (find_ne_gpu h)]

theorem DmaCopied.dmaDest {s s' : Bus} {value : UInt8} (h : DmaCopied s value s') :
    s'.dmaDest = s.dmaDest := by
  rw [h.rest]
  exact (setIo_spares (s.withVram s'.gpu.memory) _ _).dmaDest (by decide) (by decide)

/-- **A request outside VRAM is honoured, whatever VRAM holds, exactly when bit 7 of
FF55 is clear, FF53 itself points into VRAM and every source byte is readable.** -/
theorem dma_honoured_iff {s : Bus} {value : UInt8}
    (hsrc : ∀ i < dmaLength value, ¬ InVram (s.dmaSourceAt i))
    (hb : s.vramTarget + dmaLength value ≤ gpuRamSize) :
    (∀ memory, (s.withVram memory).DmaHonoured value) ↔ s.DmaReady value := by
  constructor
  · intro h
    have hs : s.io gpuDmaMode &&& 0x80 = 0 := by
      by_contra hbusy
      obtain ⟨depth, s', hw, hc⟩ := h s.gpu.memory
      exact not_dmaCopied_of_busy hbusy hw hc
    have hv : s.io gpuDmaDestHigh &&& 0xE0 = 0x80 := by
      by_contra hout
      -- The first source byte would have to be in VRAM already, whatever VRAM holds.
      have hfirst : ∀ byte : UInt8, s.peek (s.dmaSourceAt 0) = .ok byte := by
        intro byte
        have hpos : 0 < dmaLength value := by
          unfold dmaLength
          omega
        obtain ⟨depth, s', hw, hc⟩ := h fun _ _ => byte
        have hpeek := hc.copied 0 hpos
        rw [vram_kept_of_outside (s := s.withVram fun _ _ => byte) hs hout hb hw hc.dmaDest]
          at hpeek
        exact (peek_withVram s _ (find_ne_gpu (hsrc 0 hpos))).symm.trans hpeek
      exact absurd (Except.ok.inj ((hfirst 0).symm.trans (hfirst 1))) (by decide)
    obtain ⟨depth, s', hw, hc⟩ := h s.gpu.memory
    exact ⟨hs, hv, readable_of_dmaCopied hs hv hb (fun i hi => find_ne_gpu (hsrc i hi)) hw hc⟩
  · rintro ⟨hs, hv, hread⟩ memory
    exact dmaCopied_of_readable (s := s.withVram memory) hs hv hb
      (fun i hi => find_ne_gpu (hsrc i hi))
      fun i hi => (readable_withVram s memory (hsrc i hi)).mpr (hread i hi)

/-- A console without a cartridge, after a request to copy 16 bytes of work RAM is set up. -/
def dmaRequested : Bus :=
  (bareConsole.setIo gpuDmaSrcHigh 0xC0).setIo gpuDmaDestHigh 0x80

theorem dmaRequested_source {i : Nat} (hi : i < dmaLength 0) :
    (dmaRequested.dmaSourceAt i).toNat = 0xC000 + i := by
  have hlen : dmaLength 0 = 16 := rfl
  have hsrc : dmaRequested.dmaSource = 0xC000 := by rfl
  rw [dmaSourceAt, hsrc]
  simp
  omega

theorem dmaRequested_outside (i : Nat) (hi : i < dmaLength 0) :
    ¬ InVram (dmaRequested.dmaSourceAt i) := by
  intro hin
  have hto := dmaRequested_source hi
  have := hin.2
  omega

theorem dmaRequested_ready : dmaRequested.DmaReady 0 := by
  refine ⟨by rfl, by rfl, fun i hi => ?_⟩
  have hto := dmaRequested_source hi
  have hlen : dmaLength 0 = 16 := rfl
  have hf : dmaRequested.find (dmaRequested.dmaSourceAt i) = some .working := by
    rw [find_eq_some_iff _ (by decide) (by decide), regionOf]
    split_ifs <;> simp <;> omega
  have hcart : dmaRequested.find (dmaRequested.dmaSourceAt i) ≠ some .cartridge := by
    rw [hf]
    decide
  rw [Readable, if_neg hcart]
  simp only [peek, hf, readRegion, readWorking, workingBank]
  exact ⟨_, rfl⟩

/-- One store of the program. -/
def Store (s t : Bus) : Prop := ∃ depth address value, write depth s address value = .ok t

theorem store_register (s : Bus) {address : UInt16} (value : UInt8)
    (h : s.find address = some .io)
    (hio : writeIo (write 0) s address value = .ok (s.setIo address value)) :
    Store s (s.setIo address value) :=
  ⟨1, address, value, (write_io s 0 h value).trans hio⟩

theorem dmaRequested_reachable :
    Relation.ReflTransGen Store (powerOn true ⟨[], by decide⟩ none none) dmaRequested := by
  refine (Relation.ReflTransGen.single (store_register _ 0xC0 ?_ rfl)).tail
    (store_register _ 0x80 ?_ rfl)
  · rw [find_io_iff]
    decide
  · rw [find_io_iff]
    decide

theorem dma_honoured_iff_requested :
    (∀ memory, (dmaRequested.withVram memory).DmaHonoured 0) ↔ dmaRequested.DmaReady 0 :=
  dma_honoured_iff dmaRequested_outside (by decide)

/-- The same request made twice in a row is not honoured the second time. -/
theorem dma_second_request_ignored :
    ¬ ∀ (s : Bus) (value : UInt8),
      Relation.ReflTransGen Store (powerOn true ⟨[], by decide⟩ none none) s →
      value &&& 0x80 = 0 → (∀ i < dmaLength value, ¬ InVram (s.dmaSourceAt i)) →
      s.vramTarget + dmaLength value ≤ gpuRamSize → s.DmaHonoured value := by
  intro hall
  have hready := dmaRequested_ready
  obtain ⟨depth, s', hw, hc⟩ := dmaCopied_of_readable hready.started hready.inVram (by decide)
    (fun i hi => find_ne_gpu (dmaRequested_outside i hi)) hready.readable
  have hbusy : s'.io gpuDmaMode &&& 0x80 ≠ 0 := by
    have hmode := hc.mode
    rw [peek_dmaMode, Except.ok.injEq] at hmode
    rw [hmode]
    decide
  have hsame : ∀ r, r ≠ gpuDmaMode → s'.io r = dmaRequested.io r := by
    intro r hr
    rw [hc.rest]
    exact Function.update_of_ne hr _ _
  have hsource : s'.dmaSourceAt = dmaRequested.dmaSourceAt := by
    unfold dmaSourceAt dmaSource
    rw [hsame _ (by decide), hsame _ (by decide)]
  have htarget : s'.vramTarget = dmaRequested.vramTarget := by
    unfold vramTarget
    rw [hsame _ (by decide), hsame _ (by decide)]
  obtain ⟨depth', s'', hw', hc'⟩ := hall s' 0
    (dmaRequested_reachable.tail ⟨depth, gpuDmaMode, 0, hw⟩) rfl
    (by rw [hsource]; exact dmaRequested_outside) (by rw [htarget]; decide)
  exact not_dmaCopied_of_busy hbusy hw' hc'

end GbEmu.Bus
