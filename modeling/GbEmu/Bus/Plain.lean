import GbEmu.Machine.Devices
import GbEmu.Machine.StackArea

/-!
The addresses at which the bus is plain memory: what is stored stays there, no device
changes it, and no other store is seen. ROM belongs to them for reading; the echo of work
RAM, external RAM, the registers with a meaning of their own and those that select a bank
do not.
-/

namespace GbEmu.Bus

open Run

/-- The registers of mapped IO that are more than a cell. -/
def boundRegisters : List UInt16 :=
  specialRegisters ++ deviceRegisters ++ [gpuBankSelectAddress, workingRamBankSelect]

def isPlain (address : UInt16) : Bool :=
  let a := address.toNat
  a < 0xA000 || (0xC000 ≤ a && a < 0xE000) || (0xFE00 ≤ a && a < 0xFEA0) ||
    (0xFF00 ≤ a && a < 0xFF80 && !boundRegisters.contains address) || 0xFF80 ≤ a

/-- The regions of the plain addresses. -/
inductive PlainIn (address : UInt16) : Region → Prop
  | bios : PlainIn address .bios
  | cartridge (h : address.toNat < 0x8000) : PlainIn address .cartridge
  | gpu (h : 0x8000 ≤ address.toNat ∧ address.toNat < 0xA000) : PlainIn address .gpu
  | working (h : StackArea.work.Contains address) : PlainIn address .working
  | oam : PlainIn address .oam
  | io (h : address ∉ boundRegisters) : PlainIn address .io
  | zero : PlainIn address .zero

variable {s s' : Bus} {a b : UInt16} {value old : UInt8}

theorem find_plain (s : Bus) (h : isPlain a = true) : ∃ r, s.find a = some r ∧ PlainIn a r := by
  by_cases hlow : a.toNat < 0x8000
  · rcases s.find_low hlow with hr | hr
    · exact ⟨_, hr, .bios⟩
    · exact ⟨_, hr, .cartridge hlow⟩
  · refine ⟨_, s.find_high (Nat.not_lt.mp hlow), ?_⟩
    simp only [isPlain, Bool.or_eq_true, Bool.and_eq_true, decide_eq_true_eq,
      Bool.not_eq_true'] at h
    unfold regionOf
    split_ifs with h1 h2 h3 h4 h5 h6
    · exact .gpu ⟨Nat.not_lt.mp hlow, h1⟩
    · omega
    · refine .working ⟨by simp only [StackArea.low]; omega, ?_⟩
      simp only [StackArea.limit]
      omega
    · exact .oam
    · omega
    · refine .io fun hmem => ?_
      have hin : boundRegisters.contains a = true := List.contains_iff_mem.mpr hmem
      rw [hin] at h
      simp only [Bool.true_eq_false, and_false, or_false] at h
      omega
    · exact .zero

/-- Where the BIOS is mapped decides which region an address belongs to. -/
theorem find_congr (hin : s'.inBios = s.inBios) (hbios : s'.bios = s.bios) (a : UInt16) :
    s'.find a = s.find a := by
  unfold find regions isAddressed
  rw [hin, hbios]

theorem find_kept (h : s.Kept s') (a : UInt16) : s'.find a = s.find a :=
  find_congr h.inBios (congrArg Memories.bios h.memories) a

theorem readIo_plain (h : a ∉ boundRegisters) : s.readIo a = s.io a := by
  unfold readIo
  rw [if_neg fun e => h (by rw [e]; decide), if_neg fun e => h (by rw [e]; decide)]

/-! ## A tick -/

/-- **A plain address reads as before a tick.** -/
theorem peek_plain_kept (h : s.Kept s') (hio : s.SparesRegisters s') (ha : isPlain a = true) :
    s'.peek a = s.peek a := by
  obtain ⟨r, hr, hplain⟩ := s.find_plain ha
  have hbios : s'.bios = s.bios := congrArg Memories.bios h.memories
  have hvram : s'.gpu.memory = s.gpu.memory := congrArg Memories.vram h.memories
  have hoam : s'.oam = s.oam := congrArg Memories.oam h.memories
  have hbank : s'.vramBank = s.vramBank := by
    unfold vramBank
    rw [hio _ (by decide)]
  unfold peek
  rw [find_kept h a, hr]
  cases hplain with
  | bios => simp only [readRegion, hbios]
  | cartridge => simp only [readRegion, readCartridge, h.cartridge]
  | gpu => simp only [readRegion, hbank, hvram]
  | working hwork =>
    have hpeek := StackArea.peek_kept h hwork
    rwa [peek, peek, find_kept h a, hr] at hpeek
  | oam => simp only [readRegion, hoam]
  | io hbound =>
    have hdevice : a ∉ deviceRegisters := fun hmem => hbound (by simp [boundRegisters, hmem])
    simp only [readRegion, readIo_plain hbound, hio a hdevice]
  | zero => simp only [readRegion, h.zero]

/-! ## A write -/

/-- `s'` is `s` with `value` at `a`, as far as plain addresses go. -/
structure Stored (s : Bus) (a : UInt16) (value : UInt8) (s' : Bus) : Prop where
  inBios : s'.inBios = s.inBios
  cartridge : s'.cartridge = s.cartridge
  peek : ∀ b, isPlain b = true → s'.peek b = if b = a then .ok value else s.peek b

/-- A store in one region that the reads of the others do not see. -/
theorem stored_of_region {r : Region} (hin : s'.inBios = s.inBios) (hbios : s'.bios = s.bios)
    (hcartridge : s'.cartridge = s.cartridge) (ha : s.find a = some r)
    (hsame : ∀ b, PlainIn b r → s.find b = some r →
      s'.readRegion r b = if b = a then .ok value else s.readRegion r b)
    (hother : ∀ r' b, PlainIn b r' → r' ≠ r → s'.readRegion r' b = s.readRegion r' b) :
    Stored s a value s' := by
  refine ⟨hin, hcartridge, fun b hb => ?_⟩
  obtain ⟨r', hr', hplain⟩ := s.find_plain hb
  unfold Bus.peek
  rw [find_congr hin hbios b, hr']
  by_cases hr : r' = r
  · subst hr
    exact hsame b hplain hr'
  · have hne : b ≠ a := by
      rintro rfl
      exact hr (Option.some.inj (hr'.symm.trans ha))
    rw [if_neg hne]
    exact hother r' b hplain hr

theorem stored_gpu (hf : s.find a = some .gpu) (value : UInt8) :
    Stored s a value (s.writeGpu a value) := by
  refine stored_of_region rfl rfl rfl hf (fun b hplain hb => ?_) fun r' b _ hne =>
    s.readRegion_withVram _ hne b
  obtain ⟨ha, ha'⟩ := (s.find_gpu_iff a).mp hf
  obtain ⟨hb, hb'⟩ := (s.find_gpu_iff b).mp hb
  have hiff : (s.vramBank = s.vramBank ∧ a.toNat - gpuRamOffset = b.toNat - gpuRamOffset) ↔
      b = a := by
    rw [← UInt16.toNat_inj]
    simp only [gpuRamOffset, true_and]
    omega
  show Except.ok (Function.update s.gpu.memory s.vramBank (Function.update (s.gpu.memory s.vramBank)
    (a.toNat - gpuRamOffset) value) s.vramBank (b.toNat - gpuRamOffset)) = _
  rw [update_two, if_congr hiff rfl rfl]
  split_ifs <;> rfl

theorem stored_oam (hf : s.find a = some .oam) (value : UInt8) :
    Stored s a value (s.withOam (Function.update s.oam a value)) := by
  refine stored_of_region rfl rfl rfl hf (fun b _ _ => ?_) fun r' b _ hne =>
    s.readRegion_withOam _ hne b
  show Except.ok (Function.update s.oam a value b) = _
  rw [Function.update_apply]
  split_ifs <;> rfl

theorem stored_zero (hf : s.find a = some .zero) (value : UInt8) :
    Stored s a value { s with zero := Function.update s.zero a value } := by
  refine stored_of_region rfl rfl rfl hf (fun b _ _ => ?_) fun r' b _ hne => ?_
  · show Except.ok (Function.update s.zero a value b) = _
    rw [Function.update_apply]
    split_ifs <;> rfl
  · cases r' <;> first | rfl | exact absurd rfl hne

theorem stored_io (hf : s.find a = some .io) (ha : a ∉ boundRegisters) (value : UInt8) :
    Stored s a value (s.setIo a value) := by
  have hvram : (s.setIo a value).vramBank = s.vramBank := by
    unfold vramBank
    rw [setIo_io_of_ne s fun e => ha (by rw [← e]; decide)]
  have hwork : (s.setIo a value).workingBank = s.workingBank := by
    funext i
    unfold workingBank
    rw [setIo_io_of_ne s (b := workingRamBankSelect) fun e => ha (by rw [← e]; decide)]
    rfl
  refine stored_of_region rfl rfl rfl hf (fun b hplain _ => ?_) fun r' b _ hne => ?_
  · cases hplain with
    | io hb =>
      have hio : (s.setIo a value).io b = if b = a then value else s.io b :=
        Function.update_apply ..
      simp only [readRegion, readIo_plain hb, hio]
      split_ifs <;> rfl
  · cases r' with
    | gpu =>
      simp only [readRegion, hvram]
      rfl
    | working =>
      simp only [readRegion, readWorking, hwork]
      rfl
    | io => exact absurd rfl hne
    | _ => rfl

theorem stored_work {bank : Nat} (hcontains : StackArea.work.Contains a)
    (hbank : s.workingBank (workingIndex a.toNat) = .ok bank) (value : UInt8) (depth : Nat) :
    ∃ s', write (depth + 1) s a value = .ok s' ∧ Stored s a value s' := by
  have hf := StackArea.find_contains s hcontains
  obtain ⟨s', hw, hin, hbios, hcartridge, hother⟩ :
      ∃ s', write (depth + 1) s a value = .ok s' ∧ s'.inBios = s.inBios ∧ s'.bios = s.bios ∧
        s'.cartridge = s.cartridge ∧
          ∀ r b, r ≠ .working → s'.readRegion r b = s.readRegion r b := by
    refine ⟨{ s with
      working := Function.update s.working bank (Function.update (s.working bank)
        (workingIndex a.toNat % (workingRamSize / 2)) value) }, ?_, rfl, rfl, rfl, ?_⟩
    · rw [write, hf]
      show (s.workingBank (workingIndex a.toNat)).map _ = _
      rw [hbank]
      rfl
    · intro r b hne
      cases r <;> first | rfl | exact absurd rfl hne
  refine ⟨s', hw, stored_of_region hin hbios hcartridge hf (fun b hplain hb => ?_)
    fun r' b _ hne => hother r' b hne⟩
  cases hplain with
  | working hwork =>
    have hpeek := StackArea.peek_write hcontains hwork hw
    rwa [peek, find_congr hin hbios b, peek, hb] at hpeek

/-- **A store at a plain address** that can be read succeeds, and is seen there only. -/
theorem write_plain (ha : isPlain a = true) (hram : 0x8000 ≤ a.toNat) (hold : s.peek a = .ok old)
    (value : UInt8) (depth : Nat) :
    ∃ s', write (depth + 1) s a value = .ok s' ∧ Stored s a value s' := by
  obtain ⟨r, hr, hplain⟩ := s.find_plain ha
  cases hplain with
  | bios =>
    rw [s.find_high hram] at hr
    exact absurd (Option.some.inj hr) (regionOf_ne_bios _)
  | cartridge hlow => omega
  | gpu => exact ⟨_, s.write_gpu depth hr value, stored_gpu hr value⟩
  | working hwork =>
    rw [peek, hr] at hold
    obtain ⟨bank, hbank, -⟩ := map_eq_ok.mp hold
    exact stored_work hwork hbank value depth
  | oam => exact ⟨_, s.write_oam depth hr value, stored_oam hr value⟩
  | io hbound =>
    have hspecial : a ∉ specialRegisters := fun hmem => hbound (by simp [boundRegisters, hmem])
    exact ⟨_, (s.write_io depth hr value).trans (writeIo_plain hspecial),
      stored_io hr hbound value⟩
  | zero =>
    refine ⟨_, ?_, stored_zero hr value⟩
    rw [write, hr]
    rfl

end GbEmu.Bus
