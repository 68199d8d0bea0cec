import GbEmu.Bus.Guard
import GbEmu.Bus.VramDma
import GbEmu.Bus.WorkRam
import GbEmu.Lib.Nested

/-!
Whether a bus write returns. Only a transfer of the general-purpose DMA can lead
back to itself, through FF55 among the bytes it stores; every transfer starts at
most one other in this way.
-/

namespace GbEmu.Bus

/-- The write is over, with a result or a fault, after finitely many nested writes. -/
def Returns (s : Bus) (address : UInt16) (value : UInt8) : Prop :=
  ∃ depth, write depth s address value ≠ .error .depth

abbrev Finished {α : Type} (r : Except Fault α) : Prop := Run.Settled (· = Fault.depth) r

theorem finished_iff {α : Type} (r : Except Fault α) : Finished r ↔ r ≠ .error .depth :=
  ⟨fun h e => h _ e rfl, fun h _ he hd => h (hd ▸ he)⟩

/-! ## Accesses without nested writes -/

theorem finished_map {α β : Type} {r : Except Fault α} (h : Finished r) (f : α → β) :
    Finished (r.map f) :=
  Run.settled_bind h fun a => Run.settled_ok (f a)

theorem fatal_finished (s : Bus) : Finished s.fatal := by
  unfold fatal
  split_ifs
  · exact Run.settled_ok _
  · exact Run.settled_error.mpr (by decide)

theorem workingBank_finished (s : Bus) (index : Nat) : Finished (s.workingBank index) := by
  simp only [workingBank]
  split_ifs <;> simp [Run.settled_error]

theorem ite_finished {c : Prop} [Decidable c] {α : Type} {r r' : Except Fault α}
    (h : Finished r) (h' : Finished r') : Finished (if c then r else r') := by
  split_ifs <;> assumption

theorem error_finished {α : Type} {e : Fault} (h : e ≠ .depth) :
    Finished (.error e : Except Fault α) :=
  Run.settled_error.mpr h

theorem controller_readRAM_finished (m : MemoryBankController) (address : UInt16) :
    Finished (m.readRAM address) := by
  refine ite_finished (Run.settled_ok _) ?_
  cases m.ram[m.ramBank.toNat]? with
  | none => exact error_finished (by decide)
  | some bank => exact ite_finished (Run.settled_ok _) (error_finished (by decide))

theorem controller_writeRAM_finished (m : MemoryBankController) (address : UInt16)
    (value : UInt8) : Finished (m.writeRAM address value) := by
  refine ite_finished (Run.settled_ok _) ?_
  cases m.ram[m.ramBank.toNat]? with
  | none => exact error_finished (by decide)
  | some bank => exact ite_finished (Run.settled_ok _) (error_finished (by decide))

theorem bank_readRAM_finished (b : Bank) (address : UInt16) : Finished (b.readRAM address) := by
  cases b with
  | mbc1 m => exact controller_readRAM_finished _ _
  | mbc3 m =>
    simp only [Bank.readRAM, MBC3.readRAM]
    have hok : ∀ byte : UInt8, Finished (Except.ok byte : Except Fault UInt8) := Run.settled_ok
    refine ite_finished (hok _) (ite_finished (controller_readRAM_finished _ _) ?_)
    refine ite_finished (hok _) (ite_finished (hok _) ?_)
    exact ite_finished (hok _) (ite_finished (hok _) (hok _))

theorem bank_writeRAM_finished (b : Bank) (address : UInt16) (value : UInt8) :
    Finished (b.writeRAM address value) := by
  cases b with
  | mbc1 m => exact finished_map (controller_writeRAM_finished _ _ _) _
  | mbc3 m =>
    simp only [Bank.writeRAM, MBC3.writeRAM]
    have hok : ∀ m : MBC3, Finished (Except.ok m : Except Fault MBC3) := Run.settled_ok
    refine finished_map (ite_finished (hok _) (ite_finished ?_ ?_)) _
    · exact finished_map (controller_writeRAM_finished _ _ _) _
    · refine ite_finished (hok _) (ite_finished (hok _) ?_)
      exact ite_finished (hok _) (ite_finished (hok _) (hok _))

theorem cartridge_read_finished (c : Cartridge) (address : UInt16) :
    Finished (c.read address) := by
  unfold Cartridge.read
  cases c.bank with
  | none => exact error_finished (by decide)
  | some bank =>
    refine ite_finished ?_ (ite_finished ?_ (ite_finished ?_ (error_finished (by decide))))
    · cases c.memory[address.toNat]? with
      | none => exact error_finished (by decide)
      | some byte => exact Run.settled_ok _
    · refine ite_finished (error_finished (by decide)) ?_
      cases c.memory[address.toNat + (bank.controller.romBank.toNat - 1) * rom1Size]? with
      | none => exact error_finished (by decide)
      | some byte => exact Run.settled_ok _
    · exact bank_readRAM_finished bank address

theorem cartridge_write_finished (c : Cartridge) (address : UInt16) (value : UInt8) :
    Finished (c.write address value) := by
  unfold Cartridge.write
  cases c.bank with
  | none => exact error_finished (by decide)
  | some bank =>
    refine ite_finished (Run.settled_ok _) (ite_finished ?_ (Run.settled_ok _))
    exact finished_map (bank_writeRAM_finished _ _ _) _

theorem read_finished (s : Bus) (address : UInt16) : Finished (s.read address) := by
  obtain ⟨r, hr⟩ := s.find_isSome address
  simp only [read, hr]
  split_ifs
  · exact s.fatal_finished
  · cases r with
    | bios =>
      simp only [readRegion]
      split <;> simp [Run.settled_error]
    | cartridge =>
      simp only [readRegion, readCartridge]
      split
      · exact Run.settled_ok _
      · split_ifs
        · exact cartridge_read_finished _ _
        · exact Run.settled_ok _
    | working => exact finished_map (s.workingBank_finished _) _
    | gpu | oam | unusable | io | zero => exact Run.settled_ok _

theorem writeRegion_finished (s : Bus) (r : Region) (address : UInt16) (value : UInt8) :
    Finished (s.writeRegion r address value) := by
  cases r with
  | cartridge =>
    simp only [writeRegion, writeCartridge]
    split
    · exact Run.settled_ok _
    · split_ifs
      · exact finished_map (cartridge_write_finished _ _ _) _
      · exact Run.settled_ok _
  | working => exact finished_map (s.workingBank_finished _) _
  | bios | gpu | oam | unusable | io | zero => exact Run.settled_ok _

/-! ## Writes beside FF55 -/

/-- What a write returns, it returns with any more depth. -/
theorem write_deeper {depth depth' : Nat} (hle : depth ≤ depth') {s : Bus} {address : UInt16}
    {value : UInt8} (h : Finished (write depth s address value)) :
    write depth' s address value = write depth s address value := by
  induction depth generalizing depth' s address value with
  | zero => exact absurd rfl ((finished_iff _).mp h)
  | succ depth ih =>
    obtain ⟨more, rfl⟩ := Nat.exists_eq_add_of_le hle
    rw [Nat.add_right_comm, write_succ, write_succ]
    exact route_agree (fun _ _ _ ht => ih (Nat.le_add_right _ _) ht) (write_succ .. ▸ h)

theorem writePaletteData_finished {index : UInt16} (hp : index ∉ specialRegisters)
    (hi : 0xFF00 ≤ index.toNat ∧ index.toNat < 0xFF80) (store : Bus → UInt8 → Bus) (s : Bus) :
    Finished (writePaletteData (write 1) index store s) := by
  simp only [writePaletteData]
  split_ifs
  · rw [write_io _ _ ((find_io_iff _ _).mpr hi), writeIo_plain hp]
    exact Run.settled_ok _
  · exact Run.settled_ok _

theorem writeDmaOam_finished (value : UInt8) (s : Bus) :
    Finished (writeDmaOam (write 1) value s) := by
  refine Run.run_settled (fun i hi t => ?_) s
  refine Run.settled_bind (t.read_finished _) fun byte => ?_
  have hoam : t.find (UInt16.ofNat graphicsRamOffset + UInt16.ofNat i) = some .oam := by
    rw [find_oam_iff]
    have hlt := List.mem_range.mp hi
    simp only [graphicsRamSize, graphicsRamOffset] at *
    simp
    omega
  rw [write_oam t 0 hoam]
  exact Run.settled_ok _

/-- A write beside FF55 is over at the second level. -/
theorem write_two_finished {address : UInt16} (ha : address ≠ gpuDmaMode) (s : Bus)
    (value : UInt8) : Finished (write 2 s address value) := by
  obtain ⟨r, hr⟩ := s.find_isSome address
  rw [write_succ, route]
  by_cases hio : r = .io
  · subst hio
    have hok : ∀ t : Bus, Finished (Except.ok t : Except Fault Bus) := Run.settled_ok
    simp only [hr]
    unfold writeIo
    rw [if_neg ha]
    refine ite_finished (hok _) (ite_finished (hok _) (ite_finished (hok _) ?_))
    refine ite_finished (hok _) (ite_finished (hok _) (ite_finished (hok _) ?_))
    refine ite_finished (writePaletteData_finished (by decide) (by decide) _ s) ?_
    refine ite_finished (writePaletteData_finished (by decide) (by decide) _ s) ?_
    exact ite_finished (writeDmaOam_finished value s) (ite_finished (hok _) (hok _))
  · simp only [hr]
    split_ifs
    · exact s.writeRegion_finished r address value
    · exact Run.settled_ok _

theorem write_two_of_finished {address : UInt16} (ha : address ≠ gpuDmaMode) {depth : Nat} {s : Bus}
    {value : UInt8} (h : Finished (write depth s address value)) :
    write 2 s address value = write depth s address value := by
  rcases Nat.le_total depth 2 with hle | hle
  · exact write_deeper hle h
  · exact (write_deeper hle (write_two_finished ha s value)).symm

/-! ## Nested transfers -/

/-- The pass of the loop that stores to FF55, if the loop is so long. -/
def dmaModePass (s : Bus) : Nat := (gpuDmaMode - s.dmaDest).toNat

/-- The transfer that a transfer of `value` starts: the state in which it stores to
FF55, and the byte. -/
def nested (transfer : Bus × UInt8) : Option (Bus × UInt8) :=
  let (s, value) := transfer
  if s.io gpuDmaMode &&& 0x80 = 0 ∧ s.dmaModePass < dmaLength value then
    match copy (write 2) s.dmaSource s.dmaDest s.dmaModePass s with
    | .error _ => none
    | .ok t =>
      match t.read (s.dmaSourceAt s.dmaModePass) with
      | .error _ => none
      | .ok byte => some (t, byte)
  else none

theorem dmaDestAt_dmaModePass (s : Bus) : s.dmaDestAt s.dmaModePass = gpuDmaMode := by
  simp only [dmaDestAt, dmaModePass, UInt16.ofNat_toNat]
  rw [UInt16.add_comm, UInt16.sub_add_cancel]

theorem dmaDestAt_ne {s : Bus} {value : UInt8} {i : Nat} (hi : i < dmaLength value)
    (hne : i ≠ s.dmaModePass) : s.dmaDestAt i ≠ gpuDmaMode := by
  intro h
  have hlen := dmaLength_le value
  have hpass := s.dmaModePass.lt_or_ge 0x10000
  have hsame := congrArg UInt16.toNat (h.trans s.dmaDestAt_dmaModePass.symm)
  have hlt : s.dmaModePass < 0x10000 := (gpuDmaMode - s.dmaDest).toNat_lt
  have hdest := s.dmaDest.toNat_lt
  simp [dmaDestAt] at hsame
  omega

theorem copyByte_at (write : Bus → UInt16 → UInt8 → Except Fault Bus) (s t : Bus) (i : Nat) :
    copyByte write s.dmaSource s.dmaDest t i =
      (t.read (s.dmaSourceAt i)).bind fun byte => write t (s.dmaDestAt i) byte := rfl

/-- The passes of a loop of length `n` after pass `k`. -/
def laterPasses (n k : Nat) : List Nat := (List.range (n - (k + 1))).map (k + 1 + ·)

theorem mem_laterPasses {n k i : Nat} (h : i ∈ laterPasses n k) : i < n ∧ i ≠ k := by
  obtain ⟨j, hj, rfl⟩ := List.mem_map.mp h
  have hlt := List.mem_range.mp hj
  omega

/-- The passes before FF55, the one that stores to it, and the others. -/
theorem copy_split (write : Bus → UInt16 → UInt8 → Except Fault Bus) (source dest : UInt16)
    {n k : Nat} (hk : k < n) (s : Bus) :
    copy write source dest n s = (copy write source dest k s).bind fun t =>
      (copyByte write source dest t k).bind fun u =>
        Run.run (copyByte write source dest) u (laterPasses n k) := by
  have hrange : List.range n = List.range k ++ k :: laterPasses n k := by
    obtain ⟨m, rfl⟩ := Nat.exists_eq_add_of_le hk
    rw [List.range_add, List.range_succ, List.append_assoc, laterPasses, Nat.add_sub_cancel_left]
    rfl
  unfold copy
  rw [hrange, Run.run_append]
  rfl

section Passes

variable {depth : Nat} {s : Bus} {value : UInt8} {i : Nat}

theorem copyByte_finished (hdepth : 2 ≤ depth) (hi : i < dmaLength value)
    (hne : i ≠ s.dmaModePass) (t : Bus) :
    Finished (copyByte (write depth) s.dmaSource s.dmaDest t i) := by
  refine Run.settled_bind (t.read_finished _) fun byte => ?_
  have htwo := write_two_finished (dmaDestAt_ne hi hne) t byte
  exact write_deeper hdepth htwo ▸ htwo

theorem copyByte_two (hi : i < dmaLength value) (hne : i ≠ s.dmaModePass) {t : Bus}
    (h : Finished (copyByte (write depth) s.dmaSource s.dmaDest t i)) :
    copyByte (write 2) s.dmaSource s.dmaDest t i =
      copyByte (write depth) s.dmaSource s.dmaDest t i := by
  refine Run.bind_congr (fun _ => rfl) (fun byte hb => ?_) h
  exact write_two_of_finished (dmaDestAt_ne hi hne) hb

theorem copy_finished {n : Nat} (value : UInt8) (hdepth : 2 ≤ depth) (hn : n ≤ dmaLength value)
    (hpass : n ≤ s.dmaModePass) (t : Bus) :
    Finished (copy (write depth) s.dmaSource s.dmaDest n t) := by
  refine Run.run_settled (fun i hi u => ?_) t
  have hlt := List.mem_range.mp hi
  exact copyByte_finished hdepth (Nat.lt_of_lt_of_le hlt hn) (by omega) u

theorem copy_two {n : Nat} (hn : n ≤ dmaLength value) (hpass : n ≤ s.dmaModePass) {t : Bus}
    (h : Finished (copy (write depth) s.dmaSource s.dmaDest n t)) :
    copy (write 2) s.dmaSource s.dmaDest n t = copy (write depth) s.dmaSource s.dmaDest n t := by
  refine Run.run_congr (fun i hi u hu => ?_) h
  have hlt := List.mem_range.mp hi
  exact copyByte_two (Nat.lt_of_lt_of_le hlt hn) (by omega) hu

end Passes

section Transfer

variable {s t : Bus} {value byte : UInt8}

theorem nested_cases (h : nested (s, value) = some (t, byte)) :
    s.io gpuDmaMode &&& 0x80 = 0 ∧ s.dmaModePass < dmaLength value ∧
      copy (write 2) s.dmaSource s.dmaDest s.dmaModePass s = .ok t ∧
      t.read (s.dmaSourceAt s.dmaModePass) = .ok byte := by
  simp only [nested] at h
  split_ifs at h with hstart
  cases hc : copy (write 2) s.dmaSource s.dmaDest s.dmaModePass s with
  | error e => simp [hc] at h
  | ok u =>
    cases hr : u.read (s.dmaSourceAt s.dmaModePass) with
    | error e => simp [hc, hr] at h
    | ok b =>
      simp only [hc, hr, Option.some.injEq, Prod.mk.injEq] at h
      obtain ⟨rfl, rfl⟩ := h
      exact ⟨hstart.1, hstart.2, rfl, hr⟩

/-- A transfer that starts no other is over at the third level. -/
theorem write_finished_of_last (h : nested (s, value) = none) :
    Finished (write 3 s gpuDmaMode value) := by
  by_cases hs : s.io gpuDmaMode &&& 0x80 = 0
  · rw [write_dmaMode_started hs]
    refine finished_map ?_ _
    by_cases hpass : s.dmaModePass < dmaLength value
    · have hfirst := copy_finished value (Nat.le_refl 2) (Nat.le_of_lt hpass)
        (Nat.le_refl _) s
      simp only [nested, hs, hpass, and_self, if_true] at h
      rw [copy_split _ _ _ hpass]
      cases hc : copy (write 2) s.dmaSource s.dmaDest s.dmaModePass s with
      | error e => exact error_finished fun he => (finished_iff _).mp hfirst (by rw [hc, he])
      | ok t =>
        have hread := t.read_finished (s.dmaSourceAt s.dmaModePass)
        cases hr : t.read (s.dmaSourceAt s.dmaModePass) with
        | error e =>
          have hbyte : copyByte (write 2) s.dmaSource s.dmaDest t s.dmaModePass = .error e := by
            rw [copyByte_at, hr]
            rfl
          simp only [Except.bind, hbyte]
          exact error_finished fun he => (finished_iff _).mp hread (by rw [hr, he])
        | ok byte => simp [hc, hr] at h
    · exact copy_finished value (Nat.le_refl 2) (Nat.le_refl _) (Nat.not_lt.mp hpass) s
  · rw [write_dmaMode_busy hs]
    exact Run.settled_ok _

/-- A transfer that starts another: what is left after it are passes beside FF55. -/
theorem write_split (h : nested (s, value) = some (t, byte)) {depth : Nat}
    (hcopy : copy (write depth) s.dmaSource s.dmaDest s.dmaModePass s = .ok t) :
    write (depth + 1) s gpuDmaMode value =
      ((write depth t gpuDmaMode byte).bind fun u =>
        Run.run (copyByte (write depth) s.dmaSource s.dmaDest) u
          (laterPasses (dmaLength value) s.dmaModePass)).map fun u => u.setIo gpuDmaMode 0xFF := by
  obtain ⟨hs, hpass, -, hread⟩ := nested_cases h
  have hbyte : copyByte (write depth) s.dmaSource s.dmaDest t s.dmaModePass =
      write depth t gpuDmaMode byte := by
    rw [copyByte_at, hread, dmaDestAt_dmaModePass]
    rfl
  rw [write_dmaMode_started hs, copy_split _ _ _ hpass, hcopy]
  simp only [Except.bind, hbyte]

theorem write_finished_of_nested (h : nested (s, value) = some (t, byte)) {depth : Nat}
    (hdone : Finished (write depth t gpuDmaMode byte)) :
    ∃ depth', Finished (write depth' s gpuDmaMode value) := by
  obtain ⟨-, hpass, hcopy, -⟩ := nested_cases h
  have hle := Nat.le_max_left 2 depth
  have hfirst := copy_finished value hle (Nat.le_of_lt hpass) (Nat.le_refl _) s
  rw [copy_two (Nat.le_of_lt hpass) (Nat.le_refl _) hfirst] at hcopy
  refine ⟨max 2 depth + 1, ?_⟩
  rw [write_split h hcopy, write_deeper (Nat.le_max_right 2 depth) hdone]
  refine finished_map (Run.settled_bind hdone fun u => Run.run_settled (fun i hi => ?_) u) _
  exact copyByte_finished hle (mem_laterPasses hi).1 (mem_laterPasses hi).2

theorem nested_finished_of_write (h : nested (s, value) = some (t, byte)) {depth : Nat}
    (hdone : Finished (write (depth + 1) s gpuDmaMode value)) :
    Finished (write depth t gpuDmaMode byte) := by
  obtain ⟨hs, hpass, hcopy, -⟩ := nested_cases h
  have hall : Finished (copy (write depth) s.dmaSource s.dmaDest (dmaLength value) s) := by
    rw [write_dmaMode_started hs] at hdone
    exact Run.settled_of_bind hdone
  rw [copy_split _ _ _ hpass] at hall
  rw [copy_two (Nat.le_of_lt hpass) (Nat.le_refl _) (Run.settled_of_bind hall)] at hcopy
  rw [write_split h hcopy] at hdone
  exact Run.settled_of_bind (Run.settled_of_bind hdone)

end Transfer

/-- Whether a transfer is over, with its fault or result, at so much depth. -/
def TransferFinished (depth : Nat) (transfer : Bus × UInt8) : Prop :=
  Finished (write depth transfer.1 gpuDmaMode transfer.2)

theorem transferFinished_zero (transfer : Bus × UInt8) : ¬ TransferFinished 0 transfer := by
  simp [TransferFinished, write, finished_iff]

theorem transferFinished_down (depth : Nat) (transfer next : Bus × UInt8)
    (h : nested transfer = some next) (hdone : TransferFinished (depth + 1) transfer) :
    TransferFinished depth next :=
  nested_finished_of_write h hdone

theorem transferFinished_last (transfer : Bus × UInt8) (h : nested transfer = none) :
    ∃ depth, TransferFinished depth transfer := by
  obtain ⟨s, value⟩ := transfer
  exact ⟨3, write_finished_of_last h⟩

theorem transferFinished_up (depth : Nat) (transfer next : Bus × UInt8)
    (h : nested transfer = some next) (hdone : TransferFinished depth next) :
    ∃ depth', TransferFinished depth' transfer := by
  obtain ⟨s, value⟩ := transfer
  exact write_finished_of_nested h hdone

theorem transferFinished_iff (transfer : Bus × UInt8) :
    (∃ depth, TransferFinished depth transfer) ↔ ∃ n, Nested.follow nested n transfer = none :=
  Nested.finishes_iff transferFinished_zero transferFinished_last transferFinished_down
    transferFinished_up transfer

/-- A bus write returns unless it writes FF55 and the chain of transfers that it starts
does not end. -/
theorem write_returns_iff (s : Bus) (address : UInt16) (value : UInt8) :
    s.Returns address value ↔
      (address = gpuDmaMode → ∃ n, Nested.follow nested n (s, value) = none) := by
  by_cases ha : address = gpuDmaMode
  · subst ha
    have hchain := transferFinished_iff (s, value)
    simp only [TransferFinished, finished_iff] at hchain
    rw [Returns, hchain]
    simp
  · have htwo := (finished_iff _).mp (write_two_finished ha s value)
    exact ⟨fun _ h => absurd h ha, fun _ => ⟨2, htwo⟩⟩

/-! ## A transfer onto itself -/

/-- The transfer copies the registers of the DMA onto themselves. -/
structure CopiesItself (s : Bus) : Prop where
  source : s.dmaSource = 0xFF50
  dest : s.dmaDest = 0xFF50
  started : s.io gpuDmaMode &&& 0x80 = 0

section CopiesItself

variable {s : Bus}

theorem read_register {address : UInt16} (h : 0xFF00 ≤ address.toNat ∧ address.toNat < 0xFF60) :
    s.read address = .ok (s.io address) := by
  have hio : s.find address = some .io := (s.find_io_iff address).mpr (by omega)
  have hbg : address ≠ gpuBgPaletteData := fun e => absurd (e ▸ h.2) (by decide)
  have hsprite : address ≠ gpuSpritePaletteData := fun e => absurd (e ▸ h.2) (by decide)
  simp [read, hio, Region.isReadOnly, readRegion, readIo, hbg, hsprite]

theorem copiesItself_at (hs : s.CopiesItself) (i : Nat) :
    s.dmaSourceAt i = 0xFF50 + UInt16.ofNat i ∧ s.dmaDestAt i = s.dmaSourceAt i := by
  simp only [dmaSourceAt, dmaDestAt, hs.source, hs.dest, and_self]

theorem copyByte_itself (hs : s.CopiesItself) {i : Nat} (hi : i < 5) :
    copyByte (write 2) s.dmaSource s.dmaDest s i = .ok s := by
  obtain ⟨hat, hdest⟩ := copiesItself_at hs i
  have hrange : 0xFF00 ≤ (s.dmaSourceAt i).toNat ∧ (s.dmaSourceAt i).toNat < 0xFF55 := by
    rw [hat]
    simp
    omega
  have hplain : s.dmaSourceAt i ∉ specialRegisters := by
    rw [hat]
    interval_cases i <;> decide
  rw [copyByte_at, hdest, read_register ⟨hrange.1, by omega⟩]
  change write 2 s (s.dmaSourceAt i) (s.io (s.dmaSourceAt i)) = .ok s
  rw [write_io s 1 ((s.find_io_iff _).mpr (by omega)), writeIo_plain hplain, setIo_self]

theorem nested_copiesItself (hs : s.CopiesItself) (value : UInt8) :
    nested (s, value) = some (s, s.io gpuDmaMode) := by
  have hpass : s.dmaModePass = 5 := by
    rw [dmaModePass, hs.dest]
    decide
  have hlong : 5 < dmaLength value := by
    unfold dmaLength
    omega
  have hcopy : copy (write 2) s.dmaSource s.dmaDest 5 s = .ok s :=
    Run.run_fixed fun i hi => copyByte_itself hs (List.mem_range.mp hi)
  have hread : s.read (s.dmaSourceAt 5) = .ok (s.io gpuDmaMode) := by
    rw [(copiesItself_at hs 5).1]
    exact read_register (by decide)
  simp only [nested, hs.started, hpass, hlong, and_self, if_true, hcopy, hread]

/-- The transfer that it starts starts itself in turn. -/
theorem copiesItself_not_returns (hs : s.CopiesItself) (value : UInt8) :
    ¬ s.Returns gpuDmaMode value := by
  intro hreturns
  obtain ⟨n, hn⟩ := (write_returns_iff s gpuDmaMode value).mp hreturns rfl
  have hloop := Nested.follow_loop (nested_copiesItself hs (s.io gpuDmaMode))
  cases n with
  | zero => cases hn
  | succ n =>
    rw [Nested.follow_succ_of_eq (nested_copiesItself hs value), hloop] at hn
    cases hn

end CopiesItself

/-! ## Transfers that start no other -/

/-- A store of `value` to FF55 starts a transfer, and FF55 is in its destination range. -/
def StoresDmaMode (s : Bus) (value : UInt8) : Prop :=
  s.io gpuDmaMode &&& 0x80 = 0 ∧ ∃ i < dmaLength value, s.dmaDest + UInt16.ofNat i = gpuDmaMode

theorem nested_none {s : Bus} {value : UInt8} (h : ¬ s.StoresDmaMode value) :
    nested (s, value) = none := by
  have hapart : ¬ (s.io gpuDmaMode &&& 0x80 = 0 ∧ s.dmaModePass < dmaLength value) :=
    fun ⟨hstart, hpass⟩ => h ⟨hstart, s.dmaModePass, hpass, s.dmaDestAt_dmaModePass⟩
  simp only [nested, if_neg hapart]

/-- **Termination.** A bus write returns unless it starts a transfer that stores to FF55;
the transfers that copy the registers of the DMA onto themselves never do. -/
theorem write_returns (s : Bus) (address : UInt16) (value : UInt8) :
    ((address = gpuDmaMode → ¬ s.StoresDmaMode value) → s.Returns address value) ∧
      (s.CopiesItself → s.StoresDmaMode value ∧ ¬ s.Returns gpuDmaMode value) := by
  refine ⟨fun h => ?_, fun hself => ⟨⟨hself.started, 5, ?_, ?_⟩, ?_⟩⟩
  · refine (write_returns_iff s address value).mpr fun ha => ⟨1, ?_⟩
    rw [Nested.follow, nested_none (h ha)]
    rfl
  · unfold dmaLength
    omega
  · rw [hself.dest]
    rfl
  · exact copiesItself_not_returns hself value

/-- A transfer of 16 bytes from work RAM to the start of VRAM. -/
theorem write_returns_vram :
    ((bareConsole.setIo gpuDmaSrcHigh 0xC0).setIo gpuDmaDestHigh 0x80).Returns gpuDmaMode 0 := by
  have hdest : ((bareConsole.setIo gpuDmaSrcHigh 0xC0).setIo gpuDmaDestHigh 0x80).dmaDest =
      0x8000 := by
    decide
  refine (write_returns _ gpuDmaMode 0).1 fun _ hstores => ?_
  obtain ⟨-, i, hi, heq⟩ := hstores
  rw [hdest] at heq
  have hlt : i < 16 := hi
  interval_cases i <;> exact absurd heq (by decide)

/-- The writes that point the DMA at its own registers. -/
def pointAtItself (s : Bus) : Bus :=
  (((s.setIo gpuDmaSrcHigh 0xFF).setIo gpuDmaSrcLow 0x50).setIo gpuDmaDestHigh 0xFF).setIo
    gpuDmaDestLow 0x50

theorem pointAtItself_copiesItself {s : Bus} (h : s.io gpuDmaMode &&& 0x80 = 0) :
    s.pointAtItself.CopiesItself := by
  constructor
  · simp [dmaSource, pointAtItself, setIo]
    decide
  · simp [dmaDest, pointAtItself, setIo]
    decide
  · simpa [pointAtItself, setIo] using h

/-- A console at power-on that is sent 0xFF, 0x50, 0xFF, 0x50 and 0 for FF51 to FF55. -/
theorem write_not_returns :
    ¬ ∀ (host : Host) (bytes : List UInt8) (c : Cartridge),
      Cartridge.load host (some bytes) = .ok c → c.valid = true → ∀ (bios : Bios) (s : Bus),
        Relation.ReflTransGen (fun s s' => ∃ depth a v, write depth s a v = .ok s')
          (powerOn false bios (some c) none) s →
        ∀ (address : UInt16) (value : UInt8), s.Returns address value := by
  intro hall
  obtain ⟨c, hload, hv, -⟩ := load_cgb
  let s := powerOn false ⟨[], by decide⟩ (some c) none
  let Reached := Relation.ReflTransGen (fun s s' => ∃ depth a v, write depth s a v = .ok s') s
  have hstore : ∀ {t : Bus} (address : UInt16) (value : UInt8), address ∉ specialRegisters →
      0xFF00 ≤ address.toNat ∧ address.toNat < 0xFF80 → Reached t →
        Reached (t.setIo address value) := by
    intro t address value hp ha ht
    refine ht.tail ⟨1, address, value, ?_⟩
    rw [write_io t 0 ((t.find_io_iff address).mpr ha), writeIo_plain hp]
  have hrun : Reached s.pointAtItself := by
    refine hstore gpuDmaDestLow 0x50 (by decide) (by decide) ?_
    refine hstore gpuDmaDestHigh 0xFF (by decide) (by decide) ?_
    refine hstore gpuDmaSrcLow 0x50 (by decide) (by decide) ?_
    exact hstore gpuDmaSrcHigh 0xFF (by decide) (by decide) .refl
  have hself : s.pointAtItself.CopiesItself :=
    pointAtItself_copiesItself (show (0 : UInt8) &&& 0x80 = 0 by decide)
  exact copiesItself_not_returns hself 0 (hall _ _ c hload hv ⟨[], by decide⟩ _ hrun _ _)

end GbEmu.Bus
