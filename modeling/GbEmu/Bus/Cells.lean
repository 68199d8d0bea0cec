import GbEmu.Bus.WorkRam

/-!
The RAM areas as one memory. Under the current bank registers every RAM address
names a cell of video memory, of work RAM, of OAM or of the high area; `peek` reads
the cell, a write stores into it, and different cells do not disturb each other.
-/

namespace GbEmu

inductive Cell
  | vram (bank index : Nat)
  | work (bank index : Nat)
  | oam (address : UInt16)
  | high (address : UInt16)
  deriving DecidableEq

namespace Bus

/-- The bank of work RAM at 0xD000. -/
def switchedBank (s : Bus) : Nat := if s.isCGB then max 1 (s.io workingRamBankSelect).toNat else 1

/-- The cell that a RAM address denotes; the echo denotes those of work RAM. -/
def cell (s : Bus) (address : UInt16) : Option Cell :=
  let a := address.toNat
  if 0x8000 ≤ a ∧ a < 0xA000 then
    some (.vram ((s.io gpuBankSelectAddress).toNat % 2) (a - 0x8000))
  else if 0xC000 ≤ a ∧ a < 0xFE00 then
    let k := (a - 0xC000) % 0x2000
    if k < 0x1000 then some (.work 0 k) else some (.work s.switchedBank (k - 0x1000))
  else if 0xFE00 ≤ a ∧ a < 0xFEA0 then some (.oam address)
  else if 0xFF80 ≤ a then some (.high address)
  else none

def contents (s : Bus) : Cell → UInt8
  | .vram bank index => s.gpu.memory bank index
  | .work bank index => s.working bank index
  | .oam address => s.oam address
  | .high address => s.zero address

def store (s : Bus) (c : Cell) (value : UInt8) : Bus :=
  match c with
  | .vram bank index =>
    s.withVram (Function.update s.gpu.memory bank
      (Function.update (s.gpu.memory bank) index value))
  | .work bank index =>
    { s with
      working := Function.update s.working bank (Function.update (s.working bank) index value) }
  | .oam address => s.withOam (Function.update s.oam address value)
  | .high address => { s with zero := Function.update s.zero address value }

/-! ## The memory of cells -/

theorem update_two (m : Nat → Nat → UInt8) (i j i' j' : Nat) (v : UInt8) :
    Function.update m i (Function.update (m i) j v) i' j' =
      if i = i' ∧ j = j' then v else m i' j' := by
  by_cases hi : i' = i
  · subst hi
    by_cases hj : j' = j
    · subst hj
      simp
    · simp [Function.update_of_ne hj, Ne.symm hj]
  · simp [Function.update_of_ne hi, Ne.symm hi]

theorem contents_store (s : Bus) (c c' : Cell) (value : UInt8) :
    (s.store c value).contents c' = if c = c' then value else s.contents c' := by
  cases c <;> cases c' <;>
    simp [store, contents, withVram, withOam, update_two, Function.update_apply, eq_comm]

theorem cell_store (s : Bus) (c : Cell) (value : UInt8) : (s.store c value).cell = s.cell := by
  cases c <;> rfl

/-! ## The bus and the memory of cells -/

theorem find_zero_iff (s : Bus) (address : UInt16) :
    s.find address = some .zero ↔ 0xFF80 ≤ address.toNat := by
  have hlt := address.toNat_lt
  rw [s.find_eq_some_iff (by decide) (by decide)]
  unfold regionOf
  split_ifs <;> simp <;> omega

theorem vramBank_eq (s : Bus) : s.vramBank = (s.io gpuBankSelectAddress).toNat % 2 := by
  unfold vramBank
  rw [UInt8.toNat_and]
  exact Nat.and_one_is_mod _

/-- The bank of an index into work RAM, with at most eight banks selectable. -/
theorem workingBank_eq {s : Bus} (hbank : (s.io workingRamBankSelect).toNat ≤ 7) {k : Nat}
    (hk : k < 0x2000) :
    s.workingBank k = .ok (if k < 0x1000 then 0 else s.switchedBank) := by
  unfold workingBank switchedBank
  cases hcgb : s.isCGB with
  | false =>
    simp only [Bool.not_false, if_true, workingRamSize, Nat.reduceDiv, Bool.false_eq_true, if_false]
    by_cases h : k < 0x1000
    · rw [if_pos h, Nat.div_eq_of_lt h]
    · rw [if_neg h, show k / 4096 = 1 by omega]
  | true =>
    simp only [Bool.not_true, Bool.false_eq_true, if_false, if_true, workingRamSize, Nat.reduceDiv]
    refine if_pos ?_
    split_ifs
    · decide
    · exact Nat.max_lt.mpr ⟨by decide, by omega⟩

section Access

variable {s : Bus} {address : UInt16} {c : Cell}

/-- The addresses of the four kinds of cells. -/
theorem cell_cases (h : s.cell address = some c) :
    (s.find address = some .gpu ∧ c = .vram s.vramBank (address.toNat - gpuRamOffset)) ∨
      (s.find address = some .working ∧ workingIndex address.toNat < 0x2000 ∧
        c = .work (if workingIndex address.toNat < 0x1000 then 0 else s.switchedBank)
          (workingIndex address.toNat % 0x1000)) ∨
      (s.find address = some .oam ∧ c = .oam address) ∨
      (s.find address = some .zero ∧ c = .high address) := by
  simp only [cell] at h
  split_ifs at h with h1 h2 h3 h4 h5
  · refine .inl ⟨(s.find_gpu_iff address).mpr h1, ?_⟩
    rw [vramBank_eq]
    exact (Option.some.inj h).symm
  · refine .inr (.inl ⟨(s.find_working_iff address).mpr h2, ?_⟩)
    rw [workingIndex_eq h2.1 h2.2, if_pos h3, Nat.mod_eq_of_lt h3]
    exact ⟨by omega, (Option.some.inj h).symm⟩
  · refine .inr (.inl ⟨(s.find_working_iff address).mpr h2, ?_⟩)
    have hk : (address.toNat - 0xC000) % 0x2000 < 0x2000 := Nat.mod_lt _ (by decide)
    have hmod : (address.toNat - 0xC000) % 0x2000 % 0x1000 =
        (address.toNat - 0xC000) % 0x2000 - 0x1000 := by
      omega
    rw [workingIndex_eq h2.1 h2.2, if_neg h3, hmod]
    exact ⟨hk, (Option.some.inj h).symm⟩
  · exact .inr (.inr (.inl ⟨(s.find_oam_iff address).mpr h4, (Option.some.inj h).symm⟩))
  · exact .inr (.inr (.inr ⟨(s.find_zero_iff address).mpr h5, (Option.some.inj h).symm⟩))

theorem peek_cell (hbank : (s.io workingRamBankSelect).toNat ≤ 7) (h : s.cell address = some c) :
    s.peek address = .ok (s.contents c) := by
  rcases cell_cases h with ⟨hf, rfl⟩ | ⟨hf, hk, rfl⟩ | ⟨hf, rfl⟩ | ⟨hf, rfl⟩
  · simp [peek, hf, readRegion, contents]
  · simp [peek, hf, readRegion, readWorking, workingBank_eq hbank hk, contents, Except.map]
  · simp [peek, hf, readRegion, contents]
  · simp [peek, hf, readRegion, contents]

theorem write_cell (hbank : (s.io workingRamBankSelect).toNat ≤ 7) (h : s.cell address = some c)
    (depth : Nat) (value : UInt8) :
    write (depth + 1) s address value = .ok (s.store c value) := by
  rcases cell_cases h with ⟨hf, rfl⟩ | ⟨hf, hk, rfl⟩ | ⟨hf, rfl⟩ | ⟨hf, rfl⟩
  · simp [write, hf, Region.isWritable, writeRegion, writeGpu, store, withVram]
  · simp [write, hf, Region.isWritable, writeRegion, writeWorking, workingBank_eq hbank hk, store,
      Except.map]
  · simp [write, hf, Region.isWritable, writeRegion, store, withOam]
  · simp [write, hf, Region.isWritable, writeRegion, store]

end Access

/-- **The RAM areas behave as one memory**: every address belongs to a region, and a
write to a RAM address is seen at the addresses of the same cell and no others. -/
theorem ram_cells {s : Bus} (hbank : (s.io workingRamBankSelect).toNat ≤ 7) :
    (∀ address, ∃ r, s.find address = some r) ∧
      ∀ a b, (s.cell a).isSome = true → (s.cell b).isSome = true → ∀ value,
        ∃ s', (∀ depth, write (depth + 1) s a value = .ok s') ∧ (∃ old, s.peek b = .ok old) ∧
          s'.peek b = if s.cell a = s.cell b then .ok value else s.peek b := by
  refine ⟨s.find_isSome, fun a b ha hb value => ?_⟩
  obtain ⟨c, hc⟩ := Option.isSome_iff_exists.mp ha
  obtain ⟨c', hc'⟩ := Option.isSome_iff_exists.mp hb
  have hbank' : ((s.store c value).io workingRamBankSelect).toNat ≤ 7 := by
    cases c <;> exact hbank
  have hpeek := peek_cell hbank hc'
  have hpeek' : (s.store c value).peek b = .ok ((s.store c value).contents c') :=
    peek_cell hbank' (by rw [cell_store, hc'])
  refine ⟨s.store c value, fun depth => write_cell hbank hc depth value, ⟨_, hpeek⟩, ?_⟩
  rw [hpeek', hpeek, contents_store, hc, hc']
  simp only [Option.some.injEq]
  split_ifs <;> rfl

/-- A byte stored in work RAM is seen in its echo and not in the next cell. -/
theorem ram_cells_bareConsole :
    ∃ s', (∀ depth, write (depth + 1) bareConsole 0xC123 0x55 = .ok s') ∧
      s'.peek 0xE123 = .ok 0x55 ∧ s'.peek 0xC124 = bareConsole.peek 0xC124 := by
  have h := (ram_cells (s := bareConsole) (by decide)).2
  obtain ⟨s', hw, -, hecho⟩ := h 0xC123 0xE123 (by decide) (by decide) 0x55
  obtain ⟨s'', hw', -, hnext⟩ := h 0xC123 0xC124 (by decide) (by decide) 0x55
  have hsame : s'' = s' := Except.ok.inj ((hw' 0).symm.trans (hw 0))
  exact ⟨s', hw, hecho.trans (if_pos (by decide)), hsame ▸ hnext.trans (if_neg (by decide))⟩

end Bus

end GbEmu
