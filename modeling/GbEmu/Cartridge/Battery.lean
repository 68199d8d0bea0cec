import GbEmu.Cartridge.Bounds
import GbEmu.Lib.Blocks

/-!
The save file of a cartridge with a battery. It is written when the controller is
built and at every store to RAM; it holds the RAM banks one after the other, and
the next controller fills its banks from it.
-/

namespace GbEmu

open MemoryBankController

namespace MemoryBankController

@[simp] theorem bankBytes_length (bank : RamBank) : (bankBytes bank).length = extRamSize := by
  simp [bankBytes]

theorem bankBytes_getElem? (bank : RamBank) {i : Nat} (hi : i < extRamSize) :
    (bankBytes bank)[i]? = some (bank i) := by
  simp only [bankBytes, List.getElem?_map, List.getElem?_range hi, Option.map_some]

theorem bankBytes_update (bank : RamBank) (i : Nat) (value : UInt8) :
    bankBytes (Function.update bank i value) = (bankBytes bank).set i value := by
  refine List.ext_getElem? fun j => ?_
  rw [List.getElem?_set, bankBytes_length]
  by_cases hj : j < extRamSize
  · rw [bankBytes_getElem? _ hj, bankBytes_getElem? _ hj]
    by_cases hij : i = j
    · subst hij
      rw [if_pos rfl, if_pos hj, Function.update_self]
    · rw [if_neg hij, Function.update_of_ne (Ne.symm hij)]
  · have hnone : ∀ b : RamBank, (bankBytes b)[j]? = none := fun b =>
      List.getElem?_eq_none (by rw [bankBytes_length]; omega)
    rw [hnone, hnone]
    split_ifs with hij hi
    · exact absurd (hij ▸ hi) hj
    all_goals rfl

/-- The save file is the RAM banks one after the other, and there are `banks` of them. -/
structure Saved (banks : Nat) (m : MemoryBankController) : Prop where
  length : m.ram.length = banks
  file : m.nvRam = some (m.ram.flatMap bankBytes)

theorem Saved.of_eq {banks : Nat} {m m' : MemoryBankController} (hm : m.Saved banks)
    (hram : m'.ram = m.ram) (hfile : m'.nvRam = m.nvRam) : m'.Saved banks :=
  ⟨hram ▸ hm.length, by rw [hfile, hram, hm.file]⟩

theorem init_saved (host : Host) (game : List UInt8) (size : Nat) :
    Saved (size / extRamSize) (init host game size true) :=
  ⟨Cartridge.init_ram_length host game size true, rfl⟩

theorem writeRAM_saved {banks : Nat} {m m' : MemoryBankController} {address : UInt16}
    {value : UInt8} (hm : m.Saved banks) (h : m.writeRAM address value = .ok m') :
    m'.Saved banks := by
  simp only [writeRAM] at h
  by_cases he : m.ramEnable = true
  · simp only [he, Bool.not_true, Bool.false_eq_true, if_false] at h
    cases hbank : m.ram[m.ramBank.toNat]? with
    | none => simp [hbank] at h
    | some bank =>
      simp only [hbank] at h
      split_ifs at h with hi
      rw [← Except.ok.inj h]
      refine ⟨by simpa using hm.length, ?_⟩
      rw [hm.file, Option.map_some,
        Blocks.flatMap_set bankBytes_length hi hbank (bankBytes_update bank _ value)]
  · simp only [he, Bool.not_false, if_true, Except.ok.injEq] at h
    exact h ▸ hm

/-- The banks that are filled from the file are the banks that it was written from. -/
theorem loadBanks_flatMap (ram : List RamBank) :
    (loadBanks ram.length (ram.flatMap bankBytes)).map bankBytes = ram.map bankBytes := by
  refine List.ext_getElem? fun k => ?_
  rw [loadBanks, List.map_map, List.getElem?_map, List.getElem?_map]
  by_cases hk : k < ram.length
  · rw [List.getElem?_range hk, List.getElem?_eq_getElem hk, Option.map_some, Option.map_some,
      Function.comp_apply, Option.some.injEq]
    unfold bankBytes
    refine List.map_congr_left fun i hi => ?_
    have hlt : i < extRamSize := List.mem_range.mp hi
    have hcell := Blocks.getElem?_flatMap bankBytes_length hlt ram k
    rw [List.getElem?_eq_getElem hk, Option.bind_some, bankBytes_getElem? _ hlt] at hcell
    change ((ram.flatMap bankBytes).getD (k * extRamSize + i) 0) = ram[k] i
    rw [List.getD_eq_getElem?_getD, Nat.mul_comm k, Nat.add_comm _ i, hcell, Option.getD_some]
  · rw [List.getElem?_eq_none (by simpa using hk), List.getElem?_eq_none (by simpa using hk)]
    rfl

end MemoryBankController

namespace Bank

theorem mbc1_writeROM_ram (m : MBC1) (address : UInt16) (value : UInt8) :
    (m.writeROM address value).ram = m.ram ∧ (m.writeROM address value).nvRam = m.nvRam := by
  unfold MBC1.writeROM
  split_ifs
  · exact ⟨rfl, rfl⟩
  · exact ⟨rfl, rfl⟩
  · cases m.mode <;> exact ⟨rfl, rfl⟩
  all_goals exact ⟨rfl, rfl⟩

theorem mbc3_writeROM_ram (m : MBC3) (address : UInt16) (value : UInt8) :
    (m.writeROM address value).ram = m.ram ∧ (m.writeROM address value).nvRam = m.nvRam := by
  have hlatched : { m with latched := value }.latch.ram = m.ram ∧
      { m with latched := value }.latch.nvRam = m.nvRam := by
    rw [MBC3.latch_controller]
    exact ⟨rfl, rfl⟩
  unfold MBC3.writeROM
  simp only
  split_ifs with h0 h1 h2 h3 hlatch
  all_goals first | exact ⟨rfl, rfl⟩ | exact hlatched

theorem writeROM_saved {banks : Nat} {b : Bank} (hb : b.controller.Saved banks)
    (address : UInt16) (value : UInt8) : (b.writeROM address value).controller.Saved banks := by
  cases b with
  | mbc1 m =>
    obtain ⟨hram, hfile⟩ := mbc1_writeROM_ram m address value
    exact hb.of_eq hram hfile
  | mbc3 m =>
    obtain ⟨hram, hfile⟩ := mbc3_writeROM_ram m address value
    exact hb.of_eq hram hfile

/-- A store reaches the banks and the file, or neither of them. -/
theorem writeRAM_saved {banks : Nat} {b b' : Bank} {address : UInt16} {value : UInt8}
    (hb : b.controller.Saved banks) (h : b.writeRAM address value = .ok b') :
    b'.controller.Saved banks := by
  cases b with
  | mbc1 m =>
    simp only [writeRAM] at h
    obtain ⟨c, hw, rfl⟩ := Run.map_eq_ok.mp h
    exact MemoryBankController.writeRAM_saved hb hw
  | mbc3 m =>
    simp only [writeRAM] at h
    obtain ⟨m', hw, rfl⟩ := Run.map_eq_ok.mp h
    unfold MBC3.writeRAM at hw
    by_cases he : m.ramEnable = true
    · by_cases hbank : m.ramBank.toNat < MBC3.ramBankCount
      · simp only [he, Bool.not_true, Bool.false_eq_true, if_false, hbank, if_true] at hw
        obtain ⟨c, hc, rfl⟩ := Run.map_eq_ok.mp hw
        exact MemoryBankController.writeRAM_saved hb hc
      · -- The clock registers are not part of the file.
        simp only [he, Bool.not_true, Bool.false_eq_true, if_false, hbank] at hw
        split_ifs at hw <;> exact Except.ok.inj hw ▸ hb.of_eq rfl rfl
    · simp only [he, Bool.not_false, if_true, Except.ok.injEq] at hw
      exact hw ▸ hb

end Bank

namespace Cartridge

def Saved (banks : Nat) (c : Cartridge) : Prop :=
  ∃ bank, c.bank = some bank ∧ bank.controller.Saved banks

theorem write_saved {banks : Nat} {c c' : Cartridge} {address : UInt16} {value : UInt8}
    (hc : c.Saved banks) (h : c.write address value = .ok c') : c'.Saved banks := by
  obtain ⟨bank, hbank, hs⟩ := hc
  simp only [write, hbank] at h
  split_ifs at h
  · rw [← Except.ok.inj h]
    exact ⟨_, rfl, Bank.writeROM_saved hs address value⟩
  · obtain ⟨b, hw, rfl⟩ := Run.map_eq_ok.mp h
    exact ⟨b, rfl, Bank.writeRAM_saved hs hw⟩
  · rw [← Except.ok.inj h]
    exact ⟨bank, hbank, hs⟩

/-- `MBC_1RB`, `MBC_3RB` and `MBC_3TRB`. -/
def hasBattery (type : UInt8) : Bool := isMbc3 type || type == 0x03

theorem init_saved (host : Host) (game : List UInt8) {memory : List UInt8} {type : UInt8}
    {size : Nat} (hsize : ramSize memory = .ok size) (ht : hasBattery type = true) :
    ∃ bank, initMemoryBankController host game memory type = .ok bank ∧
      bank.controller.Saved (size / extRamSize) ∧
      bank.controller.ram = (MemoryBankController.init host game size true).ram := by
  have hs := MemoryBankController.init_saved host game size
  unfold initMemoryBankController
  rw [hsize]
  cases hm : isMbc3 type with
  | true =>
    refine ⟨_, rfl, ?_⟩
    simp only [if_true, Bank.controller, MBC3.init, MBC3.latch_controller]
    exact ⟨hs, trivial⟩
  | false =>
    have h3 : (type == 0x03) = true := by simpa [hasBattery, hm] using ht
    refine ⟨_, rfl, ?_⟩
    simp only [Bool.false_eq_true, if_false, h3]
    exact ⟨hs, rfl⟩

/-- Loading the image again, whatever the host. -/
theorem load_again {host host' : Host} {bytes : List UInt8} {c : Cartridge} {bank : Bank}
    (h : load host (some bytes) = .ok c) (hv : c.valid = true)
    (hb : initMemoryBankController host' c.name c.memory c.type = .ok bank) :
    load host' (some bytes) =
      .ok { c with cgb := getCgbMode host' c.memory, bank := some bank } := by
  simp only [load] at h ⊢
  split at h
  · cases h
    cases hv
  · rename_i hsize
    split at h
    · cases h
      cases hv
    · rename_i hlogo
      rw [if_neg hsize, if_neg hlogo]
      cases hfirst : initMemoryBankController host
          (readName (bytes.take (bytes.length % 2 ^ 32))) (bytes.take (bytes.length % 2 ^ 32))
          (header (bytes.take (bytes.length % 2 ^ 32)) romTypeOffset) with
      | error e =>
        rw [hfirst] at h
        cases h
      | ok first =>
        rw [hfirst] at h
        cases h
        rw [hb]
        rfl

/-- The name of the save file. -/
def saveName (c : Cartridge) : List UInt8 := c.name ++ [0x2E, 0x73, 0x61, 0x76]

/-- **Battery RAM.** After construction and every run of writes that stay in the RAM
banks there are, the save file is the banks one after the other; and a cartridge
built from that file has the same banks. -/
theorem battery_ram_persists {host : Host} {bytes : List UInt8} {c c' : Cartridge}
    {ws : List (UInt16 × UInt8)} (h : load host (some bytes) = .ok c) (hv : c.valid = true)
    (ht : hasBattery c.type = true) (hw : c.writes ws = .ok c') :
    ∃ bank file, c'.bank = some bank ∧ bank.controller.nvRam = some file ∧
      file = bank.controller.ram.flatMap bankBytes ∧
      ∀ host' : Host, host'.saveFile c.saveName = some file →
        ∃ again bank', load host' (some bytes) = .ok again ∧ again.valid = true ∧
          again.bank = some bank' ∧
          bank'.controller.ram.map bankBytes = bank.controller.ram.map bankBytes := by
  obtain ⟨-, -, -, first, hfirst, hinit⟩ := load_valid h hv
  obtain ⟨size, hsize⟩ : ∃ size, ramSize c.memory = .ok size := by
    cases hs : ramSize c.memory with
    | error e =>
      rw [initMemoryBankController, hs] at hinit
      cases hinit
    | ok size => exact ⟨size, rfl⟩
  have hsaved : c.Saved (size / extRamSize) := by
    obtain ⟨b, hb, hs, -⟩ := init_saved host c.name hsize ht
    rw [hinit, Except.ok.injEq] at hb
    exact ⟨first, hfirst, hb ▸ hs⟩
  obtain ⟨bank, hbank, hs⟩ := Run.run_invariant (fun _ _ _ hs hw => write_saved hs hw) hw hsaved
  refine ⟨bank, _, hbank, hs.file, rfl, fun host' hfile => ?_⟩
  obtain ⟨bank', hb', -, hram⟩ := init_saved host' c.name hsize ht
  refine ⟨_, bank', load_again h hv hb', hv, rfl, ?_⟩
  have hlen := hs.length
  have hload : (MemoryBankController.init host' c.name size true).ram =
      loadBanks (size / extRamSize) (bank.controller.ram.flatMap bankBytes) := by
    unfold MemoryBankController.init initRAM
    rw [saveName] at hfile
    simp only [hfile, Bool.not_true, Bool.false_eq_true, if_false, List.length_replicate]
  rw [hram, hload, ← hlen, loadBanks_flatMap]

theorem write_ram_ok {c : Cartridge} {bank : Bank} (hb : c.bank = some bank) {a : UInt16}
    {v : UInt8} (ha : 0xA000 ≤ a.toNat) (ha' : a.toNat < 0xC000) (hacc : RamAccessible bank) :
    ∃ c', c.write a v = .ok c' := by
  obtain ⟨b, hw⟩ := (bank_writeRAM_ok_iff (v := v) ha').mpr hacc
  simp only [write, hb, rom0Offset, rom0Size, rom1Offset, rom1Size]
  rw [if_neg (by omega), if_pos ⟨ha, ha'⟩, hw]
  exact ⟨_, rfl⟩

/-- The image of a header that asks for an MBC1 with a battery. -/
def batteryImage : List UInt8 := headerImage.set romTypeOffset 0x03

theorem load_batteryImage : ∃ c m, load defaultHost (some batteryImage) = .ok c ∧
    c.valid = true ∧ c.type = 0x03 ∧ c.bank = some (.mbc1 m) ∧ m.ramBank = 0 ∧
    m.ram.length = 4 := by
  have hlen : batteryImage.length = 0x180 := by decide +kernel
  have htype : header batteryImage romTypeOffset = 0x03 := by decide +kernel
  have hindex : header batteryImage romRamSizeOffset = 0 := by decide +kernel
  have hram : ramSize batteryImage = .ok 0x8000 := by simp [ramSize, hindex]
  refine ⟨_, MBC1.init defaultHost (readName batteryImage) 0x8000 true,
    load_eq_ok hlen.ge ?_ ?_ ?_, rfl, htype, rfl, rfl, rfl⟩
  · rw [hlen]
    decide
  · decide +kernel
  · rw [initMemoryBankController, hram, htype]
    rfl

/-- Enabling the RAM and storing a byte. -/
theorem battery_ram_persists_store : ∃ c c', load defaultHost (some batteryImage) = .ok c ∧
    c.writes [(0x0000, 0x0A), (0xA000, 0x42)] = .ok c' ∧
    ∃ bank file, c'.bank = some bank ∧ bank.controller.nvRam = some file ∧
      file = bank.controller.ram.flatMap bankBytes ∧
      ∀ host' : Host, host'.saveFile c.saveName = some file →
        ∃ again bank', load host' (some batteryImage) = .ok again ∧ again.valid = true ∧
          again.bank = some bank' ∧
          bank'.controller.ram.map bankBytes = bank.controller.ram.map bankBytes := by
  obtain ⟨c, m, h, hv, ht, hb, hbank, hl⟩ := load_batteryImage
  have henable := write_rom hb (a := 0x0000) (by decide) 0x0A
  have hacc : RamAccessible ((Bank.mbc1 m).writeROM 0x0000 0x0A) := by
    intro _
    change m.ramBank.toNat < m.ram.length
    rw [hbank, hl]
    decide
  obtain ⟨c', hstore⟩ := write_ram_ok rfl (c := { c with bank := _ }) (a := 0xA000) (v := 0x42)
    (by decide) (by decide) hacc
  have hw : c.writes [(0x0000, 0x0A), (0xA000, 0x42)] = .ok c' :=
    Run.run_cons_ok.mpr ⟨_, henable, Run.run_cons_ok.mpr ⟨c', hstore, rfl⟩⟩
  exact ⟨c, c', h, hw, battery_ram_persists h hv (by rw [ht]; decide) hw⟩

end Cartridge

end GbEmu
