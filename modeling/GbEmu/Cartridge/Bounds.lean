import GbEmu.Cartridge.BankSelect
import GbEmu.Lib.Run

/-!
Which accepted images keep every cartridge access inside its vectors. The ROM
bank is bounded by the controller and not by the file size, and the RAM bank by
neither the controller nor the header, so both are safe for few images only.
-/

namespace GbEmu.Cartridge

/-- A run of bus writes to the cartridge. -/
def writes (c : Cartridge) (ws : List (UInt16 × UInt8)) : Except Fault Cartridge :=
  Run.run (fun c w => c.write w.1 w.2) c ws

/-! ## What the constructor accepts -/

theorem load_valid {host : Host} {bytes : List UInt8} {c : Cartridge}
    (h : load host (some bytes) = .ok c) (hv : c.valid = true) :
    c.memory = bytes.take (bytes.length % 2 ^ 32) ∧ c.memory.length ≤ romMaxSize ∧
      c.type = header c.memory romTypeOffset ∧
      ∃ bank, c.bank = some bank ∧
        initMemoryBankController host c.name c.memory c.type = .ok bank := by
  simp only [load] at h
  split at h
  · cases h
    cases hv
  · rename_i hsize
    split at h
    · cases h
      cases hv
    · cases hb : initMemoryBankController host (readName (bytes.take (bytes.length % 2 ^ 32)))
        (bytes.take (bytes.length % 2 ^ 32))
        (header (bytes.take (bytes.length % 2 ^ 32)) romTypeOffset) with
      | error e => rw [hb] at h; cases h
      | ok bank =>
        rw [hb] at h
        cases h
        refine ⟨rfl, ?_, rfl, bank, rfl, hb⟩
        simp only [List.length_take]
        omega

theorem load_eq_ok {host : Host} {bytes : List UInt8} {bank : Bank}
    (hmin : romHeaderLength ≤ bytes.length) (hmax : bytes.length ≤ romMaxSize)
    (hlogo : hasLogo bytes = true)
    (hbank : initMemoryBankController host (readName bytes) bytes (header bytes romTypeOffset) =
      .ok bank) :
    load host (some bytes) = .ok
      { valid := true
        cgb := getCgbMode host bytes
        size := bytes.length
        name := readName bytes
        type := header bytes romTypeOffset
        memory := bytes
        bank := some bank } := by
  have hmod : bytes.length % 2 ^ 32 = bytes.length :=
    Nat.mod_eq_of_lt (Nat.lt_of_le_of_lt hmax (by decide))
  have hsize : ¬ (bytes.length < romHeaderLength ∨ bytes.length > romMaxSize) := by omega
  simp only [load, hmod, List.take_length, if_neg hsize, hlogo, hbank]
  rfl

theorem init_ram_length (host : Host) (game : List UInt8) (size : Nat) (battery : Bool) :
    (MemoryBankController.init host game size battery).ram.length = size / extRamSize := by
  unfold MemoryBankController.init MemoryBankController.initRAM
  cases battery with
  | false => simp
  | true =>
    simp only [Bool.not_true, Bool.false_eq_true, if_false]
    split <;> simp [MemoryBankController.loadBanks]

theorem init_romBank (host : Host) (game : List UInt8) (size : Nat) (battery : Bool) :
    (MemoryBankController.init host game size battery).romBank = 1 := by
  cases battery <;> rfl

/-- The number of RAM banks that a header byte stands for. -/
def ramBanks (index : UInt8) : Nat :=
  if index = 0 ∨ index = 3 then 4 else if index = 2 then 1 else 0

theorem ramSize_banks {memory : List UInt8} {size : Nat} (h : ramSize memory = .ok size) :
    size / extRamSize = ramBanks (header memory romRamSizeOffset) := by
  unfold ramSize at h
  generalize header memory romRamSizeOffset = index at h
  by_cases h0 : index = 0
  · subst h0
    cases h
    decide
  · simp only [h0, if_false] at h
    have hidx : index.toNat = 0 ∨ index.toNat = 1 ∨ index.toNat = 2 ∨ index.toNat = 3 ∨
        4 ≤ index.toNat := by omega
    have hof : ∀ k : UInt8, index.toNat = k.toNat → index = k := fun _ e => UInt8.toNat_inj.mp e
    rcases hidx with e | e | e | e | e
    · exact absurd (hof 0 e) h0
    · cases hof 1 e
      cases h
      decide
    · cases hof 2 e
      cases h
      decide
    · cases hof 3 e
      cases h
      decide
    · rw [List.getElem?_eq_none (by simpa [ramSizes] using e)] at h
      cases h

/-- What a valid cartridge starts with: the controller of its type, bank 1
selected, and as many RAM banks as the header byte stands for. -/
theorem load_bank {host : Host} {bytes : List UInt8} {c : Cartridge}
    (h : load host (some bytes) = .ok c) (hv : c.valid = true) :
    (∃ m : MBC3, isMbc3 c.type = true ∧ c.bank = some (.mbc3 m) ∧ m.romBank = 1 ∧
      m.ram.length = ramBanks (header c.memory romRamSizeOffset)) ∨
    (∃ m : MBC1, isMbc3 c.type = false ∧ c.bank = some (.mbc1 m) ∧ m.romBank = 1 ∧
      m.mode = .rom ∧ m.ram.length = ramBanks (header c.memory romRamSizeOffset)) := by
  obtain ⟨-, -, -, bank, hbank, hinit⟩ := load_valid h hv
  unfold initMemoryBankController at hinit
  cases hs : ramSize c.memory with
  | error e => rw [hs] at hinit; cases hinit
  | ok size =>
    rw [hs] at hinit
    have hn := ramSize_banks hs
    cases ht : isMbc3 c.type with
    | true =>
      simp only [ht, if_true, Except.map, Except.ok.injEq] at hinit
      subst hinit
      refine Or.inl ⟨_, rfl, hbank, ?_, ?_⟩
      · rw [MBC3.init, MBC3.latch_controller]
        exact init_romBank ..
      · rw [MBC3.init, MBC3.latch_controller, ← hn]
        exact init_ram_length ..
    | false =>
      simp only [ht, Bool.false_eq_true, if_false, Except.map, Except.ok.injEq] at hinit
      subst hinit
      refine Or.inr ⟨_, rfl, hbank, init_romBank .., rfl, ?_⟩
      rw [← hn]
      exact init_ram_length ..

/-! ## Writes -/

theorem write_memory {c c' : Cartridge} {a : UInt16} {v : UInt8} (h : c.write a v = .ok c') :
    c'.memory = c.memory := by
  unfold write at h
  cases hb : c.bank with
  | none => rw [hb] at h; cases h
  | some bank =>
    simp only [hb] at h
    split at h
    · cases h
      rfl
    · split at h
      · obtain ⟨b, -, rfl⟩ := Run.map_eq_ok.mp h
        rfl
      · cases h
        rfl

theorem write_rom {c : Cartridge} {bank : Bank} (hb : c.bank = some bank) {a : UInt16}
    (ha : a.toNat < 0x8000) (v : UInt8) :
    c.write a v = .ok { c with bank := some (bank.writeROM a v) } := by
  simp only [write, hb]
  rw [if_pos (Or.inr (show a.toNat < rom1Offset + rom1Size from ha))]

/-- The MBC3 bank registers stay in range, with the RAM vector as it was. -/
structure Mbc3Inv (banks : Nat) (image : List UInt8) (c : Cartridge) : Prop where
  memory : c.memory = image
  bank : ∃ m : MBC3, c.bank = some (.mbc3 m) ∧ 0 < m.romBank.toNat ∧ m.romBank.toNat < 128 ∧
    m.ram.length = banks

theorem writeROM_bounds {m : MBC3} (h0 : 0 < m.romBank.toNat) (h1 : m.romBank.toNat < 128)
    (a : UInt16) (v : UInt8) :
    0 < (m.writeROM a v).romBank.toNat ∧ (m.writeROM a v).romBank.toNat < 128 ∧
      (m.writeROM a v).ram = m.ram := by
  have hmask : (v &&& 0x7F).toNat < 128 := by
    rw [UInt8.toNat_and]
    exact Nat.lt_of_le_of_lt Nat.and_le_right (by decide)
  have hlatch : ∀ m' : MBC3, m'.toMemoryBankController = m.toMemoryBankController →
      0 < m'.romBank.toNat ∧ m'.romBank.toNat < 128 ∧ m'.ram = m.ram := by
    intro m' e
    rw [e]
    exact ⟨h0, h1, rfl⟩
  unfold MBC3.writeROM
  split
  · exact ⟨h0, h1, rfl⟩
  · split
    · by_cases hz : v &&& 0x7F = 0
      · simp only [hz, ne_eq, not_true_eq_false, if_false]
        exact ⟨by decide, by decide, trivial⟩
      · simp only [ne_eq, hz, not_false_eq_true, if_true]
        refine ⟨Nat.pos_of_ne_zero fun e => hz (UInt8.toNat_inj.mp e), hmask, trivial⟩
    · split
      · exact ⟨h0, h1, rfl⟩
      · split
        · split
          · exact hlatch _ (MBC3.latch_controller _)
          · exact hlatch _ rfl
        · exact ⟨h0, h1, rfl⟩

/-- A write to the selected RAM bank leaves the registers and the number of banks alone. -/
theorem writeRAM_registers {m m' : MemoryBankController} {a : UInt16} {v : UInt8}
    (h : m.writeRAM a v = .ok m') :
    m'.romBank = m.romBank ∧ m'.ram.length = m.ram.length := by
  unfold MemoryBankController.writeRAM at h
  split at h
  · cases h
    exact ⟨rfl, rfl⟩
  · dsimp only at h
    split at h
    · cases h
    · split at h
      · cases h
        exact ⟨rfl, List.length_set⟩
      · cases h

theorem mbc3_writeRAM_registers {m m' : MBC3} {a : UInt16} {v : UInt8}
    (h : m.writeRAM a v = .ok m') :
    m'.romBank = m.romBank ∧ m'.ram.length = m.ram.length := by
  unfold MBC3.writeRAM at h
  split at h
  · cases h
    exact ⟨rfl, rfl⟩
  · split at h
    · obtain ⟨c, hw, rfl⟩ := Run.map_eq_ok.mp h
      exact writeRAM_registers hw
    · split_ifs at h <;> cases h <;> exact ⟨rfl, rfl⟩

theorem mbc3Inv_step {banks : Nat} {image : List UInt8} {c c' : Cartridge}
    (hc : Mbc3Inv banks image c) {a : UInt16} {v : UInt8} (h : c.write a v = .ok c') :
    Mbc3Inv banks image c' := by
  obtain ⟨hmem, m, hb, h0, h1, hr⟩ := hc
  refine ⟨(write_memory h).trans hmem, ?_⟩
  simp only [write, hb] at h
  split at h
  · cases h
    obtain ⟨g0, g1, g2⟩ := writeROM_bounds h0 h1 a v
    exact ⟨_, rfl, g0, g1, by rw [g2, hr]⟩
  · split at h
    · simp only [Bank.writeRAM] at h
      obtain ⟨b, hw, rfl⟩ := Run.map_eq_ok.mp h
      obtain ⟨m', hm, rfl⟩ := Run.map_eq_ok.mp hw
      obtain ⟨g, gl⟩ := mbc3_writeRAM_registers hm
      exact ⟨m', rfl, by rw [g]; exact h0, by rw [g]; exact h1, gl.trans hr⟩
    · cases h
      exact ⟨m, hb, h0, h1, hr⟩

theorem mbc3Inv_writes {banks : Nat} {image : List UInt8} {c c' : Cartridge}
    {ws : List (UInt16 × UInt8)} (h : c.writes ws = .ok c') (hc : Mbc3Inv banks image c) :
    Mbc3Inv banks image c' :=
  Run.run_invariant (fun _ _ _ hs hw => mbc3Inv_step hs hw) h hc

/-! ## ROM reads -/

theorem read_low_ok_iff {c : Cartridge} {bank : Bank} (hb : c.bank = some bank) {a : UInt16}
    (ha : a.toNat < 0x4000) : (∃ b, c.read a = .ok b) ↔ a.toNat < c.memory.length := by
  simp only [read, hb]
  rw [if_pos (show a.toNat < rom0Offset + rom0Size from ha)]
  cases hg : c.memory[a.toNat]? with
  | none => simpa using List.getElem?_eq_none_iff.mp hg
  | some b => simpa using (List.getElem?_eq_some_iff.mp hg).1

theorem read_bank_ok_iff {c : Cartridge} {bank : Bank} (hb : c.bank = some bank) {a : UInt16}
    (ha : 0x4000 ≤ a.toNat) (ha' : a.toNat < 0x8000) (hr : 0 < bank.controller.romBank.toNat) :
    (∃ b, c.read a = .ok b) ↔
      a.toNat + (bank.controller.romBank.toNat - 1) * rom1Size < c.memory.length := by
  have hz : bank.controller.romBank ≠ 0 := by
    intro e
    rw [e] at hr
    exact absurd hr (by decide)
  simp only [read, hb]
  rw [if_neg (show ¬ a.toNat < rom0Offset + rom0Size from Nat.not_lt.mpr ha),
    if_pos (show a.toNat < rom1Offset + rom1Size from ha')]
  simp only [MemoryBankController.readROM, hz, if_false]
  cases hg : c.memory[a.toNat + (bank.controller.romBank.toNat - 1) * rom1Size]? with
  | none => simpa using List.getElem?_eq_none_iff.mp hg
  | some b => simpa using (List.getElem?_eq_some_iff.mp hg).1

/-- A run of writes below 0x8000, applied to the controller. -/
theorem writes_rom {c : Cartridge} {bank : Bank} (hb : c.bank = some bank)
    {ws : List (UInt16 × UInt8)} (hws : ∀ w ∈ ws, w.1.toNat < 0x8000) :
    c.writes ws = .ok { c with bank := some (ws.foldl (fun b w => b.writeROM w.1 w.2) bank) } := by
  induction ws generalizing c bank with
  | nil =>
    show Except.ok c = _
    rw [List.foldl_nil, ← hb]
  | cons w ws ih =>
    exact Run.run_cons_ok.mpr ⟨_, write_rom hb (hws w (by simp)) w.2,
      ih rfl fun u hu => hws u (by simp [hu])⟩

/-- If every read is safe, a bank that some run selects lies inside the image. -/
theorem selected_bank_inside {c : Cartridge} {bank : Bank} (hb : c.bank = some bank)
    (hsafe : ∀ ws c', c.writes ws = .ok c' → ∀ a : UInt16, a < 0x8000 → ∃ b, c'.read a = .ok b)
    (ws : List (UInt16 × UInt8)) (hws : ∀ w ∈ ws, w.1.toNat < 0x8000) {k : UInt8}
    (hk : (ws.foldl (fun b w => b.writeROM w.1 w.2) bank).controller.romBank = k)
    (h0 : 0 < k.toNat) : 0x7FFF + (k.toNat - 1) * 0x4000 < c.memory.length := by
  subst hk
  have hread := hsafe ws _ (writes_rom hb hws) 0x7FFF (by decide)
  exact (read_bank_ok_iff rfl (by decide) (by decide) h0).mp hread

theorem mbc1_select_all {m : MBC1} (hm : m.mode = .rom) (hr : m.romBank = 1) :
    ((m.writeROM 0x4000 0xFF).writeROM 0x2000 0x1F).romBank = 0xFF := by
  rw [MBC1.writeROM_romBank, if_pos (by decide), MBC1.writeROM_romBank, if_neg (by decide),
    if_pos ⟨by decide, by decide, hm⟩, hr]
  decide

/-- **ROM bounds.** Every ROM read of every run is inside the image exactly for
an MBC3 image of the maximal size. -/
theorem rom_reads_in_bounds_iff {host : Host} {bytes : List UInt8} {c : Cartridge}
    (h : load host (some bytes) = .ok c) (hv : c.valid = true) :
    (∀ ws c', c.writes ws = .ok c' → ∀ a : UInt16, a < 0x8000 → ∃ b, c'.read a = .ok b) ↔
      isMbc3 c.type = true ∧ c.memory.length = romMaxSize := by
  have hmax := (load_valid h hv).2.1
  unfold romMaxSize at hmax ⊢
  constructor
  · intro hsafe
    rcases load_bank h hv with ⟨m, ht, hb, -, -⟩ | ⟨m, -, hb, hr, hm, -⟩
    · have hin := selected_bank_inside hb hsafe [(0x2000, 0x7F)] (by simp) (k := 0x7F) rfl
        (by decide)
      simp only [UInt8.reduceToNat] at hin
      exact ⟨ht, by omega⟩
    · have hin := selected_bank_inside hb hsafe [(0x4000, 0xFF), (0x2000, 0x1F)] (by simp)
        (mbc1_select_all hm hr) (by decide)
      simp only [UInt8.reduceToNat] at hin
      omega
  · rintro ⟨ht, hlen⟩ ws c' hw a ha
    rcases load_bank h hv with ⟨m, -, hb, hr, -⟩ | ⟨_, ht', -⟩
    · have hinv : Mbc3Inv m.ram.length c.memory c :=
        ⟨rfl, m, hb, by rw [hr]; decide, by rw [hr]; decide, rfl⟩
      obtain ⟨hmem, m', hb', h0, h1, -⟩ := mbc3Inv_writes hw hinv
      have ha8 : a.toNat < 0x8000 := by simpa [UInt16.lt_iff_toNat_lt] using ha
      by_cases ha4 : a.toNat < 0x4000
      · rw [read_low_ok_iff hb' ha4, hmem, hlen]
        omega
      · rw [read_bank_ok_iff hb' (by omega) ha8 h0, hmem, hlen]
        have hk : (m'.romBank.toNat - 1) * 0x4000 ≤ 126 * 0x4000 := by omega
        show a.toNat + (m'.romBank.toNat - 1) * 0x4000 < _
        omega
    · rw [ht] at ht'
      cases ht'

/-- The shortest image that is accepted: a logo in a header and nothing else. -/
def headerImage : List UInt8 := List.replicate 0x104 0 ++ nintendoLogo ++ List.replicate 0x4C 0

def defaultHost : Host := { emuMode := 0, saveFile := fun _ => none, localtime := fun _ => none }

theorem load_headerImage : ∃ c m, load defaultHost (some headerImage) = .ok c ∧ c.valid = true ∧
    c.memory = headerImage ∧ c.bank = some (.mbc1 m) ∧ m.romBank = 1 ∧ m.ram.length = 4 := by
  have hlen : headerImage.length = 0x180 := by decide +kernel
  have htype : header headerImage romTypeOffset = 0 := by decide +kernel
  have hindex : header headerImage romRamSizeOffset = 0 := by decide +kernel
  have hram : ramSize headerImage = .ok 0x8000 := by simp [ramSize, hindex]
  refine ⟨_, MBC1.init defaultHost (readName headerImage) 0x8000 false, load_eq_ok hlen.ge ?_ ?_ ?_,
    rfl, rfl, rfl, rfl, rfl⟩
  · rw [hlen]
    decide
  · decide +kernel
  · rw [initMemoryBankController, hram, htype]
    rfl

/-- The same image under a mode of the configuration; it names none itself. -/
theorem load_headerImage_mode (mode : UInt8) : ∃ c,
    load { defaultHost with emuMode := mode } (some headerImage) = .ok c ∧ c.valid = true ∧
      c.cgb = decide (mode = 1) := by
  have hlen : headerImage.length = 0x180 := by decide +kernel
  have hindex : header headerImage romRamSizeOffset = 0 := by decide +kernel
  have hflag : header headerImage romCgbOffset = 0 := by decide +kernel
  have hram : ramSize headerImage = .ok 0x8000 := by simp [ramSize, hindex]
  have hbank : ∃ bank, initMemoryBankController { defaultHost with emuMode := mode }
      (readName headerImage) headerImage (header headerImage romTypeOffset) = .ok bank := by
    rw [initMemoryBankController, hram]
    exact ⟨_, rfl⟩
  obtain ⟨bank, hbank⟩ := hbank
  refine ⟨_, load_eq_ok hlen.ge ?_ ?_ hbank, rfl, ?_⟩
  · rw [hlen]
    decide
  · decide +kernel
  · simp only [getCgbMode, hflag]
    by_cases h1 : mode = 1
    · simp [h1]
    · by_cases h2 : mode = 2
      · simp [h2, romCgbOnly]
      · simp [h1, h2, romCgbOnly, romDualSupport]

theorem rom_reads_in_bounds_iff_headerImage : ∃ c, load defaultHost (some headerImage) = .ok c ∧
    ((∀ ws c', c.writes ws = .ok c' → ∀ a : UInt16, a < 0x8000 → ∃ b, c'.read a = .ok b) ↔
      isMbc3 c.type = true ∧ c.memory.length = romMaxSize) := by
  obtain ⟨c, -, h, hv, -⟩ := load_headerImage
  exact ⟨c, h, rom_reads_in_bounds_iff h hv⟩

/-- With that image the first read of the switchable bank is out of bounds. -/
theorem rom_read_out_of_bounds :
    ¬ ∀ (host : Host) (bytes : List UInt8) (c : Cartridge), load host (some bytes) = .ok c →
      c.valid = true → ∀ ws c', c.writes ws = .ok c' → ∀ a : UInt16, a < 0x8000 →
        ∃ b, c'.read a = .ok b := by
  intro hall
  obtain ⟨c, m, h, hv, hm, hb, hr, -⟩ := load_headerImage
  have hread := hall _ _ c h hv [] c rfl 0x4000 (by decide)
  have hr' : (Bank.mbc1 m).controller.romBank = 1 := hr
  rw [read_bank_ok_iff hb (by decide) (by decide) (by rw [hr']; decide), hm, hr'] at hread
  exact absurd hread (by decide +kernel)

/-! ## External RAM -/

/-- An access that does not reach `m_ram`, or reaches it below its size. -/
def RamAccessible (bank : Bank) : Prop :=
  bank.controller.ramEnable = true →
    match bank with
    | .mbc1 m => m.ramBank.toNat < m.ram.length
    | .mbc3 m => m.ramBank.toNat < MBC3.ramBankCount → m.ramBank.toNat < m.ram.length

theorem readRAM_ok_iff {m : MemoryBankController} {a : UInt16}
    (ha : a.toNat < extRamOffset + extRamSize) :
    (∃ b, m.readRAM a = .ok b) ↔ (m.ramEnable = true → m.ramBank.toNat < m.ram.length) := by
  unfold MemoryBankController.readRAM
  cases m.ramEnable with
  | false => simp
  | true =>
    have hidx : a.toNat - 0xA000 < 0x2000 := by
      have ha' : a.toNat < 0xA000 + 0x2000 := ha
      omega
    simp only [Bool.not_true, Bool.false_eq_true, if_false, hidx, if_true, forall_const]
    cases hg : m.ram[m.ramBank.toNat]? with
    | none => simpa using List.getElem?_eq_none_iff.mp hg
    | some bank => simpa using (List.getElem?_eq_some_iff.mp hg).1

theorem writeRAM_ok_iff {m : MemoryBankController} {a : UInt16} {v : UInt8}
    (ha : a.toNat < extRamOffset + extRamSize) :
    (∃ m', m.writeRAM a v = .ok m') ↔ (m.ramEnable = true → m.ramBank.toNat < m.ram.length) := by
  unfold MemoryBankController.writeRAM
  cases m.ramEnable with
  | false => simp
  | true =>
    have hidx : a.toNat - 0xA000 < 0x2000 := by
      have ha' : a.toNat < 0xA000 + 0x2000 := ha
      omega
    simp only [Bool.not_true, Bool.false_eq_true, if_false, hidx, if_true, forall_const]
    cases hg : m.ram[m.ramBank.toNat]? with
    | none => simpa using List.getElem?_eq_none_iff.mp hg
    | some bank => simpa using (List.getElem?_eq_some_iff.mp hg).1

theorem bank_readRAM_ok_iff {bank : Bank} {a : UInt16} (ha : a.toNat < extRamOffset + extRamSize) :
    (∃ b, bank.readRAM a = .ok b) ↔ RamAccessible bank := by
  cases bank with
  | mbc1 m => exact readRAM_ok_iff ha
  | mbc3 m =>
    simp only [Bank.readRAM, MBC3.readRAM, RamAccessible, Bank.controller]
    cases he : m.ramEnable with
    | false => simp
    | true =>
      simp only [Bool.not_true, Bool.false_eq_true, if_false, forall_const]
      by_cases hb : m.ramBank.toNat < MBC3.ramBankCount
      · simp only [hb, if_true, forall_const]
        rw [readRAM_ok_iff ha, he]
        simp
      · simp only [hb, if_false, false_implies, iff_true]
        split_ifs <;> exact ⟨_, rfl⟩

theorem bank_writeRAM_ok_iff {bank : Bank} {a : UInt16} {v : UInt8}
    (ha : a.toNat < extRamOffset + extRamSize) :
    (∃ b, bank.writeRAM a v = .ok b) ↔ RamAccessible bank := by
  have hmap : ∀ {α β : Type} (x : Except Fault α) (f : α → β),
      (∃ b, x.map f = .ok b) ↔ ∃ a, x = .ok a := by
    intro α β x f
    cases x <;> simp [Except.map]
  cases bank with
  | mbc1 m =>
    simp only [Bank.writeRAM, hmap]
    exact writeRAM_ok_iff ha
  | mbc3 m =>
    simp only [Bank.writeRAM, hmap, MBC3.writeRAM, RamAccessible, Bank.controller]
    cases he : m.ramEnable with
    | false => simp
    | true =>
      simp only [Bool.not_true, Bool.false_eq_true, if_false, forall_const]
      by_cases hb : m.ramBank.toNat < MBC3.ramBankCount
      · simp only [hb, if_true, forall_const, hmap]
        rw [writeRAM_ok_iff ha, he]
        simp
      · simp only [hb, if_false, false_implies, iff_true]
        split_ifs <;> exact ⟨_, rfl⟩

theorem read_ram_ok_iff {c : Cartridge} {bank : Bank} (hb : c.bank = some bank) {a : UInt16}
    (ha : 0xA000 ≤ a) (ha' : a < 0xC000) : (∃ b, c.read a = .ok b) ↔ RamAccessible bank := by
  simp only [UInt16.le_iff_toNat_le, UInt16.lt_iff_toNat_lt, UInt16.reduceToNat] at ha ha'
  simp only [read, hb, rom0Offset, rom0Size, rom1Offset, rom1Size]
  rw [if_neg (by omega), if_neg (by omega), if_pos ⟨ha, ha'⟩]
  exact bank_readRAM_ok_iff ha'

theorem writes_ram_ok {c : Cartridge} {image : List UInt8} (hc : Mbc3Inv 4 image c) (a : UInt16)
    (v : UInt8) : ∃ c', c.write a v = .ok c' ∧ Mbc3Inv 4 image c' := by
  suffices h : ∃ c', c.write a v = .ok c' by
    obtain ⟨c', h⟩ := h
    exact ⟨c', h, mbc3Inv_step hc h⟩
  obtain ⟨-, m, hb, -, -, hr⟩ := hc
  simp only [write, hb]
  split_ifs with h0 h1
  · exact ⟨_, rfl⟩
  · have hacc : RamAccessible (.mbc3 m) := fun _ hlt => by rw [hr]; exact hlt
    obtain ⟨b, hw⟩ := (bank_writeRAM_ok_iff (v := v) h1.2).mpr hacc
    rw [hw]
    exact ⟨_, rfl⟩
  · exact ⟨_, rfl⟩

/-- **External RAM bounds.** Every RAM access of every run stays below the
number of banks exactly for an MBC3 whose header asks for four of them. -/
theorem ram_accesses_in_bounds_iff {host : Host} {bytes : List UInt8} {c : Cartridge}
    (h : load host (some bytes) = .ok c) (hv : c.valid = true) :
    (∀ ws, ∃ c', c.writes ws = .ok c' ∧
      ∀ a : UInt16, 0xA000 ≤ a → a < 0xC000 → ∃ b, c'.read a = .ok b) ↔
      isMbc3 c.type = true ∧
        (header c.memory romRamSizeOffset = 0 ∨ header c.memory romRamSizeOffset = 3) := by
  constructor
  · intro hsafe
    have hacc : ∀ {bank : Bank}, c.bank = some bank → ∀ ws : List (UInt16 × UInt8),
        (∀ w ∈ ws, w.1.toNat < 0x8000) →
        RamAccessible (ws.foldl (fun b w => b.writeROM w.1 w.2) bank) := by
      intro bank hb ws hws
      obtain ⟨c', hw, hread⟩ := hsafe ws
      rw [writes_rom hb hws, Except.ok.injEq] at hw
      subst hw
      have hr := hread 0xA000 (by decide) (by decide)
      exact (read_ram_ok_iff rfl (by decide) (by decide)).mp hr
    rcases load_bank h hv with ⟨m, ht, hb, -, hl⟩ | ⟨m, -, hb, -, -, hl⟩
    · have h3 : 3 < m.ram.length :=
        hacc hb [(0x0000, 0x0A), (0x4000, 0x03)] (by simp) rfl (show 3 < 4 by decide)
      rw [hl, ramBanks] at h3
      split_ifs at h3 with h0 h1
      · exact ⟨ht, h0⟩
      · omega
      · omega
    · have h7 : 7 < m.ram.length :=
        hacc hb [(0x0000, 0x0A), (0x6000, 0x01), (0x4000, 0x07)] (by simp) rfl
      rw [hl, ramBanks] at h7
      split_ifs at h7 <;> omega
  · rintro ⟨ht, hidx⟩ ws
    rcases load_bank h hv with ⟨m, -, hb, hr, hl⟩ | ⟨_, ht', -⟩
    · have h4 : m.ram.length = 4 := by rw [hl, ramBanks, if_pos hidx]
      obtain ⟨c', hw, -, m', hb', -, -, hl'⟩ := Run.run_total
        (fun _ (w : UInt16 × UInt8) hs => writes_ram_ok hs w.1 w.2) ws
        ⟨rfl, m, hb, by rw [hr]; decide, by rw [hr]; decide, h4⟩
      refine ⟨c', hw, fun a ha ha' => (read_ram_ok_iff hb' ha ha').mpr fun _ hlt => ?_⟩
      rw [hl']
      exact hlt
    · rw [ht] at ht'
      cases ht'

theorem ram_accesses_in_bounds_iff_headerImage :
    ∃ c, load defaultHost (some headerImage) = .ok c ∧
      ((∀ ws, ∃ c', c.writes ws = .ok c' ∧
        ∀ a : UInt16, 0xA000 ≤ a → a < 0xC000 → ∃ b, c'.read a = .ok b) ↔
        isMbc3 c.type = true ∧
          (header c.memory romRamSizeOffset = 0 ∨ header c.memory romRamSizeOffset = 3)) := by
  obtain ⟨c, -, h, hv, -⟩ := load_headerImage
  exact ⟨c, h, ram_accesses_in_bounds_iff h hv⟩

/-- With four banks of RAM, an MBC1 in RAM mode reaches past them with bank 7. -/
theorem ram_access_out_of_bounds :
    ¬ ∀ (host : Host) (bytes : List UInt8) (c : Cartridge), load host (some bytes) = .ok c →
      c.valid = true → ∀ ws, ∃ c', c.writes ws = .ok c' ∧
        ∀ a : UInt16, 0xA000 ≤ a → a < 0xC000 → ∃ b, c'.read a = .ok b := by
  intro hall
  obtain ⟨c, m, h, hv, -, hb, -, hl⟩ := load_headerImage
  obtain ⟨c', hw, hread⟩ := hall _ _ c h hv [(0x0000, 0x0A), (0x6000, 0x01), (0x4000, 0x07)]
  rw [writes_rom hb (by simp), Except.ok.injEq] at hw
  subst hw
  have h7 : 7 < m.ram.length :=
    (read_ram_ok_iff rfl (by decide) (by decide)).mp (hread 0xA000 (by decide) (by decide)) rfl
  omega

end GbEmu.Cartridge
