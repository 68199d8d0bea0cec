import GbEmu.Cartridge.Bounds

/-!
What becomes of an arbitrary file. After size and logo have passed their checks the
size of the RAM is looked up in a table of four entries, and the size of the file
itself has been cut to 32 bits before it is checked.
-/

namespace GbEmu.Cartridge

/-- What the constructor is to accept. -/
def Acceptable (bytes : List UInt8) : Prop :=
  romHeaderLength ≤ bytes.length ∧ bytes.length ≤ romMaxSize ∧ hasLogo bytes = true

/-- What passes the checks of the constructor, with its cut size. -/
def Checked (bytes : List UInt8) : Prop :=
  romHeaderLength ≤ bytes.length % 2 ^ 32 ∧ bytes.length % 2 ^ 32 ≤ romMaxSize ∧
    hasLogo bytes = true

/-- The byte 0x149 names an entry of the table. -/
def NamesRamSize (bytes : List UInt8) : Prop := (header bytes romRamSizeOffset).toNat < 4

theorem checked_of_acceptable {bytes : List UInt8} (h : Acceptable bytes) : Checked bytes := by
  obtain ⟨hmin, hmax, hlogo⟩ := h
  have hmod : bytes.length % 2 ^ 32 = bytes.length :=
    Nat.mod_eq_of_lt (Nat.lt_of_le_of_lt hmax (by decide))
  exact ⟨hmod.symm ▸ hmin, hmod.symm ▸ hmax, hlogo⟩

theorem acceptable_of_checked {bytes : List UInt8} (h : Checked bytes)
    (hsize : bytes.length < 2 ^ 32) : Acceptable bytes := by
  obtain ⟨hmin, hmax, hlogo⟩ := h
  rw [Nat.mod_eq_of_lt hsize] at hmin hmax
  exact ⟨hmin, hmax, hlogo⟩

/-! ## The header of the cut file -/

theorem header_take {bytes : List UInt8} {offset n : Nat} (h : offset < n) :
    header (bytes.take n) offset = header bytes offset := by
  simp only [header, List.getD_eq_getElem?_getD, List.getElem?_take_of_lt h]

theorem hasLogo_take {bytes : List UInt8} {n : Nat} (h : romHeaderLength ≤ n) :
    hasLogo (bytes.take n) = hasLogo bytes := by
  have hlogo : ∀ i ∈ List.range nintendoLogo.length, i + nintendoLogoOffset < n := by
    intro i hi
    have hi48 : i < 48 := List.mem_range.mp hi
    simp only [romHeaderLength] at h
    simp only [nintendoLogoOffset]
    omega
  unfold hasLogo
  rw [Bool.eq_iff_iff, List.all_eq_true, List.all_eq_true]
  constructor
  · intro hall i hi
    rw [← header_take (hlogo i hi)]
    exact hall i hi
  · intro hall i hi
    rw [header_take (hlogo i hi)]
    exact hall i hi

/-- The lookup throws exactly where the table has no entry. -/
theorem ramSize_ok_iff (memory : List UInt8) :
    (∃ size, ramSize memory = .ok size) ↔ NamesRamSize memory := by
  unfold ramSize NamesRamSize
  generalize header memory romRamSizeOffset = index
  by_cases hzero : index = 0
  · rw [if_pos hzero, hzero]
    exact iff_of_true ⟨_, rfl⟩ (by decide)
  · simp only [if_neg hzero]
    have hlength : ramSizes.length = 4 := rfl
    cases hentry : ramSizes[index.toNat]? with
    | none =>
      rw [List.getElem?_eq_none_iff, hlength] at hentry
      exact iff_of_false (by simp) (Nat.not_lt.mpr hentry)
    | some size =>
      obtain ⟨hlt, -⟩ := List.getElem?_eq_some_iff.mp hentry
      exact iff_of_true ⟨size, rfl⟩ (hlength ▸ hlt)

/-! ## The constructor -/

section Load

variable (host : Host) {bytes : List UInt8}

/-- A file that fails a check leaves an invalid cartridge. -/
theorem load_unchecked (h : ¬ Checked bytes) :
    ∃ c, load host (some bytes) = .ok c ∧ c.valid = false := by
  by_cases hsize : bytes.length % 2 ^ 32 < romHeaderLength ∨ bytes.length % 2 ^ 32 > romMaxSize
  · refine ⟨{ empty with size := bytes.length % 2 ^ 32 }, ?_, rfl⟩
    simp only [load, if_pos hsize]
  · obtain ⟨hmin, hmax⟩ := not_or.mp hsize
    have hlogo : hasLogo (bytes.take (bytes.length % 2 ^ 32)) = false := by
      rw [hasLogo_take (Nat.not_lt.mp hmin)]
      exact Bool.eq_false_iff.mpr fun hl => h ⟨Nat.not_lt.mp hmin, Nat.not_lt.mp hmax, hl⟩
    refine ⟨{ empty with
      size := bytes.length % 2 ^ 32
      memory := bytes.take (bytes.length % 2 ^ 32) }, ?_, rfl⟩
    simp only [load, if_neg hsize, hlogo, Bool.not_false, if_true]

/-- After the checks the lookup decides, and nothing else throws. -/
theorem load_checked (h : Checked bytes) :
    ∃ make : Nat → Cartridge, (∀ size, (make size).valid = true) ∧
      load host (some bytes) = (ramSize (bytes.take (bytes.length % 2 ^ 32))).map make := by
  obtain ⟨hmin, hmax, hlogo⟩ := h
  have hsize : ¬ (bytes.length % 2 ^ 32 < romHeaderLength ∨
      bytes.length % 2 ^ 32 > romMaxSize) :=
    not_or.mpr ⟨Nat.not_lt.mpr hmin, Nat.not_lt.mpr hmax⟩
  rw [← hasLogo_take hmin] at hlogo
  simp only [load, if_neg hsize, hlogo, Bool.not_true, initMemoryBankController]
  generalize bytes.take (bytes.length % 2 ^ 32) = memory
  cases ramSize memory with
  | error e => exact ⟨fun _ => { empty with valid := true }, fun _ => rfl, rfl⟩
  | ok size => exact ⟨fun _ => _, fun _ => rfl, rfl⟩

/-- **Loading a file.** The constructor returns, and reports as valid what is acceptable,
exactly for the files that fail a check and for those of less than 4 GiB whose byte
0x149 names a size of the RAM. -/
theorem load_meets_iff (bytes : List UInt8) :
    (∃ c, load host (some bytes) = .ok c ∧ (c.valid = true ↔ Acceptable bytes)) ↔
      (Checked bytes → bytes.length < 2 ^ 32 ∧ NamesRamSize bytes) := by
  by_cases h : Checked bytes
  · obtain ⟨make, hvalid, hload⟩ := load_checked host h
    have hsize : NamesRamSize (bytes.take (bytes.length % 2 ^ 32)) ↔ NamesRamSize bytes := by
      unfold NamesRamSize
      rw [header_take (Nat.lt_of_lt_of_le (by decide) h.1)]
    rw [hload]
    constructor
    · rintro ⟨c, hc, hiff⟩ -
      obtain ⟨size, hs, rfl⟩ := Run.map_eq_ok.mp hc
      have hacceptable := hiff.mp (hvalid size)
      refine ⟨Nat.lt_of_le_of_lt hacceptable.2.1 (by decide), ?_⟩
      exact hsize.mp ((ramSize_ok_iff _).mp ⟨size, hs⟩)
    · intro hmeets
      obtain ⟨hlength, hnames⟩ := hmeets h
      obtain ⟨size, hs⟩ := (ramSize_ok_iff _).mpr (hsize.mpr hnames)
      refine ⟨make size, Run.map_eq_ok.mpr ⟨size, hs, rfl⟩, ?_⟩
      exact iff_of_true (hvalid size) (acceptable_of_checked h hlength)
  · refine iff_of_true ?_ fun hc => absurd hc h
    obtain ⟨c, hload, hinvalid⟩ := load_unchecked host h
    refine ⟨c, hload, iff_of_false ?_ fun ha => h (checked_of_acceptable ha)⟩
    rw [hinvalid]
    exact Bool.false_ne_true

end Load

/-- An image with 128 KiB of RAM, by its header. -/
def largeRamImage : List UInt8 := headerImage.set romRamSizeOffset 0x04

theorem load_largeRamImage_throws :
    ¬ ∀ (host : Host) (bytes : List UInt8),
      ∃ c, load host (some bytes) = .ok c ∧ (c.valid = true ↔ Acceptable bytes) := by
  intro hall
  have hlength : largeRamImage.length = 0x180 := by decide +kernel
  have hlogo : hasLogo largeRamImage = true := by decide +kernel
  have hindex : ¬ NamesRamSize largeRamImage := by
    unfold NamesRamSize
    decide +kernel
  have hchecked : Checked largeRamImage :=
    ⟨by rw [hlength]; decide, by rw [hlength]; decide, hlogo⟩
  obtain ⟨make, -, hload⟩ := load_checked defaultHost hchecked
  obtain ⟨c, hc, -⟩ := hall defaultHost largeRamImage
  rw [hload] at hc
  obtain ⟨size, hs, -⟩ := Run.map_eq_ok.mp hc
  refine hindex ?_
  have htake : largeRamImage.take (largeRamImage.length % 2 ^ 32) = largeRamImage := by
    rw [hlength]
    exact List.take_of_length_le hlength.le
  rw [← htake]
  exact (ramSize_ok_iff _).mp ⟨size, hs⟩

end GbEmu.Cartridge
