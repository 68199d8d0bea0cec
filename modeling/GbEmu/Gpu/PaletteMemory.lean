import Mathlib.Logic.Function.Basic
import GbEmu.Bus.Guard

/-!
Palette memory as the program sees it: for each of the two kinds of palette an array
of 64 bytes behind an index register that can count up, and the colours which the
bytes stand for. The code keeps palettes of colours with two bytes each, and the
computed RGB value beside them.
-/

namespace GbEmu

/-! ## The array -/

/-- An index register and the bytes behind it; `none` where nothing has been stored. -/
structure PaletteArray where
  index : UInt8
  cells : Fin 64 → Option UInt8

namespace PaletteArray

def empty : PaletteArray := ⟨0, fun _ => none⟩

/-- The cell that the low six bits of the register name. -/
def cursor (p : PaletteArray) : Fin 64 := Fin.ofNat 64 p.index.toNat

def byte (p : PaletteArray) (i : Fin 64) : UInt8 := (p.cells i).getD 0

/-- The register after a data write: bit 7 makes it count up, modulo 64. -/
def nextIndex (p : PaletteArray) : UInt8 :=
  if 0x80 ≤ p.index.toNat then UInt8.ofNat (0x80 + (p.cursor + 1).val) else p.index

def store (p : PaletteArray) (value : UInt8) : PaletteArray :=
  { index := p.nextIndex, cells := Function.update p.cells p.cursor (some value) }

/-- The cell of a byte of a colour, least significant byte first. -/
def colorCell (color : Fin 32) (high : Fin 2) : Fin 64 := ⟨2 * color + high, by omega⟩

/-- The fifteen bits of a colour, as a number. -/
def bits (p : PaletteArray) (color : Fin 32) : Nat :=
  (p.byte (colorCell color 1)).toNat * 0x100 + (p.byte (colorCell color 0)).toNat

/-- Five bits of each of red, green and blue, from the least significant on. -/
def rgb (p : PaletteArray) (color : Fin 32) : RGB where
  red := Gpu.convert (UInt16.ofNat (p.bits color % 32))
  green := Gpu.convert (UInt16.ofNat (p.bits color / 32 % 32))
  blue := Gpu.convert (UInt16.ofNat (p.bits color / 1024 % 32))
  alpha := 0xFF

def Written (p : PaletteArray) (color : Fin 32) : Prop :=
  ∃ high, (p.cells (colorCell color high)).isSome

end PaletteArray

inductive PaletteKind
  | bg
  | sprite
  deriving DecidableEq, Repr

/-- A write of the program to one of the four registers. -/
inductive PaletteWrite
  | index (k : PaletteKind) (value : UInt8)
  | data (k : PaletteKind) (value : UInt8)
  deriving DecidableEq, Repr

/-- What a write does to the two arrays: nothing to the one of the other kind. -/
def PaletteWrite.apply (arrays : PaletteKind → PaletteArray) :
    PaletteWrite → PaletteKind → PaletteArray
  | index k value => Function.update arrays k { arrays k with index := value }
  | data k value => Function.update arrays k ((arrays k).store value)

namespace Gpu

/-! ## Bytes and colours of the code -/

def entry (colors : CgbColors) (color : Fin 32) : ColorPixel := colors (color / 4) (color % 4)

/-- A colour with the RGB value of its bytes. -/
def colored (byte0 byte1 : UInt8) : ColorPixel :=
  let bits : UInt16 := (byte1.toUInt16 <<< 8) ||| byte0.toUInt16
  { byte0 := byte0
    byte1 := byte1
    rgb :=
      { red := convert (bits &&& 0x1F)
        green := convert ((bits >>> 5) &&& 0x1F)
        blue := convert ((bits >>> 10) &&& 0x1F)
        alpha := 0xFF } }

/-- The colours of the code hold the bytes of an array, and the RGB value of every
colour of which a byte has been stored. -/
structure Holds (colors : CgbColors) (p : PaletteArray) : Prop where
  byte0 : ∀ color, (entry colors color).byte0 = p.byte (PaletteArray.colorCell color 0)
  byte1 : ∀ color, (entry colors color).byte1 = p.byte (PaletteArray.colorCell color 1)
  rgb : ∀ color, p.Written color → (entry colors color).rgb = p.rgb color

open PaletteArray

theorem Holds.of_cells {colors : CgbColors} {p p' : PaletteArray} (h : Holds colors p)
    (hcells : p'.cells = p.cells) : Holds colors p' := by
  obtain ⟨index, cells⟩ := p
  obtain ⟨index', cells'⟩ := p'
  obtain rfl : cells' = cells := hcells
  exact ⟨h.byte0, h.byte1, h.rgb⟩

-- An index by palette, colour and byte.

theorem palette_index (i : Fin 64) : (UInt8.ofNat i / 8).toNat = i / 8 := by decide +revert

theorem color_index (i : Fin 64) : ((UInt8.ofNat i % 8) >>> 1).toNat = i % 8 / 2 := by
  decide +revert

theorem byte_index (i : Fin 64) : UInt8.ofNat i &&& 0x01 = 0 ↔ i.val % 2 = 0 := by
  decide +revert

theorem exists_colorCell (i : Fin 64) : ∃ color high, colorCell color high = i :=
  ⟨⟨i / 2, by omega⟩, ⟨i % 2, by omega⟩, Fin.ext (Nat.div_add_mod _ _)⟩

theorem colorCell_inj {color color' : Fin 32} {high high' : Fin 2} :
    colorCell color high = colorCell color' high' ↔ color = color' ∧ high = high' := by
  simp only [colorCell, Fin.ext_iff]
  omega

theorem colorCell_palette (color : Fin 32) (high : Fin 2) :
    (colorCell color high).val / 8 = color / 4 := by
  simp only [colorCell]
  omega

theorem colorCell_color (color : Fin 32) (high : Fin 2) :
    (colorCell color high).val % 8 / 2 = color % 4 := by
  simp only [colorCell]
  omega

theorem colorCell_byte (color : Fin 32) (high : Fin 2) :
    (colorCell color high).val % 2 = 0 ↔ high = 0 := by
  simp only [colorCell, Fin.ext_iff]
  omega

theorem readPalette_colorCell (colors : CgbColors) (color : Fin 32) (high : Fin 2) :
    readPalette colors (UInt8.ofNat (colorCell color high)) =
      if high = 0 then (entry colors color).byte0 else (entry colors color).byte1 := by
  simp only [readPalette, palette_index, color_index, byte_index, colorCell_palette,
    colorCell_color, colorCell_byte, entry]

theorem readPalette_holds {colors : CgbColors} {p : PaletteArray} (h : Holds colors p)
    (i : Fin 64) : readPalette colors (UInt8.ofNat i) = p.byte i := by
  obtain ⟨color, high, rfl⟩ := exists_colorCell i
  rw [readPalette_colorCell, h.byte0, h.byte1]
  have hhigh : high = 0 ∨ high = 1 := by omega
  rcases hhigh with rfl | rfl <;> rfl

theorem entry_writePalette (colors : CgbColors) (color color' : Fin 32) (high : Fin 2)
    (value : UInt8) :
    entry (writePalette colors (UInt8.ofNat (colorCell color high)) value) color' =
      if color' = color then
        colored (if high = 0 then value else (entry colors color).byte0)
          (if high = 0 then (entry colors color).byte1 else value)
      else entry colors color' := by
  have hsame : color' = color ↔ color'.val / 4 = color / 4 ∧ color'.val % 4 = color % 4 := by
    rw [Fin.ext_iff]
    omega
  simp only [writePalette, palette_index, color_index, byte_index, colorCell_palette,
    colorCell_color, colorCell_byte, hsame, entry]
  by_cases h4 : color'.val / 4 = color / 4
  · by_cases h1 : color'.val % 4 = color % 4
    · simp [h4, h1, colored]
    · simp [h4, h1]
  · simp [h4]

/-- A component of a colour: five bits from bit `k` on. -/
theorem component (x : UInt16) {k : UInt16} (hk : k.toNat < 16) :
    (x >>> k) &&& 0x1F = UInt16.ofNat (x.toNat / 2 ^ k.toNat % 32) := by
  apply UInt16.toNat_inj.mp
  rw [UInt16.toNat_and, UInt16.toNat_shiftRight, Nat.mod_eq_of_lt hk, Nat.shiftRight_eq_div_pow,
    show (0x1F : UInt16).toNat = 2 ^ 5 - 1 from rfl, Nat.and_two_pow_sub_one_eq_mod,
    UInt16.toNat_ofNat_of_lt' (Nat.lt_trans (Nat.mod_lt _ (by decide)) (by decide))]

theorem colored_rgb (p : PaletteArray) (color : Fin 32) :
    (colored (p.byte (colorCell color 0)) (p.byte (colorCell color 1))).rgb = p.rgb color := by
  have hbits := BitField.toNat_join (p.byte (colorCell color 1)) (p.byte (colorCell color 0))
  simp only [colored]
  generalize ((p.byte (colorCell color 1)).toUInt16 <<< 8) |||
    (p.byte (colorCell color 0)).toUInt16 = x at hbits
  have hred := component x (k := 0) (by decide)
  rw [UInt16.shiftRight_zero, show (0 : UInt16).toNat = 0 from rfl, Nat.pow_zero,
    Nat.div_one] at hred
  rw [hred, component x (k := 5) (by decide), component x (k := 10) (by decide), hbits]
  rfl

/-! ## A data write -/

theorem byte_store (p : PaletteArray) (value : UInt8) (i : Fin 64) :
    (p.store value).byte i = if i = p.cursor then value else p.byte i := by
  unfold store byte
  by_cases h : i = p.cursor
  · subst h
    simp
  · simp [h]

theorem holds_store {colors : CgbColors} {p : PaletteArray} (h : Holds colors p) (value : UInt8) :
    Holds (writePalette colors (UInt8.ofNat p.cursor) value) (p.store value) := by
  obtain ⟨color, high, hcell⟩ := exists_colorCell p.cursor
  -- both bytes of every colour, the stored one among them
  have hbytes : ∀ color', entry (writePalette colors (UInt8.ofNat p.cursor) value) color' =
      if color' = color then
        colored ((p.store value).byte (colorCell color' 0))
          ((p.store value).byte (colorCell color' 1))
      else entry colors color' := by
    intro color'
    rw [← hcell, entry_writePalette]
    refine ite_congr rfl (fun hc => ?_) fun _ => rfl
    subst hc
    rw [byte_store, byte_store, ← hcell, h.byte0, h.byte1]
    have hhigh : high = 0 ∨ high = 1 := by omega
    rcases hhigh with rfl | rfl <;> simp [colorCell_inj]
  have hother : ∀ color' high', color' ≠ color →
      colorCell color' high' ≠ p.cursor := by
    intro color' high' hne he
    exact hne (colorCell_inj.mp (he.trans hcell.symm)).1
  constructor
  · intro color'
    rw [hbytes]
    by_cases hc : color' = color
    · rw [if_pos hc]
      rfl
    · rw [if_neg hc, byte_store, if_neg (hother _ _ hc), h.byte0]
  · intro color'
    rw [hbytes]
    by_cases hc : color' = color
    · rw [if_pos hc]
      rfl
    · rw [if_neg hc, byte_store, if_neg (hother _ _ hc), h.byte1]
  · rintro color' ⟨high', hw⟩
    rw [hbytes]
    by_cases hc : color' = color
    · rw [if_pos hc, colored_rgb]
    · have hcells : (p.store value).cells (colorCell color' high') =
          p.cells (colorCell color' high') := Function.update_of_ne (hother _ _ hc) _ _
      rw [hcells] at hw
      have hsame : (p.store value).rgb color' = p.rgb color' := by
        simp only [PaletteArray.rgb, bits, byte_store, if_neg (hother _ _ hc)]
      rw [if_neg hc, h.rgb color' ⟨high', hw⟩, hsame]

end Gpu

/-! ## The registers -/

namespace PaletteKind

def indexPort : PaletteKind → UInt16
  | bg => gpuBgPaletteIndex
  | sprite => gpuSpritePaletteIndex

def dataPort : PaletteKind → UInt16
  | bg => gpuBgPaletteData
  | sprite => gpuSpritePaletteData

def colors (s : Bus) : PaletteKind → CgbColors
  | bg => s.gpu.bgPalette
  | sprite => s.gpu.spritePalette

end PaletteKind

def PaletteWrite.address : PaletteWrite → UInt16
  | index k _ => k.indexPort
  | data k _ => k.dataPort

def PaletteWrite.value : PaletteWrite → UInt8
  | index _ value => value
  | data _ value => value

namespace Bus

/-- The bus holds the two arrays in its registers and its colours. -/
structure HoldsPalettes (s : Bus) (arrays : PaletteKind → PaletteArray) : Prop where
  index : ∀ k : PaletteKind, s.io k.indexPort = (arrays k).index
  colors : ∀ k : PaletteKind, Gpu.Holds (k.colors s) (arrays k)

theorem cursor_eq (p : PaletteArray) : p.index &&& 0x3F = UInt8.ofNat p.cursor := by
  apply UInt8.toNat_inj.mp
  rw [UInt8.toNat_and, show (0x3F : UInt8).toNat = 2 ^ 6 - 1 from rfl,
    Nat.and_two_pow_sub_one_eq_mod]
  exact (UInt8.toNat_ofNat_of_lt' (Nat.lt_trans p.cursor.isLt (by decide))).symm

theorem nextIndex_eq (p : PaletteArray) :
    p.nextIndex = if p.index &&& 0x80 ≠ 0 then 0x80 + ((p.index + 1) &&& 0x3F) else p.index := by
  have hall : ∀ x : UInt8, (if 0x80 ≤ x.toNat then
      UInt8.ofNat (0x80 + (Fin.ofNat 64 x.toNat + 1).val) else x) =
        if x &&& 0x80 ≠ 0 then 0x80 + ((x + 1) &&& 0x3F) else x :=
    BitField.forall_byte (by decide +kernel)
  exact hall p.index

/-- `writeBgPalette` and `writeSpritePalette`. -/
def storeColor (k : PaletteKind) (value : UInt8) : Bus → UInt8 → Bus :=
  match k with
  | .bg => writeBgPalette value
  | .sprite => writeSpritePalette value

theorem io_storeColor (k : PaletteKind) (value i : UInt8) (s : Bus) :
    (storeColor k value s i).io = s.io := by
  cases k <;> rfl

theorem colors_storeColor (k k' : PaletteKind) (value i : UInt8) (s : Bus) :
    k'.colors (storeColor k value s i) =
      if k' = k then Gpu.writePalette (k'.colors s) i value else k'.colors s := by
  cases k <;> cases k' <;> rfl

theorem colors_setIo (k : PaletteKind) (s : Bus) (address : UInt16) (value : UInt8) :
    k.colors (s.setIo address value) = k.colors s := by
  cases k <;> rfl

theorem indexPort_inj {k k' : PaletteKind} : k.indexPort = k'.indexPort ↔ k = k' := by
  cases k <;> cases k' <;> decide

theorem write_indexPort (depth : Nat) (s : Bus) (k : PaletteKind) (value : UInt8) :
    write (depth + 1) s k.indexPort value = .ok (s.setIo k.indexPort value) := by
  have hport : s.find k.indexPort = some .io := (s.find_io_iff _).mpr (by cases k <;> decide)
  rw [write_io s depth hport, writeIo_plain (by cases k <;> decide)]

theorem write_dataPort (depth : Nat) (s : Bus) (k : PaletteKind) (value : UInt8) :
    write (depth + 1) s k.dataPort value =
      writePaletteData (write depth) k.indexPort (storeColor k value) s := by
  have hport : s.find k.dataPort = some .io := (s.find_io_iff _).mpr (by cases k <;> decide)
  rw [write_io s depth hport]
  cases k <;> rfl

/-- The state after a data write. -/
theorem write_data_ok (depth : Nat) {s : Bus} {k : PaletteKind} {p : PaletteArray}
    (hindex : s.io k.indexPort = p.index) (value : UInt8) :
    write (depth + 2) s k.dataPort value =
      .ok ((storeColor k value s (UInt8.ofNat p.cursor)).setIo k.indexPort p.nextIndex) := by
  rw [write_dataPort]
  simp only [writePaletteData, hindex, nextIndex_eq, ← cursor_eq]
  split_ifs with hcount
  · exact write_indexPort depth _ k _
  · have hkept : (storeColor k value s (p.index &&& 0x3F)).io k.indexPort = p.index := by
      rw [io_storeColor, hindex]
    have hsame := setIo_self (storeColor k value s (p.index &&& 0x3F)) k.indexPort
    rw [hkept] at hsame
    rw [hsame]

/-- One write does to the bus what it does to the arrays. -/
theorem holdsPalettes_write (depth : Nat) {s : Bus} {arrays : PaletteKind → PaletteArray}
    (h : s.HoldsPalettes arrays) (w : PaletteWrite) :
    ∃ s', write (depth + 2) s w.address w.value = .ok s' ∧ s'.HoldsPalettes (w.apply arrays) := by
  cases w with
  | index k value =>
    refine ⟨_, write_indexPort (depth + 1) s k value, fun k' => ?_, fun k' => ?_⟩
    · by_cases hk : k' = k
      · subst hk
        simp [PaletteWrite.apply]
      · rw [setIo_io_of_ne _ (mt indexPort_inj.mp hk), h.index]
        simp [PaletteWrite.apply, hk]
    · -- the register is not part of what the colours hold
      have hcells : (PaletteWrite.apply arrays (.index k value) k').cells = (arrays k').cells := by
        by_cases hk : k' = k
        · subst hk
          simp [PaletteWrite.apply]
        · simp [PaletteWrite.apply, hk]
      exact (h.colors k').of_cells hcells
  | data k value =>
    refine ⟨_, write_data_ok depth (h.index k) value, fun k' => ?_, fun k' => ?_⟩
    · by_cases hk : k' = k
      · subst hk
        simp [PaletteWrite.apply, PaletteArray.store]
      · rw [setIo_io_of_ne _ (mt indexPort_inj.mp hk), io_storeColor, h.index]
        simp [PaletteWrite.apply, hk]
    · have hcolors := colors_storeColor k k' value (UInt8.ofNat (arrays k).cursor) s
      rw [colors_setIo, hcolors]
      by_cases hk : k' = k
      · subst hk
        simpa [PaletteWrite.apply] using Gpu.holds_store (h.colors k') value
      · simpa [PaletteWrite.apply, hk] using h.colors k'

/-! ## Runs -/

theorem holdsPalettes_powerOn (ndebug : Bool) (bios : Bios) (c : Option Cartridge)
    (l : Option ConsoleLink) :
    (powerOn ndebug bios c l).HoldsPalettes fun _ => PaletteArray.empty := by
  constructor
  · intro k
    cases k <;> rfl
  · intro k
    refine ⟨fun _ => ?_, fun _ => ?_, fun _ hw => ?_⟩
    · cases k <;> rfl
    · cases k <;> rfl
    · obtain ⟨high, hw⟩ := hw
      cases hw

theorem peek_indexPort {s : Bus} {arrays : PaletteKind → PaletteArray} (h : s.HoldsPalettes arrays)
    (k : PaletteKind) : s.peek k.indexPort = .ok (arrays k).index := by
  have hport : s.find k.indexPort = some .io := (s.find_io_iff _).mpr (by cases k <;> decide)
  rw [← h.index k]
  simp only [peek, hport, readRegion]
  cases k <;> rfl

theorem peek_dataPort {s : Bus} {arrays : PaletteKind → PaletteArray} (h : s.HoldsPalettes arrays)
    (k : PaletteKind) : s.peek k.dataPort = .ok ((arrays k).byte (arrays k).cursor) := by
  have hport : s.find k.dataPort = some .io := (s.find_io_iff _).mpr (by cases k <;> decide)
  have hread : s.peek k.dataPort =
      .ok (Gpu.readPalette (k.colors s) (s.io k.indexPort &&& 0x3F)) := by
    simp only [peek, hport, readRegion]
    cases k <;> rfl
  rw [hread, h.index, cursor_eq, Gpu.readPalette_holds (h.colors k)]

/-- **Palette memory is two arrays of 64 bytes.** After any sequence of writes to the
four registers from power-on, each index register and each data register read as in
the two arrays that the sequence leaves, and every colour written at least once has
the RGB value of its two bytes there. -/
theorem palette_arrays (ndebug : Bool) (bios : Bios) (c : Option Cartridge)
    (l : Option ConsoleLink) (depth : Nat) (ws : List PaletteWrite) :
    ∃ s, Run.run (fun s (w : PaletteWrite) => write (depth + 2) s w.address w.value)
        (powerOn ndebug bios c l) ws = .ok s ∧
      ∀ k : PaletteKind,
        let p := ws.foldl PaletteWrite.apply (fun _ => PaletteArray.empty) k
        s.peek k.indexPort = .ok p.index ∧ s.peek k.dataPort = .ok (p.byte p.cursor) ∧
          (∀ i : Fin 64, Gpu.readPalette (k.colors s) (UInt8.ofNat i) = p.byte i) ∧
          ∀ color, p.Written color → (Gpu.entry (k.colors s) color).rgb = p.rgb color := by
  obtain ⟨s, hrun, hs⟩ := Run.run_refines (R := HoldsPalettes)
    (fun _ _ w h => holdsPalettes_write depth h w) (holdsPalettes_powerOn ndebug bios c l) ws
  refine ⟨s, hrun, fun k => ⟨?_, peek_dataPort hs k, ?_, (hs.colors k).rgb⟩⟩
  · exact peek_indexPort hs k
  · exact Gpu.readPalette_holds (hs.colors k)

end Bus

end GbEmu
