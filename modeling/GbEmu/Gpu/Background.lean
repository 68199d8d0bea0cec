import GbEmu.Gpu.Render
import GbEmu.Lib.BitField
import GbEmu.Lib.Memo
import GbEmu.Lib.Run

/-!
Background and window. `drawBackground` holds the last tile row of each of the two
in a cache with the column as its key; within a line that is the same as looking up
every pixel anew, and the lookup is the one that the memory map describes.
-/

namespace GbEmu

open Gpu

namespace Bus

/-! ## The picture -/

def vram (s : Bus) (bank address : Nat) : UInt8 := s.gpu.memory bank (address - gpuRamOffset)

/-- Bit `k` of a byte. -/
def bit (byte : UInt8) (k : Nat) : Nat := byte.toNat / 2 ^ k % 2

/-- The window is shown at pixel `px` of the current line. -/
def InWindow (s : Bus) (px : Nat) : Prop :=
  s.control &&& 0x20 ≠ 0 ∧ s.winY ≤ s.scanline ∧ s.winX.toNat ≤ px + 7

instance (s : Bus) (px : Nat) : Decidable (s.InWindow px) := by
  unfold InWindow
  infer_instance

/-- Where the bytes of a tile begin; the second set has signed numbers. -/
def tileData (s : Bus) (tile : UInt8) : Nat :=
  if s.control &&& 0x10 ≠ 0 then 0x8000 + 16 * tile.toNat
  else (0x9000 + 16 * tile.toInt8.toInt).toNat

/-- The colour at `(x, y)` of a tile map of 32 by 32 tiles. -/
def mapPixel (s : Bus) (map x y : Nat) : RGB :=
  let cell := map + 32 * (y / 8) + x / 8
  let tile := s.vram 0 cell
  let attributes := s.vram 1 cell
  let data := s.tileData tile
  let bank := if s.isCGB ∧ attributes &&& 0x08 ≠ 0 then 1 else 0
  let row := if s.isCGB ∧ attributes &&& 0x40 ≠ 0 then 7 - y % 8 else y % 8
  let column := if s.isCGB ∧ attributes &&& 0x20 ≠ 0 then 7 - x % 8 else x % 8
  let lower := s.vram bank (data + 2 * row)
  let upper := s.vram bank (data + 2 * row + 1)
  let pixel := 2 * bit upper (7 - column) + bit lower (7 - column)
  if s.isCGB then (s.gpu.bgPalette (attributes &&& 0x07).toNat pixel).rgb
  else (dmgPalette (s.palette.toNat / 4 ^ pixel % 4)).rgb

/-- The colour of pixel `px` of the current line, without sprites. -/
def backgroundPixel (s : Bus) (px : Nat) : RGB :=
  if s.InWindow px then
    s.mapPixel (if s.control &&& 0x40 ≠ 0 then 0x9C00 else 0x9800)
      (px + 7 - s.winX.toNat) (s.scanline.toNat - s.winY.toNat)
  else
    s.mapPixel (if s.control &&& 0x08 ≠ 0 then 0x9C00 else 0x9800)
      ((s.scrollX.toNat + px) % 256) ((s.scrollY.toNat + s.scanline.toNat) % 256)

/-! ## The loop without its caches -/

section Line

variable (s : Bus) (set : TileSetIndex) (background window : TileMapIndex)

def winRow : Nat := (s.scanline.toNat - s.winY.toNat) % 256
def winFill (x : Nat) : Cache := s.fillCache set window x (s.winRow / 8) s.winRow
def bgRow : Nat := (s.scrollY.toNat + s.scanline.toNat) % 256
def bgFill (x : Nat) : Cache := s.fillCache set background x (s.bgRow / 8) s.bgRow

/-- The pixel of one pass of the loop when its tile is looked up anew. -/
def linePixel (px : Nat) : RGB :=
  if s.isWindowSelected (UInt8.ofNat px) s.scanline then
    let col := (px + 7 - s.winX.toNat) % 256
    (s.winFill set window (col / 8)).rgb (col % 8)
  else
    let col := (s.scrollX.toNat + px) % 256
    (s.bgFill set background (col / 8)).rgb (col % 8)

/-- The caches hold what a lookup gives, and the pixels before `n` are drawn. -/
structure Loop (n : Nat) (l : Line) : Prop where
  win : Memo.Sound Cache.x (s.winFill set window) (· < 32) l.winCache
  bg : Memo.Sound Cache.x (s.bgFill set background) (· < 32) l.bgCache
  drawn : ∀ px < n, l.buffer (s.scanline.toNat * pixelsPerRow + px) =
    s.linePixel set background window px

/-- A pass looks its tile up in one of the caches and draws from the entry. -/
theorem drawPixel_caches (l : Line) (px : Nat) :
    let win := s.isWindowSelected (UInt8.ofNat px) s.scanline
    let col := if win then (px + 7 - s.winX.toNat) % 256 else (s.scrollX.toNat + px) % 256
    let entry :=
      if win then Memo.refresh Cache.x (s.winFill set window) l.winCache (col / 8)
      else Memo.refresh Cache.x (s.bgFill set background) l.bgCache (col / 8)
    let l' := s.drawPixel set background window l px
    l'.winCache = (if win then entry else l.winCache) ∧
      l'.bgCache = (if win then l.bgCache else entry) ∧
      l'.buffer = Function.update l.buffer (s.scanline.toNat * pixelsPerRow + px)
        (entry.rgb (col % 8)) ∧
      l'.bg = Function.update l.bg (s.scanline.toNat * pixelsPerRow + px)
        (entry.p (if s.isCGB then 0 else (s.palette &&& 0x3).toNat)).rgb := by
  cases hw : s.isWindowSelected (UInt8.ofNat px) s.scanline with
  | true =>
    simp only [drawPixel, hw, if_true]
    exact ⟨rfl, trivial, rfl, rfl⟩
  | false =>
    simp only [drawPixel, hw, Bool.false_eq_true, if_false]
    exact ⟨trivial, rfl, rfl, rfl⟩

variable {s set background window} {n : Nat} {l : Line}

/-- A pass keeps the caches sound and draws the next pixel. -/
theorem Loop.step (h : Loop s set background window n l) :
    Loop s set background window (n + 1) (s.drawPixel set background window l n) := by
  have hcol : ∀ x, x % 256 / 8 < 32 := fun x => by omega
  obtain ⟨hwin, hbg, hbuffer, -⟩ := s.drawPixel_caches set background window l n
  have hentry : (s.drawPixel set background window l n).buffer =
      Function.update l.buffer (s.scanline.toNat * pixelsPerRow + n)
        (s.linePixel set background window n) ∧
      Memo.Sound Cache.x (s.winFill set window) (· < 32)
        (s.drawPixel set background window l n).winCache ∧
      Memo.Sound Cache.x (s.bgFill set background) (· < 32)
        (s.drawPixel set background window l n).bgCache := by
    rw [hwin, hbg, hbuffer, linePixel]
    cases s.isWindowSelected (UInt8.ofNat n) s.scanline with
    | true =>
      simp only [if_true, Memo.refresh_eq h.win (hcol _)]
      exact ⟨trivial, Memo.sound_fill rfl, h.bg⟩
    | false =>
      simp only [Bool.false_eq_true, if_false, Memo.refresh_eq h.bg (hcol _)]
      exact ⟨trivial, h.win, Memo.sound_fill rfl⟩
  obtain ⟨hdrawn, hwin', hbg'⟩ := hentry
  refine ⟨hwin', hbg', fun px hpx => ?_⟩
  rw [hdrawn]
  by_cases heq : px = n
  · rw [heq, Function.update_self]
  · rw [Function.update_of_ne (by omega)]
    exact h.drawn px (by omega)

variable (s set background window)

theorem drawBackground_loop (hon : s.isBackgroundEnabled = true) :
    ∃ l, Loop s set background window pixelsPerRow l ∧
      (s.drawBackground set background window).gpu.buffer = l.buffer := by
  have hempty : ¬ Cache.init.x < 32 := by decide
  have hstart : Loop s set background window 0
      { winCache := Cache.init, bgCache := Cache.init, buffer := s.gpu.buffer, bg := s.gpu.bg } :=
    ⟨Memo.sound_empty hempty, Memo.sound_empty hempty, fun _ h => absurd h (Nat.not_lt_zero _)⟩
  have hloop : Loop s set background window pixelsPerRow
      ((List.range pixelsPerRow).foldl (s.drawPixel set background window) _) :=
    Run.foldl_range hstart fun _ _ _ h => h.step
  refine ⟨_, hloop, ?_⟩
  unfold drawBackground
  rw [hon]
  rfl

/-- The loop draws the line pixel by pixel, as if there were no caches. -/
theorem drawBackground_line (hon : s.isBackgroundEnabled = true) {px : Nat}
    (hpx : px < pixelsPerRow) :
    (s.drawBackground set background window).gpu.buffer (s.scanline.toNat * pixelsPerRow + px) =
      s.linePixel set background window px := by
  obtain ⟨l, hloop, hbuffer⟩ := s.drawBackground_loop set background window hon
  rw [hbuffer]
  exact hloop.drawn px hpx

end Line

/-! ## One lookup -/

/-- The maps and the tile set that `updateScreen` passes on. -/
def tileSet (s : Bus) : TileSetIndex :=
  if s.control &&& 0x10 ≠ 0 then .tileset0 else .tileset1

def backgroundMap (s : Bus) : TileMapIndex :=
  if s.control &&& 0x08 ≠ 0 then .tilemap1 else .tilemap0

def windowMap (s : Bus) : TileMapIndex :=
  if s.control &&& 0x40 ≠ 0 then .tilemap1 else .tilemap0

theorem isWindowSelected_iff {s : Bus} {px : Nat} (hline : s.scanline.toNat < pixelsPerCol)
    (hpx : px < pixelsPerRow) :
    s.isWindowSelected (UInt8.ofNat px) s.scanline = true ↔ s.InWindow px := by
  simp only [pixelsPerCol, pixelsPerRow] at hline hpx
  have hx : (UInt8.ofNat px).toNat = px := by
    rw [UInt8.toNat_ofNat']
    omega
  have hbelow : ¬ 144 ≤ s.scanline.toNat := Nat.not_le.mpr hline
  have hright : ¬ 160 + 7 ≤ px := by omega
  unfold isWindowSelected InWindow isWindowEnabled
  rw [hx]
  by_cases h20 : s.control &&& 0x20 = 0
  · simp [h20]
  · by_cases hy : s.winY ≤ s.scanline
    · have hy' : ¬ s.scanline < s.winY := UInt8.not_lt.mpr hy
      simp [h20, hy, hy', hbelow, hright]
    · have hy' : s.scanline < s.winY := UInt8.not_le.mp hy
      simp [h20, hy, hy']

theorem tileAddress_tileset0 (tile : UInt8) :
    tileAddress .tileset0 tile = tile.toNat * tileSize := Nat.add_sub_cancel_left _ _

theorem tileAddress_tileset1 (tile : UInt8) :
    tileAddress .tileset1 tile =
      (((tilesPerSet * tileSize : Nat) : Int) + tile.toInt8.toInt * tileSize).toNat :=
  congrArg (fun base : Nat => ((base : Int) + tile.toInt8.toInt * tileSize).toNat)
    (Nat.add_sub_cancel_left _ _)

theorem tileAddress_eq (s : Bus) (tile : UInt8) :
    tileAddress s.tileSet tile + gpuRamOffset = s.tileData tile := by
  have hlow := Int8.le_toInt tile.toInt8
  unfold tileSet tileData
  by_cases h : s.control &&& 0x10 ≠ 0
  · rw [if_pos h, if_pos h, tileAddress_tileset0, Nat.add_comm, Nat.mul_comm]
  · rw [if_neg h, if_neg h, tileAddress_tileset1]
    simp only [tilesPerSet, tileSize, gpuRamOffset]
    omega

theorem getTile_eq (s : Bus) (bank : Nat) (tile : UInt8) (j : Nat) :
    s.getTile bank s.tileSet tile j = s.vram bank (s.tileData tile + j) := by
  rw [← tileAddress_eq, vram, Nat.add_right_comm, Nat.add_sub_cancel]
  rfl

/-- The two bits of a pixel as `toRGB` puts them together. -/
theorem toRGB_pixel (upper lower : UInt8) {k : Nat} (hk : k < 8) :
    ((((upper >>> UInt8.ofNat k) &&& 0x01) <<< (1 : UInt8)) |||
      ((lower >>> UInt8.ofNat k) &&& 0x01)).toNat = 2 * bit upper k + bit lower k := by
  have hbit : ∀ byte : UInt8, ((byte >>> UInt8.ofNat k) &&& 0x01).toNat = bit byte k :=
    fun byte => BitField.toNat_bit byte hk
  have hlt : ∀ byte : UInt8, bit byte k < 2 := fun _ => Nat.mod_lt _ (by decide)
  rw [BitField.toNat_bitPair (by rw [hbit]; exact hlt _) (by rw [hbit]; exact hlt _), hbit, hbit]

/-- The colour of a pixel, by way of the palette register if there is one. -/
def shade (pal : Option UInt8) (pixel : Nat) : Nat :=
  match pal with
  | none => pixel
  | some p => p.toNat / 4 ^ pixel % 4

/-- A row of a tile, pixel by pixel. -/
theorem toRGB_eq (rgb : ColorPalette) (pal : Option UInt8) (tile : Tile) (row : Nat)
    (white flip : Bool) (j : Nat) :
    let column := if flip then 7 - j else j
    let pixel := 2 * bit (tile (2 * (row % 8) + 1)) (7 - column) +
      bit (tile (2 * (row % 8))) (7 - column)
    let color := (rgb (shade pal pixel)).rgb
    toRGB rgb pal tile row white flip j =
      if pixel = 0 ∧ white = false then { color with alpha := alphaTransparent } else color := by
  intro column pixel color
  have hk : 7 - column < 8 := Nat.lt_succ_of_le (Nat.sub_le 7 column)
  have hpixel : _ = pixel :=
    toRGB_pixel (tile (2 * (row % 8) + 1)) (tile (2 * (row % 8))) hk
  have hlt : ∀ byte : UInt8, bit byte (7 - column) < 2 := fun _ => Nat.mod_lt _ (by decide)
  have hpixel4 : pixel < 4 := by
    have h1 := hlt (tile (2 * (row % 8) + 1))
    have h2 := hlt (tile (2 * (row % 8)))
    omega
  simp only [toRGB, tilePixelsPerRow, Nat.mul_comm (row % 8) 2]
  generalize (((tile (2 * (row % 8) + 1) >>> UInt8.ofNat (7 - column)) &&& 0x01) <<<
    (1 : UInt8)) ||| ((tile (2 * (row % 8)) >>> UInt8.ofNat (7 - column)) &&& 0x01) = byte at hpixel
  have hzero : byte = 0x00 ↔ pixel = 0 := by
    rw [← hpixel]
    exact UInt8.toNat_inj.symm
  simp only [hzero, color, shade]
  rw [← hpixel] at hpixel4 ⊢
  cases pal with
  | none => rfl
  | some p => simp only [BitField.toNat_crumb p hpixel4]

/-- The first address of a tile map. -/
def mapBase (map : TileMapIndex) : Nat :=
  match map with
  | .tilemap0 => tileMap0Offset
  | .tilemap1 => tileMap1Offset

theorem lookup_eq (s : Bus) (map : TileMapIndex) (x y : Nat) :
    s.lookup map s.tileSet x y =
      (s.vram 1 (mapBase map + 32 * y + x),
        s.getTile (if s.isCGB ∧ s.vram 1 (mapBase map + 32 * y + x) &&& 0x08 ≠ 0 then 1 else 0)
          s.tileSet (s.vram 0 (mapBase map + 32 * y + x))) := by
  have hcell : mapBase map + (y * tileMapColumns + x) = mapBase map + 32 * y + x := by
    rw [Nat.mul_comm y, Nat.add_assoc]
  have hlookup : s.lookup map s.tileSet x y =
      (s.vram 1 (mapBase map + (y * tileMapColumns + x)),
        s.getTile
          (if s.isCGB && s.vram 1 (mapBase map + (y * tileMapColumns + x)) &&& 0x08 != 0 then 1
            else 0) s.tileSet (s.vram 0 (mapBase map + (y * tileMapColumns + x)))) := rfl
  rw [hlookup, hcell]
  simp only [Bool.and_eq_true, bne_iff_ne]

/-- A cache miss looks up what the map shows. -/
theorem fillCache_eq (s : Bus) (map : TileMapIndex) (x y : Nat) :
    (s.fillCache s.tileSet map (x / 8) (y / 8) y).rgb (x % 8) = s.mapPixel (mapBase map) x y := by
  have hrow : ∀ p : Prop, [Decidable p] →
      (if p then tilePixelsPerCol - y % tilePixelsPerCol - 1 else y % tilePixelsPerCol) % 8 =
        if p then 7 - y % 8 else y % 8 := by
    intro p _
    simp only [tilePixelsPerCol]
    split_ifs
    · omega
    · omega
  unfold fillCache mapPixel
  rw [lookup_eq]
  simp only [toRGB_eq, getTile_eq, hrow, Bool.and_eq_true, bne_iff_ne, Nat.add_assoc,
    Bool.true_eq_false, and_false, if_false]
  cases s.isCGB with
  | true => rfl
  | false => rfl

theorem mapBase_backgroundMap (s : Bus) :
    mapBase s.backgroundMap = if s.control &&& 0x08 ≠ 0 then 0x9C00 else 0x9800 := by
  unfold backgroundMap
  split_ifs <;> rfl

theorem mapBase_windowMap (s : Bus) :
    mapBase s.windowMap = if s.control &&& 0x40 ≠ 0 then 0x9C00 else 0x9800 := by
  unfold windowMap
  split_ifs <;> rfl

/-- Where a pixel of the line is looked up, whatever is read there. -/
theorem line_lookup {α : Type} {s : Bus} {px : Nat} (f : Cache → Nat → α)
    (hline : s.scanline.toNat < pixelsPerCol) (hpx : px < pixelsPerRow) :
    (if s.isWindowSelected (UInt8.ofNat px) s.scanline then
      let col := (px + 7 - s.winX.toNat) % 256
      f (s.winFill s.tileSet s.windowMap (col / 8)) (col % 8)
    else
      let col := (s.scrollX.toNat + px) % 256
      f (s.bgFill s.tileSet s.backgroundMap (col / 8)) (col % 8)) =
    if s.InWindow px then
      let x := px + 7 - s.winX.toNat
      let y := s.scanline.toNat - s.winY.toNat
      f (s.fillCache s.tileSet s.windowMap (x / 8) (y / 8) y) (x % 8)
    else
      let x := (s.scrollX.toNat + px) % 256
      let y := (s.scrollY.toNat + s.scanline.toNat) % 256
      f (s.fillCache s.tileSet s.backgroundMap (x / 8) (y / 8) y) (x % 8) := by
  by_cases hw : s.InWindow px
  · have hx : (px + 7 - s.winX.toNat) % 256 = px + 7 - s.winX.toNat := by
      simp only [pixelsPerRow] at hpx
      omega
    have hy : s.winRow = s.scanline.toNat - s.winY.toNat := by
      simp only [pixelsPerCol] at hline
      unfold winRow
      omega
    rw [if_pos ((isWindowSelected_iff hline hpx).mpr hw), if_pos hw]
    simp only [winFill, hx, hy]
  · rw [if_neg fun h => hw ((isWindowSelected_iff hline hpx).mp h), if_neg hw]
    rfl

/-- **Background and window.** Whatever is in VRAM and the registers, every pixel of the
line gets the colour that a direct lookup of the pixel gives. -/
theorem drawBackground_eq {s : Bus} {px : Nat} (hon : s.isBackgroundEnabled = true)
    (hline : s.scanline.toNat < pixelsPerCol) (hpx : px < pixelsPerRow) :
    (s.drawBackground s.tileSet s.backgroundMap s.windowMap).gpu.buffer
        (s.scanline.toNat * pixelsPerRow + px) = s.backgroundPixel px := by
  rw [drawBackground_line s _ _ _ hon hpx, linePixel, line_lookup Cache.rgb hline hpx,
    backgroundPixel, ← mapBase_windowMap, ← mapBase_backgroundMap]
  simp only [fillCache_eq]

/-- Line 20 of a console scrolled to the last columns and rows of its map, with a window
from pixel 50 on: the first cell of the background map shows a tile with a negative
number, the cell in row 1 and column 1 of the window map shows tile 2. -/
def scrolledConsole : Bus :=
  { bareConsole with
    io := fun r =>
      if r = gpuControlAddress then 0xE1
      else if r = gpuPaletteAddress then 0xE4
      else if r = gpuScrollXAddress then 0xF8
      else if r = gpuScrollYAddress then 0xF0
      else if r = gpuWindowXAddress then 57
      else if r = gpuWindowYAddress then 10
      else if r = gpuScanlineAddress then 20
      else 0
    gpu := { bareConsole.gpu with
      memory := fun bank p =>
        if bank = 1 then 0
        else if p = 0x1800 then 0xFF
        else if p = 0x0FF8 ∨ p = 0x0FF9 then 0x08
        else if p = 0x1C21 then 2
        else if p = 0x1024 then 0x20
        else 0 } }

/-- A black pixel of the scrolled background, past the right edge of its map, and a light
grey one of the window. -/
theorem drawBackground_eq_scrolled :
    let drawn := scrolledConsole.drawBackground scrolledConsole.tileSet
      scrolledConsole.backgroundMap scrolledConsole.windowMap
    drawn.gpu.buffer (scrolledConsole.scanline.toNat * pixelsPerRow + 12) = ⟨0, 0, 0, 0xFF⟩ ∧
      drawn.gpu.buffer (scrolledConsole.scanline.toNat * pixelsPerRow + 60) =
        ⟨192, 192, 192, 0xFF⟩ := by
  constructor
  · exact (drawBackground_eq (by decide) (by decide) (by decide)).trans (by decide)
  · exact (drawBackground_eq (by decide) (by decide) (by decide)).trans (by decide)

end Bus

end GbEmu
