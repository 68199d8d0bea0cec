import GbEmu.Gpu.SingleSprite

/-!
Sprites behind the background. A sprite with the priority flag is shown only where the
background has index 0. `render` does not know the index: it compares the colour on the
display with the colour that `drawBackground` noted for index 0, and two indices can have
one colour.
-/

namespace GbEmu

open Gpu

namespace Bus

/-! ## The index of a background pixel -/

/-- The two bits of the tile at `(x, y)` of a tile map. -/
def mapIndex (s : Bus) (map x y : Nat) : Nat :=
  let cell := map + 32 * (y / 8) + x / 8
  let attributes := s.vram 1 cell
  let data := s.tileData (s.vram 0 cell)
  let bank := if s.isCGB ∧ attributes &&& 0x08 ≠ 0 then 1 else 0
  let row := if s.isCGB ∧ attributes &&& 0x40 ≠ 0 then 7 - y % 8 else y % 8
  let column := if s.isCGB ∧ attributes &&& 0x20 ≠ 0 then 7 - x % 8 else x % 8
  let lower := s.vram bank (data + 2 * row)
  let upper := s.vram bank (data + 2 * row + 1)
  2 * bit upper (7 - column) + bit lower (7 - column)

/-- The colour that an index has in the tile at `(x, y)` of a tile map. -/
def mapColor (s : Bus) (map x y index : Nat) : RGB :=
  let attributes := s.vram 1 (map + 32 * (y / 8) + x / 8)
  if s.isCGB then (s.gpu.bgPalette (attributes &&& 0x07).toNat index).rgb
  else (dmgPalette (s.palette.toNat / 4 ^ index % 4)).rgb

/-- The two bits of the background or window at pixel `px` of the current line. -/
def backgroundIndex (s : Bus) (px : Nat) : Nat :=
  if s.InWindow px then
    s.mapIndex (if s.control &&& 0x40 ≠ 0 then 0x9C00 else 0x9800)
      (px + 7 - s.winX.toNat) (s.scanline.toNat - s.winY.toNat)
  else
    s.mapIndex (if s.control &&& 0x08 ≠ 0 then 0x9C00 else 0x9800)
      ((s.scrollX.toNat + px) % 256) ((s.scrollY.toNat + s.scanline.toNat) % 256)

/-- The colour that an index has in the tile at pixel `px` of the current line. -/
def backgroundColor (s : Bus) (px index : Nat) : RGB :=
  if s.InWindow px then
    s.mapColor (if s.control &&& 0x40 ≠ 0 then 0x9C00 else 0x9800)
      (px + 7 - s.winX.toNat) (s.scanline.toNat - s.winY.toNat) index
  else
    s.mapColor (if s.control &&& 0x08 ≠ 0 then 0x9C00 else 0x9800)
      ((s.scrollX.toNat + px) % 256) ((s.scrollY.toNat + s.scanline.toNat) % 256) index

theorem backgroundPixel_eq (s : Bus) (px : Nat) :
    s.backgroundPixel px = s.backgroundColor px (s.backgroundIndex px) := by
  unfold backgroundPixel backgroundColor backgroundIndex
  by_cases hw : s.InWindow px
  · simp only [if_pos hw]
    rfl
  · simp only [if_neg hw]
    rfl

/-! ## The colours of index 0 -/

section Line

variable (s : Bus) (set : TileSetIndex) (background window : TileMapIndex)

/-- The index into the colours of a cache entry that `drawBackground` notes. -/
def keyIndex : Nat := if s.isCGB then 0 else (s.palette &&& 0x3).toNat

/-- The colour that one pass of the loop notes when its tile is looked up anew. -/
def lineKey (px : Nat) : RGB :=
  if s.isWindowSelected (UInt8.ofNat px) s.scanline then
    let col := (px + 7 - s.winX.toNat) % 256
    ((s.winFill set window (col / 8)).p s.keyIndex).rgb
  else
    let col := (s.scrollX.toNat + px) % 256
    ((s.bgFill set background (col / 8)).p s.keyIndex).rgb

/-- The invariant of the loop, with the colours of index 0. -/
structure Keyed (n : Nat) (l : Line) : Prop where
  loop : Loop s set background window n l
  key : ∀ px < n, l.bg (s.scanline.toNat * pixelsPerRow + px) =
    s.lineKey set background window px

variable {s set background window} {n : Nat} {l : Line}

theorem Keyed.step (h : Keyed s set background window n l) :
    Keyed s set background window (n + 1) (s.drawPixel set background window l n) := by
  have hcol : ∀ x, x % 256 / 8 < 32 := fun x => by omega
  obtain ⟨-, -, -, hbg⟩ := s.drawPixel_caches set background window l n
  have hnoted : (s.drawPixel set background window l n).bg =
      Function.update l.bg (s.scanline.toNat * pixelsPerRow + n)
        (s.lineKey set background window n) := by
    rw [hbg, lineKey]
    cases s.isWindowSelected (UInt8.ofNat n) s.scanline with
    | true =>
      simp only [if_true, Memo.refresh_eq h.loop.win (hcol _)]
      rfl
    | false =>
      simp only [Bool.false_eq_true, if_false, Memo.refresh_eq h.loop.bg (hcol _)]
      rfl
  refine ⟨h.loop.step, fun px hpx => ?_⟩
  rw [hnoted]
  by_cases heq : px = n
  · rw [heq, Function.update_self]
  · rw [Function.update_of_ne (by omega)]
    exact h.key px (by omega)

variable (s set background window)

/-- The loop notes the colours of index 0 as if there were no caches. -/
theorem drawBackground_noted (hon : s.isBackgroundEnabled = true) {px : Nat}
    (hpx : px < pixelsPerRow) :
    (s.drawBackground set background window).gpu.bg (s.scanline.toNat * pixelsPerRow + px) =
      s.lineKey set background window px := by
  have hempty : ¬ Cache.init.x < 32 := by decide
  have hstart : Keyed s set background window 0
      { winCache := Cache.init, bgCache := Cache.init, buffer := s.gpu.buffer, bg := s.gpu.bg } :=
    ⟨⟨Memo.sound_empty hempty, Memo.sound_empty hempty, fun _ h => absurd h (Nat.not_lt_zero _)⟩,
      fun _ h => absurd h (Nat.not_lt_zero _)⟩
  have hloop : Keyed s set background window pixelsPerRow
      ((List.range pixelsPerRow).foldl (s.drawPixel set background window) _) :=
    Run.foldl_range hstart fun _ _ _ h => h.step
  rw [← hloop.key px hpx]
  unfold drawBackground
  rw [hon]
  rfl

end Line

theorem fillCache_key (s : Bus) (map : TileMapIndex) (x y : Nat) :
    ((s.fillCache s.tileSet map (x / 8) (y / 8) y).p s.keyIndex).rgb =
      s.mapColor (mapBase map) x y 0 := by
  have hmask : (s.palette &&& 0x3).toNat = s.palette.toNat / 4 ^ 0 % 4 := by
    rw [UInt8.toNat_and, Nat.pow_zero, Nat.div_one]
    exact Nat.and_two_pow_sub_one_eq_mod s.palette.toNat 2
  unfold fillCache mapColor keyIndex
  rw [lookup_eq]
  cases s.isCGB with
  | true => rfl
  | false => exact congrArg (fun k => (dmgPalette k).rgb) hmask

/-- For every pixel of the line, `m_bg` holds the colour that index 0 has there. -/
theorem drawBackground_key {s : Bus} {px : Nat} (hon : s.isBackgroundEnabled = true)
    (hline : s.scanline.toNat < pixelsPerCol) (hpx : px < pixelsPerRow) :
    (s.drawBackground s.tileSet s.backgroundMap s.windowMap).gpu.bg
        (s.scanline.toNat * pixelsPerRow + px) = s.backgroundColor px 0 := by
  rw [drawBackground_noted s _ _ _ hon hpx, lineKey,
    line_lookup (fun entry _ => (entry.p s.keyIndex).rgb) hline hpx,
    backgroundColor, ← mapBase_windowMap, ← mapBase_backgroundMap]
  simp only [fillCache_key]

/-! ## Sprites over the background -/

theorem updateScreen_eq {s : Bus} (hline : s.scanline.toNat < pixelsPerCol) :
    s.updateScreen = (s.drawBackground s.tileSet s.backgroundMap s.windowMap).drawSprites := by
  unfold updateScreen
  rw [if_neg (Nat.not_le.mpr hline)]
  rfl

/-- Drawing the background changes nothing that a sprite is made of. -/
theorem Drawn.spriteDot {s t : Bus} (h : Drawn s t) (sprite : Nat) {px : Nat}
    (hline : s.scanline.toNat < pixelsPerCol) (hpx : px < pixelsPerRow) :
    t.sizeSprites.spriteDot sprite (s.scanline.toNat * pixelsPerRow + px) =
      if s.SpriteCovers sprite px ∧ s.spriteIndex sprite px ≠ 0 ∧
          (s.spriteColor sprite (s.spriteIndex sprite px)).alpha ≠ alphaTransparent then
        some (s.spriteColor sprite (s.spriteIndex sprite px))
      else none := by
  obtain ⟨buffer, bg, colors, height, rfl⟩ := h
  exact (spriteDot_line hpx).trans (spriteAt_eq hline hpx)

theorem Drawn.registers {s t : Bus} (h : Drawn s t) :
    t.areSpritesEnabled = s.areSpritesEnabled ∧ t.scanline = s.scanline ∧
      t.spriteFlags = s.spriteFlags := by
  obtain ⟨buffer, bg, colors, height, rfl⟩ := h
  exact ⟨rfl, rfl, rfl⟩

/-- The place of a sprite with the priority flag that no other sprite gets to. -/
theorem updateScreen_at {s : Bus} {i px : Nat} (hbackground : s.isBackgroundEnabled = true)
    (hsprites : s.areSpritesEnabled = true) (hline : s.scanline.toNat < pixelsPerCol)
    (hi : i < spriteCount) (hflag : s.spriteFlags i &&& 0x80 ≠ 0) (hcovers : s.SpriteCovers i px)
    (hsolid : s.spriteIndex i px ≠ 0)
    (hother : ∀ j < spriteCount, j ≠ i → s.SpriteCovers j px → s.spriteIndex j px = 0) :
    s.updateScreen.gpu.buffer (s.scanline.toNat * pixelsPerRow + px) =
      if (s.spriteColor i (s.spriteIndex i px)).alpha ≠ alphaTransparent ∧
          s.backgroundPixel px = s.backgroundColor px 0 then
        s.spriteColor i (s.spriteIndex i px)
      else s.backgroundPixel px := by
  have hdrawn := s.drawBackground_drawn s.tileSet s.backgroundMap s.windowMap
  have hpixel := drawBackground_eq hbackground hline hcovers.1
  have hkey := drawBackground_key hbackground hline hcovers.1
  have hdot := fun j => hdrawn.spriteDot j hline hcovers.1
  obtain ⟨hon, hscan, hflags⟩ := hdrawn.registers
  rw [updateScreen_eq hline]
  generalize s.drawBackground s.tileSet s.backgroundMap s.windowMap = t at *
  have hother' : ∀ j < spriteCount, j ≠ i →
      t.sizeSprites.spriteDot j (s.scanline.toNat * pixelsPerRow + px) = none := by
    intro j hj hne
    rw [hdot]
    exact if_neg fun h => h.2.1 (hother j hj hne h.1)
  rw [drawSprites_only (hon.trans hsprites) (by rwa [hscan]) hi hother', hdot, hpixel]
  by_cases ha : (s.spriteColor i (s.spriteIndex i px)).alpha = alphaTransparent
  · rw [if_neg fun h => h.2.2 ha, if_neg fun h => h.1 ha]
    rfl
  · rw [if_pos ⟨hcovers, hsolid, ha⟩, overlay, hkey, hflags]
    by_cases hsame : s.backgroundPixel px = s.backgroundColor px 0
    · rw [if_neg fun h => h.2 hsame, if_pos ⟨ha, hsame⟩]
    · rw [if_pos ⟨hflag, hsame⟩, if_neg fun h => hsame h.2]

/-- **A sprite behind the background.** At a place that one opaque pixel of a sprite with the
priority flag covers, the display shows the sprite over index 0 and the background over the
other indices, exactly if the two look the same there, or the background has the colour of
index 0 only where it has index 0; or, for a palette entry that was never written and so is
not drawn at all, if the background has another index. -/
theorem updateScreen_priority_iff {s : Bus} {i px : Nat}
    (hbackground : s.isBackgroundEnabled = true) (hsprites : s.areSpritesEnabled = true)
    (hline : s.scanline.toNat < pixelsPerCol) (hi : i < spriteCount)
    (hflag : s.spriteFlags i &&& 0x80 ≠ 0) (hcovers : s.SpriteCovers i px)
    (hsolid : s.spriteIndex i px ≠ 0)
    (hother : ∀ j < spriteCount, j ≠ i → s.SpriteCovers j px → s.spriteIndex j px = 0) :
    s.updateScreen.gpu.buffer (s.scanline.toNat * pixelsPerRow + px) =
        (if s.backgroundIndex px = 0 then s.spriteColor i (s.spriteIndex i px)
        else s.backgroundPixel px) ↔
      s.spriteColor i (s.spriteIndex i px) = s.backgroundPixel px ∨
        if (s.spriteColor i (s.spriteIndex i px)).alpha = alphaTransparent then
          s.backgroundIndex px ≠ 0
        else s.backgroundPixel px = s.backgroundColor px 0 → s.backgroundIndex px = 0 := by
  rw [updateScreen_at hbackground hsprites hline hi hflag hcovers hsolid hother]
  have hzero : s.backgroundIndex px = 0 → s.backgroundPixel px = s.backgroundColor px 0 := by
    intro h
    rw [backgroundPixel_eq, h]
  by_cases ha : (s.spriteColor i (s.spriteIndex i px)).alpha = alphaTransparent
  · rw [if_neg fun h => h.1 ha, if_pos ha]
    by_cases hindex : s.backgroundIndex px = 0
    · rw [if_pos hindex, eq_comm]
      exact (or_iff_left fun h => h hindex).symm
    · rw [if_neg hindex]
      exact iff_of_true rfl (.inr hindex)
  · rw [if_neg ha]
    by_cases hsame : s.backgroundPixel px = s.backgroundColor px 0
    · rw [if_pos ⟨ha, hsame⟩]
      by_cases hindex : s.backgroundIndex px = 0
      · rw [if_pos hindex]
        exact iff_of_true rfl (.inr fun _ => hindex)
      · rw [if_neg hindex]
        exact (or_iff_left fun h => hindex (h hsame)).symm
    · rw [if_neg fun h => hsame h.2, if_neg fun h => hsame (hzero h)]
      exact iff_of_true rfl (.inr fun h => absurd h hsame)

/-- Line 0 with a sprite that is to be behind a background of index 1. -/
def behind (palette : UInt8) : Bus :=
  { bareConsole with
    oam := fun address =>
      if address = 0xFE00 then 16
      else if address = 0xFE01 then 8
      else if address = 0xFE03 then 0x80
      else 0
    io := fun address =>
      if address = gpuControlAddress then 0x93
      else if address = gpuPaletteAddress then palette
      else if address = gpuObp1Address then 0xFF
      else 0
    gpu := { bareConsole.gpu with memory := fun _ index => if index = 0 then 0x80 else 0 } }

/-- The index 1 has a shade of its own. -/
theorem updateScreen_priority_iff_behind :
    (behind 0xE4).updateScreen.gpu.buffer ((behind 0xE4).scanline.toNat * pixelsPerRow + 0) =
        (if (behind 0xE4).backgroundIndex 0 = 0 then
          (behind 0xE4).spriteColor 0 ((behind 0xE4).spriteIndex 0 0)
        else (behind 0xE4).backgroundPixel 0) ↔
      (behind 0xE4).spriteColor 0 ((behind 0xE4).spriteIndex 0 0) =
          (behind 0xE4).backgroundPixel 0 ∨
        if ((behind 0xE4).spriteColor 0 ((behind 0xE4).spriteIndex 0 0)).alpha =
            alphaTransparent then
          (behind 0xE4).backgroundIndex 0 ≠ 0
        else
          (behind 0xE4).backgroundPixel 0 = (behind 0xE4).backgroundColor 0 0 →
            (behind 0xE4).backgroundIndex 0 = 0 :=
  updateScreen_priority_iff (by decide) (by decide) (by decide) (by decide) (by decide)
    (by decide) (by decide) (by decide)

/-- Where a palette shows all indices in one colour, the sprite comes out over index 1. -/
theorem updateScreen_ignores_index :
    ¬ ∀ (s : Bus) (i px : Nat), s.isBackgroundEnabled = true → s.areSpritesEnabled = true →
      s.scanline.toNat < pixelsPerCol → i < spriteCount → s.spriteFlags i &&& 0x80 ≠ 0 →
      s.SpriteCovers i px → s.spriteIndex i px ≠ 0 →
      (∀ j < spriteCount, j ≠ i → s.SpriteCovers j px → s.spriteIndex j px = 0) →
        s.updateScreen.gpu.buffer (s.scanline.toNat * pixelsPerRow + px) =
          if s.backgroundIndex px = 0 then s.spriteColor i (s.spriteIndex i px)
          else s.backgroundPixel px := by
  intro h
  have hclaimed := h (behind 0x00) 0 0 (by decide) (by decide) (by decide) (by decide) (by decide)
    (by decide) (by decide) (by decide)
  rw [updateScreen_at (i := 0) (by decide) (by decide) (by decide) (by decide) (by decide)
    (by decide) (by decide) (by decide)] at hclaimed
  revert hclaimed
  decide

end Bus

end GbEmu
