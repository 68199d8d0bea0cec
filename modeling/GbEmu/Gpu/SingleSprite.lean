import GbEmu.Gpu.Background
import GbEmu.Gpu.Sprites
import GbEmu.Lib.Run

/-!
A sprite on its own. `isVisible`, `readSprite` and `render` cut the sprite to the
screen with bytes that wrap around; what comes out is the frame of the sprite in plain
integers, mirrored and cut. The one difference to a drawing by colour numbers is that a
palette entry that was never written has the alpha of a transparent pixel.
-/

namespace GbEmu

open Gpu

namespace Bus

/-! ## The picture -/

/-- The height of the sprites, from the control register. -/
def spriteSize (s : Bus) : Nat := if s.control &&& 0x04 ≠ 0 then 16 else 8

/-- Pixel `px` of the current line is inside the frame of the sprite. -/
def SpriteCovers (s : Bus) (sprite px : Nat) : Prop :=
  let x : Int := (s.spriteX sprite).toNat
  let y : Int := (s.spriteY sprite).toNat
  let line : Int := s.scanline.toNat
  px < pixelsPerRow ∧ x - 8 ≤ px ∧ px < x ∧ y - 16 ≤ line ∧ line < y - 16 + s.spriteSize

instance (s : Bus) (sprite px : Nat) : Decidable (s.SpriteCovers sprite px) := by
  unfold SpriteCovers
  infer_instance

/-- The two bits that the tile of the sprite has at pixel `px` of the current line. -/
def spriteIndex (s : Bus) (sprite px : Nat) : Nat :=
  let flags := s.spriteFlags sprite
  let row := s.scanline.toNat + 16 - (s.spriteY sprite).toNat
  let row := if flags &&& 0x40 ≠ 0 then s.spriteSize - 1 - row else row
  let column := px + 8 - (s.spriteX sprite).toNat
  let column := if flags &&& 0x20 ≠ 0 then 7 - column else column
  let tile :=
    if s.spriteSize = 16 then (s.spriteTile sprite &&& 0xFE).toNat + row / 8
    else (s.spriteTile sprite).toNat
  let bank := if s.isCGB ∧ flags &&& 0x08 ≠ 0 then 1 else 0
  let lower := s.vram bank (0x8000 + 16 * tile + 2 * (row % 8))
  let upper := s.vram bank (0x8000 + 16 * tile + 2 * (row % 8) + 1)
  2 * bit upper (7 - column) + bit lower (7 - column)

/-- The colour of a pixel of the sprite that has these two bits. -/
def spriteColor (s : Bus) (sprite index : Nat) : RGB :=
  let flags := s.spriteFlags sprite
  if s.isCGB then (s.gpu.spritePalette (flags &&& 0x07).toNat index).rgb
  else
    let palette := if flags &&& 0x10 ≠ 0 then s.io gpuObp2Address else s.io gpuObp1Address
    (dmgPalette (palette.toNat / 4 ^ index % 4)).rgb

/-- The display with the pixels of the sprite on it. -/
def singleSprite (s : Bus) (sprite : Nat) : ColorArray := fun p =>
  let px := p % pixelsPerRow
  if p / pixelsPerRow = s.scanline.toNat ∧ s.SpriteCovers sprite px ∧
      s.spriteIndex sprite px ≠ 0 then
    s.spriteColor sprite (s.spriteIndex sprite px)
  else s.gpu.buffer p

/-! ## The frame of a sprite -/

theorem sizeSprites_height (s : Bus) (sprite : Nat) :
    (s.sizeSprites.gpu.spriteHeight sprite).toNat = s.spriteSize := by
  unfold sizeSprites spriteSize
  split_ifs
  · rfl
  · rfl

theorem spriteSize_eq (s : Bus) : s.spriteSize = 8 ∨ s.spriteSize = 16 := by
  unfold spriteSize
  split_ifs
  · exact .inr rfl
  · exact .inl rfl

theorem isVisible_iff {s : Bus} {sprite : Nat} (hline : s.scanline.toNat < pixelsPerCol) :
    s.sizeSprites.isVisible sprite = true ↔
      0 < (s.spriteX sprite).toNat ∧ (s.spriteX sprite).toNat < 168 ∧
        (s.spriteY sprite).toNat ≤ s.scanline.toNat + 16 ∧
        s.scanline.toNat + 16 < (s.spriteY sprite).toNat + s.spriteSize := by
  have hrow := scanline_offset hline
  have hdef : s.sizeSprites.isVisible sprite =
      if s.spriteX sprite = 0 ∨ s.spriteY sprite = 0 then false
      else if (s.spriteX sprite).toNat ≥ 168 then false
      else if (s.spriteY sprite).toNat ≥ 160 then false
      else
        s.spriteY sprite ≤ s.scanline + spriteYOffset &&
          (s.scanline + spriteYOffset).toNat <
            (s.spriteY sprite).toNat + (s.sizeSprites.gpu.spriteHeight sprite).toNat := rfl
  have hsize := s.spriteSize_eq
  simp only [pixelsPerCol] at hline
  rw [hdef, sizeSprites_height]
  simp only [UInt8.le_iff_toNat_le, hrow, ← UInt8.toNat_inj, UInt8.toNat_zero]
  split_ifs with h0 hx hy
  · simp only [false_iff]
    omega
  · simp only [false_iff]
    omega
  · simp only [false_iff]
    omega
  · simp only [Bool.and_eq_true, decide_eq_true_eq]
    omega

theorem spriteCovers_iff {s : Bus} {sprite px : Nat} (hline : s.scanline.toNat < pixelsPerCol)
    (hpx : px < pixelsPerRow) :
    s.SpriteCovers sprite px ↔ s.sizeSprites.isVisible sprite = true ∧
      (s.spriteX sprite).toNat ≤ px + 8 ∧ px < (s.spriteX sprite).toNat := by
  rw [isVisible_iff hline]
  simp only [pixelsPerRow] at hpx
  simp only [SpriteCovers, pixelsPerRow]
  omega

/-- The visible sprites are those that cover a pixel of the line. -/
theorem isVisible_iff_covers {s : Bus} {sprite : Nat} (hline : s.scanline.toNat < pixelsPerCol) :
    s.sizeSprites.isVisible sprite = true ↔ ∃ px, s.SpriteCovers sprite px := by
  constructor
  · intro hvisible
    obtain ⟨hx, hx', -, -⟩ := (isVisible_iff hline).mp hvisible
    have hpx : min ((s.spriteX sprite).toNat - 1) 159 < pixelsPerRow := by
      simp only [pixelsPerRow]
      omega
    refine ⟨_, (spriteCovers_iff hline hpx).mpr ⟨hvisible, ?_, ?_⟩⟩
    · omega
    · omega
  · rintro ⟨px, hcovers⟩
    exact ((spriteCovers_iff hline hcovers.1).mp hcovers).1

/-- The row of the sprite before it is mirrored, as bytes that may wrap around. -/
theorem plainRow_toNat {line y : UInt8} (hline : line.toNat < pixelsPerCol)
    (hy : y.toNat ≤ line.toNat + 16) :
    (if y < spriteYOffset then spriteYOffset - y + line else line - (y - spriteYOffset)).toNat =
      line.toNat + 16 - y.toNat := by
  have hlt := y.toNat_lt
  simp only [pixelsPerCol] at hline
  split_ifs with h
  · rw [UInt8.toNat_add, UInt8.toNat_sub_of_le _ _ (UInt8.le_of_lt h)]
    rw [UInt8.lt_iff_toNat_lt] at h
    simp only [spriteYOffset, UInt8.reduceToNat] at h ⊢
    omega
  · rw [UInt8.toNat_sub, UInt8.toNat_sub_of_le _ _ (UInt8.not_lt.mp h)]
    rw [UInt8.lt_iff_toNat_lt] at h
    simp only [spriteYOffset, UInt8.reduceToNat] at h ⊢
    omega

/-- The row that `readSprite` looks up in a visible sprite. -/
theorem spriteRow_eq {s : Bus} {sprite : Nat} (hline : s.scanline.toNat < pixelsPerCol)
    (hvisible : s.sizeSprites.isVisible sprite = true) :
    ∃ row, s.sizeSprites.spriteRow sprite = some row ∧
      row.toNat =
        if s.spriteFlags sprite &&& 0x40 ≠ 0 then
          s.spriteSize - 1 - (s.scanline.toNat + 16 - (s.spriteY sprite).toNat)
        else s.scanline.toNat + 16 - (s.spriteY sprite).toNat := by
  obtain ⟨-, -, hy, hy'⟩ := (isVisible_iff hline).mp hvisible
  have hsize := s.spriteSize_eq
  have hheight := s.sizeSprites_height sprite
  obtain ⟨row, hdef⟩ : ∃ row, row = if s.spriteY sprite < spriteYOffset then
      spriteYOffset - s.spriteY sprite + s.scanline
      else s.scanline - (s.spriteY sprite - spriteYOffset) := ⟨_, rfl⟩
  have hrow : row.toNat = s.scanline.toNat + 16 - (s.spriteY sprite).toNat := by
    rw [hdef]
    exact plainRow_toNat hline hy
  have hin : ¬ s.sizeSprites.gpu.spriteHeight sprite ≤ row := by
    rw [UInt8.le_iff_toNat_le, hheight, hrow]
    omega
  have hread : s.sizeSprites.spriteRow sprite =
      if s.spriteFlags sprite &&& 0x40 ≠ 0 then
        some (s.sizeSprites.gpu.spriteHeight sprite - row - 1)
      else some row := by
    rw [hdef] at hin ⊢
    exact if_neg fun h => hin h.2
  by_cases hmirror : s.spriteFlags sprite &&& 0x40 ≠ 0
  · rw [if_pos hmirror] at hread ⊢
    refine ⟨_, hread, ?_⟩
    rw [UInt8.toNat_sub, UInt8.toNat_sub, hrow, hheight]
    simp only [UInt8.reduceToNat]
    omega
  · rw [if_neg hmirror] at hread ⊢
    exact ⟨row, hread, hrow⟩

/-! ## The pixels of a sprite -/

theorem getTile_tileset0 (s : Bus) (bank : Nat) (tile : UInt8) (j : Nat) :
    s.getTile bank .tileset0 tile j = s.vram bank (0x8000 + 16 * tile.toNat + j) := by
  have haddress : 0x8000 + 16 * tile.toNat + j - gpuRamOffset = tile.toNat * tileSize + j := by
    simp only [gpuRamOffset, tileSize]
    omega
  rw [vram, haddress, getTile, tileAddress_tileset0]

/-- The tile that `readSprite` looks up for a row of the sprite. -/
theorem spriteTile_eq (s : Bus) (sprite : Nat) {row : UInt8} (hrow : row.toNat < s.spriteSize) :
    let number :=
      if s.sizeSprites.gpu.spriteHeight sprite = spriteHeightExtended then
        s.spriteTile sprite &&& 0xFE
      else s.spriteTile sprite
    (if row.toNat ≥ tilePixelsPerCol then number + 1 else number).toNat =
      if s.spriteSize = 16 then (s.spriteTile sprite &&& 0xFE).toNat + row.toNat / 8
      else (s.spriteTile sprite).toNat := by
  have hheight : s.sizeSprites.gpu.spriteHeight sprite = spriteHeightExtended ↔
      s.spriteSize = 16 := by
    rw [← UInt8.toNat_inj, sizeSprites_height]
    rfl
  have heven : (s.spriteTile sprite &&& 0xFE).toNat ≤ 254 := by
    rw [UInt8.toNat_and]
    exact Nat.and_le_right
  simp only [hheight, tilePixelsPerCol]
  by_cases h16 : s.spriteSize = 16
  · rw [if_pos h16, if_pos h16]
    rw [h16] at hrow
    by_cases h8 : row.toNat ≥ 8
    · rw [if_pos h8, UInt8.toNat_add]
      simp only [UInt8.reduceToNat]
      omega
    · rw [if_neg h8]
      omega
  · rw [if_neg h16, if_neg h16, if_neg]
    have hsize := s.spriteSize_eq
    omega

/-- What `readSprite` leaves for a visible sprite: a row of one tile. -/
theorem spritePixels_toRGB {s : Bus} {sprite : Nat} (hline : s.scanline.toNat < pixelsPerCol)
    (hvisible : s.sizeSprites.isVisible sprite = true) :
    ∃ number row : UInt8,
      row.toNat =
        (if s.spriteFlags sprite &&& 0x40 ≠ 0 then
          s.spriteSize - 1 - (s.scanline.toNat + 16 - (s.spriteY sprite).toNat)
        else s.scanline.toNat + 16 - (s.spriteY sprite).toNat) ∧
      number.toNat =
        (if s.spriteSize = 16 then (s.spriteTile sprite &&& 0xFE).toNat + row.toNat / 8
        else (s.spriteTile sprite).toNat) ∧
      s.sizeSprites.spritePixels sprite =
        toRGB (s.spritePalette sprite).2 (s.spritePalette sprite).1
          (s.getTile (if s.isCGB && s.spriteFlags sprite &&& 0x08 != 0 then 1 else 0)
            .tileset0 number)
          row.toNat false (s.spriteFlags sprite &&& 0x20 != 0) := by
  obtain ⟨-, -, hy, hy'⟩ := (isVisible_iff hline).mp hvisible
  obtain ⟨row, hread, hrow⟩ := spriteRow_eq hline hvisible
  have hsize : row.toNat < s.spriteSize := by
    rw [hrow]
    split_ifs
    · omega
    · omega
  refine ⟨_, row, hrow, s.spriteTile_eq sprite hsize, ?_⟩
  simp only [spritePixels, readSprite, hread, Function.update_self]
  rfl

/-- The palette of a sprite, for a pixel with these two bits. -/
theorem spritePalette_eq (s : Bus) (sprite index : Nat) :
    ((s.spritePalette sprite).2 (shade (s.spritePalette sprite).1 index)).rgb =
      s.spriteColor sprite index := by
  unfold spritePalette spriteColor
  cases s.isCGB with
  | true => rfl
  | false => rfl

/-- The row that `readSprite` leaves has the colours of the pixels, those of index 0 being
transparent. -/
theorem spritePixels_eq {s : Bus} {sprite px : Nat} (hline : s.scanline.toNat < pixelsPerCol)
    (hvisible : s.sizeSprites.isVisible sprite = true) :
    s.sizeSprites.spritePixels sprite (px + 8 - (s.spriteX sprite).toNat) =
      if s.spriteIndex sprite px = 0 then
        { s.spriteColor sprite (s.spriteIndex sprite px) with alpha := alphaTransparent }
      else s.spriteColor sprite (s.spriteIndex sprite px) := by
  obtain ⟨number, row, hrow, hnumber, hpixels⟩ := spritePixels_toRGB hline hvisible
  rw [hpixels, toRGB_eq, ← spritePalette_eq]
  simp only [getTile_tileset0, hnumber, spriteIndex, ← hrow, bne_iff_ne, Bool.and_eq_true,
    Nat.add_assoc, and_true]

/-- The colour that a sprite has for pixel `px`, if it is not a transparent one. -/
theorem spriteAt_eq {s : Bus} {sprite px : Nat} (hline : s.scanline.toNat < pixelsPerCol)
    (hpx : px < pixelsPerRow) :
    s.sizeSprites.spriteAt sprite px =
      if s.SpriteCovers sprite px ∧ s.spriteIndex sprite px ≠ 0 ∧
          (s.spriteColor sprite (s.spriteIndex sprite px)).alpha ≠ alphaTransparent then
        some (s.spriteColor sprite (s.spriteIndex sprite px))
      else none := by
  have hcovers := @spriteCovers_iff s sprite px hline hpx
  have hdef : s.sizeSprites.spriteAt sprite px =
      if s.sizeSprites.isVisible sprite ∧ (s.spriteX sprite).toNat ≤ px + 8 ∧
          px < (s.spriteX sprite).toNat ∧
          (s.sizeSprites.spritePixels sprite (px + 8 - (s.spriteX sprite).toNat)).alpha ≠
            alphaTransparent then
        some (s.sizeSprites.spritePixels sprite (px + 8 - (s.spriteX sprite).toNat))
      else none := rfl
  rw [hdef]
  by_cases hvisible : s.sizeSprites.isVisible sprite = true
  · rw [spritePixels_eq hline hvisible]
    by_cases hzero : s.spriteIndex sprite px = 0
    · rw [if_pos hzero, if_neg fun h => h.2.2.2 rfl, if_neg fun h => h.2.1 hzero]
    · simp only [hcovers, and_assoc, ne_eq, hzero, not_false_iff, true_and, if_false]
  · rw [if_neg fun h => hvisible h.1, if_neg fun h => hvisible (hcovers.mp h.1).1]

/-! ## One sprite on the display -/

/-- What is seen at place `p` after a sprite has been drawn over `old`. -/
def overlay (s : Bus) (sprite p : Nat) (old : RGB) : Option RGB → RGB
  | none => old
  | some color => if s.spriteFlags sprite &&& 0x80 ≠ 0 ∧ old ≠ s.gpu.bg p then old else color

theorem renderPixel_at (s : Bus) (sprite : Nat) (display : ColorArray) (i p : Nat) :
    s.renderPixel sprite display i p =
      s.overlay sprite p (display p) (s.pixelDot sprite (s.gpu.spriteColors sprite i) i p) := by
  unfold renderPixel pixelDot
  by_cases ha : (s.gpu.spriteColors sprite i).alpha = alphaTransparent
  · rw [if_pos ha, if_pos (.inl ha)]
    rfl
  · by_cases hx : (s.spriteX sprite + UInt8.ofNat i - spriteXOffset).toNat ≥ pixelsPerRow
    · rw [if_neg ha, if_pos hx, if_pos (.inr hx)]
      rfl
    · rw [if_neg ha, if_neg hx, if_neg (not_or.mpr ⟨ha, hx⟩)]
      by_cases hp : p = s.scanline.toNat * pixelsPerRow +
          (s.spriteX sprite + UInt8.ofNat i - spriteXOffset).toNat
      · rw [← hp, Painter.dot_self, overlay]
        split_ifs
        · rfl
        · exact Function.update_self ..
      · rw [Painter.dot_of_ne hp, overlay]
        split_ifs
        · rfl
        · exact Function.update_of_ne hp ..

/-- The one place where a pixel of a sprite can be seen. -/
theorem pixelLayer_place {s : Bus} {sprite i p : Nat} (h : s.pixelLayer sprite i p ≠ none) :
    (s.spriteX sprite + UInt8.ofNat i - spriteXOffset).toNat < pixelsPerRow ∧
      p = s.scanline.toNat * pixelsPerRow +
        (s.spriteX sprite + UInt8.ofNat i - spriteXOffset).toNat := by
  simp only [pixelLayer, pixelDot] at h
  split_ifs at h with hgone
  · exact absurd rfl h
  · refine ⟨Nat.not_le.mp fun hx => hgone (.inr hx), ?_⟩
    by_contra hp
    exact h (Painter.dot_of_ne hp _)

theorem pixelLayer_unique {s : Bus} {sprite i k p : Nat} (hi : i < tilePixelsPerRow)
    (hk : k < tilePixelsPerRow) (h : s.pixelLayer sprite i p ≠ none)
    (h' : s.pixelLayer sprite k p ≠ none) : k = i := by
  have hsame := Nat.add_left_cancel ((pixelLayer_place h).2.symm.trans (pixelLayer_place h').2)
  rw [spriteColumn_toNat, spriteColumn_toNat] at hsame
  simp only [tilePixelsPerRow] at hi hk
  omega

theorem spriteLayer_off {s : Bus} {sprite p : Nat} (hp : p / pixelsPerRow ≠ s.scanline.toNat) :
    s.spriteLayer sprite p = none := by
  refine Painter.stack_uncovered fun layer hlayer => ?_
  obtain ⟨i, -, rfl⟩ := List.mem_map.mp hlayer
  by_contra h
  obtain ⟨hx, hplace⟩ := pixelLayer_place h
  refine hp ?_
  rw [hplace, pixel_div hx]

theorem render_withPixels (s : Bus) (sprite : Nat) :
    ∃ buffer colors, s.render sprite = s.withPixels buffer colors := by
  obtain ⟨colors, hread⟩ := s.readSprite_withPixels sprite
  unfold render
  rw [hread]
  exact ⟨_, colors, rfl⟩

/-- What a pass of `render` does to a place. -/
theorem renderPixel_layer (s : Bus) (sprite : Nat) (display : ColorArray) (i p : Nat) :
    (s.readSprite sprite).renderPixel sprite display i p =
      s.overlay sprite p (display p) (s.pixelLayer sprite i p) := by
  obtain ⟨colors, hread⟩ := s.readSprite_withPixels sprite
  rw [renderPixel_at, pixelLayer, spritePixels, hread]
  rfl

theorem render_buffer (s : Bus) (sprite : Nat) :
    (s.render sprite).gpu.buffer =
      (List.range tilePixelsPerRow).foldl ((s.readSprite sprite).renderPixel sprite)
        s.gpu.buffer := by
  obtain ⟨colors, hread⟩ := s.readSprite_withPixels sprite
  have hbuffer : (s.readSprite sprite).gpu.buffer = s.gpu.buffer := by
    rw [hread]
    rfl
  rw [← hbuffer]
  rfl

/-- A pass that does not get to the place. -/
theorem renderPixel_kept {s : Bus} {sprite i p : Nat} (h : s.pixelLayer sprite i p = none)
    (display : ColorArray) : (s.readSprite sprite).renderPixel sprite display i p = display p := by
  rw [renderPixel_layer, h]
  rfl

/-- Only one of the passes of `render` gets to a place. -/
theorem render_at (s : Bus) (sprite p : Nat) :
    (s.render sprite).gpu.buffer p =
      s.overlay sprite p (s.gpu.buffer p) (s.spriteLayer sprite p) := by
  rw [render_buffer]
  by_cases hany : ∃ i ∈ List.range tilePixelsPerRow, s.pixelLayer sprite i p ≠ none
  · obtain ⟨i, hi, hcover⟩ := hany
    have hother : ∀ k ∈ List.range tilePixelsPerRow, k ≠ i → s.pixelLayer sprite k p = none := by
      intro k hk hne
      by_contra hk'
      exact hne (pixelLayer_unique (List.mem_range.mp hi) (List.mem_range.mp hk) hcover hk')
    have htop : s.spriteLayer sprite p = s.pixelLayer sprite i p :=
      Painter.stack_top (fun a b => Nat.lt_asymm) List.pairwise_lt_range hi hcover
        fun k hk hne hk' => absurd (hother k hk hne) hk'
    rw [htop]
    exact Run.foldl_only (P := fun _ => True) (g := fun display : ColorArray => display p)
      (f := fun old => s.overlay sprite p old (s.pixelLayer sprite i p)) List.nodup_range hi
      (fun _ _ _ _ => trivial)
      (fun k hk hne display _ => renderPixel_kept (hother k hk hne) display)
      (fun display _ => s.renderPixel_layer sprite display i p) trivial
  · have hnone : ∀ i ∈ List.range tilePixelsPerRow, s.pixelLayer sprite i p = none := by
      intro i hi
      by_contra h
      exact hany ⟨i, hi, h⟩
    have hempty : s.spriteLayer sprite p = none := by
      refine Painter.stack_uncovered fun layer hlayer => ?_
      obtain ⟨i, hi, rfl⟩ := List.mem_map.mp hlayer
      exact hnone i hi
    rw [hempty]
    exact Run.foldl_kept (P := fun _ => True) (g := fun display : ColorArray => display p)
      (fun _ _ _ _ => trivial) (fun i hi display _ => renderPixel_kept (hnone i hi) display)
      trivial

/-- The colour with which a visible sprite covers a place of the display. -/
def spriteDot (s : Bus) (sprite p : Nat) : Option RGB :=
  if p / pixelsPerRow = s.scanline.toNat then s.spriteAt sprite (p % pixelsPerRow) else none

theorem spriteDot_line {s : Bus} {sprite px : Nat} (hpx : px < pixelsPerRow) :
    s.spriteDot sprite (s.scanline.toNat * pixelsPerRow + px) = s.spriteAt sprite px := by
  rw [spriteDot, pixel_div hpx, pixel_mod hpx, if_pos rfl]

theorem spriteLayer_eq {s : Bus} {sprite p : Nat} (hvisible : s.isVisible sprite = true) :
    s.spriteLayer sprite p = s.spriteDot sprite p := by
  unfold spriteDot
  by_cases hp : p / pixelsPerRow = s.scanline.toNat
  · rw [if_pos hp, ← spriteLayer_at hvisible (Nat.mod_lt p (by decide)), ← hp, pixel_place]
  · rw [if_neg hp, spriteLayer_off hp]

theorem spriteDot_hidden {s : Bus} {sprite : Nat} (hhidden : ¬ s.isVisible sprite = true)
    (p : Nat) : s.spriteDot sprite p = none := by
  by_contra h
  unfold spriteDot at h
  split_ifs at h with hp
  · exact hhidden (isVisible_of_spriteAt h)
  · exact h rfl

/-- The states that differ from `s` in their pixels alone. -/
def Redrawn (s t : Bus) : Prop := ∃ buffer colors, t = s.withPixels buffer colors

theorem Redrawn.render {s t : Bus} (h : Redrawn s t) (sprite : Nat) :
    Redrawn s (t.render sprite) := by
  obtain ⟨buffer, colors, rfl⟩ := h
  obtain ⟨buffer', colors', hrender⟩ := (s.withPixels buffer colors).render_withPixels sprite
  exact ⟨buffer', colors', hrender⟩

theorem Redrawn.render_at {s t : Bus} (h : Redrawn s t) {sprite : Nat}
    (hline : s.scanline.toNat < pixelsPerCol) (hvisible : s.isVisible sprite = true) (p : Nat) :
    (t.render sprite).gpu.buffer p =
      s.overlay sprite p (t.gpu.buffer p) (s.spriteDot sprite p) := by
  obtain ⟨buffer, colors, rfl⟩ := h
  rw [Bus.render_at, spriteLayer_withPixels hline hvisible, spriteLayer_eq hvisible]
  rfl

/-- A place that no sprite but one gets to. -/
theorem drawSprites_only {s : Bus} {i p : Nat} (hon : s.areSpritesEnabled = true)
    (hline : s.scanline.toNat < pixelsPerCol) (hi : i < spriteCount)
    (hother : ∀ j < spriteCount, j ≠ i → s.sizeSprites.spriteDot j p = none) :
    s.drawSprites.gpu.buffer p =
      s.overlay i p (s.gpu.buffer p) (s.sizeSprites.spriteDot i p) := by
  have hkept : ∀ j ∈ s.sizeSprites.spriteOrder, j ≠ i → ∀ t, Redrawn s.sizeSprites t →
      (t.render j).gpu.buffer p = t.gpu.buffer p := by
    intro j hj hne t ht
    rw [ht.render_at hline (mem_spriteOrder.mp hj).2, hother j (mem_spriteOrder.mp hj).1 hne]
    rfl
  rw [drawSprites_foldl hon]
  by_cases hvisible : s.sizeSprites.isVisible i = true
  · exact Run.foldl_only (g := fun t : Bus => t.gpu.buffer p)
      (f := fun old => s.overlay i p old (s.sizeSprites.spriteDot i p))
      s.sizeSprites.spriteOrder_nodup (mem_spriteOrder.mpr ⟨hi, hvisible⟩)
      (fun j _ t ht => ht.render j) hkept (fun t ht => ht.render_at hline hvisible p)
      ⟨_, _, rfl⟩
  · rw [spriteDot_hidden hvisible]
    refine Run.foldl_kept (g := fun t : Bus => t.gpu.buffer p)
      (fun j _ t (ht : Redrawn s.sizeSprites t) => ht.render j) (fun j hj t ht => ?_) ⟨_, _, rfl⟩
    refine hkept j hj (fun hji => hvisible ?_) t ht
    rw [← hji]
    exact (mem_spriteOrder.mp hj).2

/-! ## A single sprite -/

theorem spriteDot_eq {s : Bus} {sprite p : Nat} (hline : s.scanline.toNat < pixelsPerCol) :
    s.sizeSprites.spriteDot sprite p =
      let px := p % pixelsPerRow
      if p / pixelsPerRow = s.scanline.toNat ∧ s.SpriteCovers sprite px ∧
          s.spriteIndex sprite px ≠ 0 ∧
          (s.spriteColor sprite (s.spriteIndex sprite px)).alpha ≠ alphaTransparent then
        some (s.spriteColor sprite (s.spriteIndex sprite px))
      else none := by
  have hdef : s.sizeSprites.spriteDot sprite p =
      if p / pixelsPerRow = s.scanline.toNat then
        s.sizeSprites.spriteAt sprite (p % pixelsPerRow)
      else none := rfl
  rw [hdef, spriteAt_eq hline (Nat.mod_lt p (by decide))]
  by_cases hp : p / pixelsPerRow = s.scanline.toNat
  · rw [if_pos hp]
    simp only [hp, true_and]
  · rw [if_neg hp]
    exact (if_neg fun h => hp h.1).symm

/-- Every place of the display after a single sprite has been drawn. -/
theorem drawSprites_single_at {s : Bus} {i : Nat} (hon : s.areSpritesEnabled = true)
    (hline : s.scanline.toNat < pixelsPerCol) (hi : i < spriteCount)
    (hflag : s.spriteFlags i &&& 0x80 = 0)
    (hother : ∀ j < spriteCount, j ≠ i → ∀ px, ¬ s.SpriteCovers j px) (p : Nat) :
    s.drawSprites.gpu.buffer p =
      if p / pixelsPerRow = s.scanline.toNat ∧ s.SpriteCovers i (p % pixelsPerRow) ∧
          s.spriteIndex i (p % pixelsPerRow) ≠ 0 ∧
          (s.spriteColor i (s.spriteIndex i (p % pixelsPerRow))).alpha ≠ alphaTransparent then
        s.spriteColor i (s.spriteIndex i (p % pixelsPerRow))
      else s.gpu.buffer p := by
  have hnone : ∀ j < spriteCount, j ≠ i → s.sizeSprites.spriteDot j p = none := by
    intro j hj hne
    rw [spriteDot_eq hline]
    exact if_neg fun h => hother j hj hne _ h.2.1
  rw [drawSprites_only hon hline hi hnone, spriteDot_eq hline]
  simp only
  split_ifs
  · exact if_neg fun h => h.1 hflag
  · rfl

/-- **A single sprite.** Where only one sprite is on the line and does not hide behind the
background, drawing the sprites puts its pixels on the display and changes no other pixel,
exactly if the palette has a colour for every pixel that is not of index 0: an entry that
was never written counts as transparent. -/
theorem drawSprites_single_iff {s : Bus} {i : Nat} (hon : s.areSpritesEnabled = true)
    (hline : s.scanline.toNat < pixelsPerCol) (hi : i < spriteCount)
    (hflag : s.spriteFlags i &&& 0x80 = 0)
    (hother : ∀ j < spriteCount, j ≠ i → ∀ px, ¬ s.SpriteCovers j px) :
    s.drawSprites.gpu.buffer = s.singleSprite i ↔
      ∀ px, s.SpriteCovers i px → s.spriteIndex i px ≠ 0 →
        (s.spriteColor i (s.spriteIndex i px)).alpha ≠ alphaTransparent ∨
          s.gpu.buffer (s.scanline.toNat * pixelsPerRow + px) =
            s.spriteColor i (s.spriteIndex i px) := by
  have hshown := drawSprites_single_at hon hline hi hflag hother
  constructor
  · intro h px hcovers hindex
    have hpicture : s.singleSprite i (s.scanline.toNat * pixelsPerRow + px) =
        s.spriteColor i (s.spriteIndex i px) := by
      rw [singleSprite, pixel_div hcovers.1, pixel_mod hcovers.1]
      exact if_pos ⟨rfl, hcovers, hindex⟩
    rw [← h, hshown, pixel_div hcovers.1, pixel_mod hcovers.1] at hpicture
    by_cases ha : (s.spriteColor i (s.spriteIndex i px)).alpha = alphaTransparent
    · rw [if_neg fun h => h.2.2.2 ha] at hpicture
      exact .inr hpicture
    · exact .inl ha
  · intro h
    funext p
    rw [hshown, singleSprite]
    by_cases hdraw : p / pixelsPerRow = s.scanline.toNat ∧ s.SpriteCovers i (p % pixelsPerRow) ∧
        s.spriteIndex i (p % pixelsPerRow) ≠ 0
    · obtain ⟨hp, hcovers, hindex⟩ := hdraw
      rw [if_pos (⟨hp, hcovers, hindex⟩ : _ ∧ _ ∧ _)]
      rcases h _ hcovers hindex with ha | hsame
      · rw [if_pos ⟨hp, hcovers, hindex, ha⟩]
      · rw [← hp, pixel_place] at hsame
        rw [hsame, ite_self]
    · rw [if_neg hdraw, if_neg fun h => hdraw ⟨h.1, h.2.1, h.2.2.1⟩]

/-- Line 0 with sprite 0 in its upper left corner, on a white display. -/
def oneSprite (cartridge : Option Cartridge) : Bus :=
  { bareConsole with
    cartridge := cartridge
    oam := fun address =>
      if address = 0xFE00 then 16 else if address = 0xFE01 then 8 else 0
    io :=
      Function.update (Function.update bareConsole.io gpuControlAddress 0x93) gpuObp1Address 0xE4
    gpu := { bareConsole.gpu with
      memory := fun _ index => if index = 0 then 0x80 else 0
      buffer := fun _ => ⟨255, 255, 255, 0xFF⟩ } }

theorem oneSprite_alone (cartridge : Option Cartridge) (j : Nat) (hj : j < spriteCount)
    (hne : j ≠ 0) (px : Nat) : ¬ (oneSprite cartridge).SpriteCovers j px := by
  -- The cartridge has no part in where the sprites are.
  have hy : ∀ k < spriteCount, k ≠ 0 → (oneSprite none).spriteY k = 0 := by decide
  have hline : (oneSprite none).scanline = 0 := by decide
  have hsize : (oneSprite none).spriteSize = 8 := by decide
  have hrows : ¬ (0 : Int) < (0 : UInt8).toNat - 16 + (8 : Nat) := by decide
  rintro ⟨-, -, -, -, hlow⟩
  have hy0 : (oneSprite cartridge).spriteY j = 0 := hy j hj hne
  have hline0 : (oneSprite cartridge).scanline = 0 := hline
  have hsize8 : (oneSprite cartridge).spriteSize = 8 := hsize
  rw [hy0, hline0, hsize8] at hlow
  exact hrows hlow

/-- A sprite in the shades of a palette register. -/
theorem drawSprites_single_iff_oneSprite :
    (oneSprite none).drawSprites.gpu.buffer = (oneSprite none).singleSprite 0 ↔
      ∀ px, (oneSprite none).SpriteCovers 0 px → (oneSprite none).spriteIndex 0 px ≠ 0 →
        ((oneSprite none).spriteColor 0 ((oneSprite none).spriteIndex 0 px)).alpha ≠
            alphaTransparent ∨
          (oneSprite none).gpu.buffer ((oneSprite none).scanline.toNat * pixelsPerRow + px) =
            (oneSprite none).spriteColor 0 ((oneSprite none).spriteIndex 0 px) :=
  drawSprites_single_iff (by decide) (by decide) (by decide) (by decide) (oneSprite_alone none)

/-- A sprite whose palette was never written is not shown, though its pixel has index 1. -/
theorem drawSprites_skips_unwritten :
    ¬ ∀ (s : Bus) (i : Nat), s.areSpritesEnabled = true → s.scanline.toNat < pixelsPerCol →
      i < spriteCount → s.spriteFlags i &&& 0x80 = 0 →
      (∀ j < spriteCount, j ≠ i → ∀ px, ¬ s.SpriteCovers j px) →
        s.drawSprites.gpu.buffer = s.singleSprite i := by
  intro h
  have hdraw := h (oneSprite (some { Cartridge.empty with cgb := true })) 0 (by decide) (by decide)
    (by decide) (by decide) (oneSprite_alone _)
  have hpixel := congrFun hdraw 0
  revert hpixel
  decide

end Bus

end GbEmu
