import GbEmu.Gpu.Render
import GbEmu.Lib.Painter

/-!
Which sprite is on top. A sprite whose pixels are not behind the background is a
layer over the display, and `drawSprites` paints the layers of the visible sprites
in the order it sorts them into: the sprite of the highest priority first, so the
one of the lowest priority ends up on top.
-/

namespace GbEmu

open Gpu Painter

namespace Bus

/-! ## One sprite -/

/-- The pixels of the sprite on the current line, as `readSprite` leaves them. -/
def spritePixels (s : Bus) (sprite : Nat) : TileRow :=
  (s.readSprite sprite).gpu.spriteColors sprite

/-- Pixel `i` of the sprite in its place, if it is opaque and on the screen. -/
def pixelDot (s : Bus) (sprite : Nat) (color : RGB) (i : Nat) : Layer Nat RGB :=
  let x := s.spriteX sprite + UInt8.ofNat i - spriteXOffset
  if color.alpha = alphaTransparent ∨ x.toNat ≥ pixelsPerRow then fun _ => none
  else dot (s.scanline.toNat * pixelsPerRow + x.toNat) color

def pixelLayer (s : Bus) (sprite i : Nat) : Layer Nat RGB :=
  s.pixelDot sprite (s.spritePixels sprite i) i

def spriteLayer (s : Bus) (sprite : Nat) : Layer Nat RGB :=
  stack ((List.range tilePixelsPerRow).map (s.pixelLayer sprite))

/-- The state with other pixels. -/
def withPixels (s : Bus) (buffer : ColorArray) (colors : Nat → TileRow) : Bus :=
  { s with gpu := { s.gpu with buffer := buffer, spriteColors := colors } }

theorem readSprite_withPixels (s : Bus) (sprite : Nat) :
    ∃ colors, s.readSprite sprite = s.withPixels s.gpu.buffer colors := by
  unfold readSprite
  split
  · exact ⟨s.gpu.spriteColors, rfl⟩
  · exact ⟨_, rfl⟩

/-- Without the priority flag, a pass of the loop paints its pixel on any background. -/
theorem renderPixel_eq {s : Bus} {sprite : Nat} (hflag : s.spriteFlags sprite &&& 0x80 = 0)
    (display : ColorArray) (i : Nat) :
    s.renderPixel sprite display i =
      paint display (s.pixelDot sprite (s.gpu.spriteColors sprite i) i) := by
  unfold renderPixel pixelDot
  by_cases ha : (s.gpu.spriteColors sprite i).alpha = alphaTransparent
  · rw [if_pos ha, if_pos (.inl ha), paint_none]
  · by_cases hx : (s.spriteX sprite + UInt8.ofNat i - spriteXOffset).toNat ≥ pixelsPerRow
    · rw [if_neg ha, if_pos hx, if_pos (.inr hx), paint_none]
    · rw [if_neg ha, if_neg hx, if_neg (not_or.mpr ⟨ha, hx⟩), paint_dot,
        if_neg fun h => h.1 hflag]

theorem render_eq {s : Bus} {sprite : Nat} (hflag : s.spriteFlags sprite &&& 0x80 = 0) :
    ∃ colors, s.render sprite =
      s.withPixels (paint s.gpu.buffer (s.spriteLayer sprite)) colors := by
  obtain ⟨colors, hread⟩ := s.readSprite_withPixels sprite
  have hpass : (s.readSprite sprite).renderPixel sprite =
      fun display i => paint display (s.pixelLayer sprite i) := by
    funext display i
    rw [pixelLayer, spritePixels, hread]
    exact renderPixel_eq (s := s.withPixels s.gpu.buffer colors) hflag display i
  have hbuffer : (s.readSprite sprite).gpu.buffer = s.gpu.buffer := by
    rw [hread]
    rfl
  refine ⟨colors, ?_⟩
  unfold render
  simp only [hpass, hbuffer]
  rw [← List.foldl_map, foldl_paint, hread]
  rfl

/-! ## Sprites one over the other -/

theorem scanline_offset {s : Bus} (hline : s.scanline.toNat < pixelsPerCol) :
    (s.scanline + spriteYOffset).toNat = s.scanline.toNat + 16 := by
  simp only [pixelsPerCol] at hline
  rw [UInt8.toNat_add]
  exact Nat.mod_eq_of_lt (by simp; omega)

/-- The rows that a visible sprite has on the screen. -/
theorem visible_rows {s : Bus} {sprite : Nat} (hline : s.scanline.toNat < pixelsPerCol)
    (hvisible : s.isVisible sprite = true) :
    (s.spriteY sprite).toNat ≤ s.scanline.toNat + 16 ∧
      s.scanline.toNat + 16 < (s.spriteY sprite).toNat + (s.gpu.spriteHeight sprite).toNat := by
  have hrow := scanline_offset hline
  simp only [isVisible] at hvisible
  split_ifs at hvisible
  simp only [Bool.and_eq_true, decide_eq_true_eq, UInt8.le_iff_toNat_le, hrow] at hvisible
  exact hvisible

theorem spriteRow_of_isVisible {s : Bus} {sprite : Nat} (hline : s.scanline.toNat < pixelsPerCol)
    (hvisible : s.isVisible sprite = true) : ∃ row, s.spriteRow sprite = some row := by
  have hin : s.spriteY sprite < spriteYOffset →
      ¬ s.gpu.spriteHeight sprite ≤ spriteYOffset - s.spriteY sprite + s.scanline := by
    intro hy hheight
    have hlt := (visible_rows hline hvisible).2
    have hy16 : (s.spriteY sprite).toNat < 16 := UInt8.lt_iff_toNat_lt.mp hy
    have hsub : (spriteYOffset - s.spriteY sprite).toNat = 16 - (s.spriteY sprite).toNat :=
      UInt8.toNat_sub_of_le _ _ (UInt8.le_of_lt hy)
    rw [UInt8.le_iff_toNat_le, UInt8.toNat_add, hsub] at hheight
    simp only [pixelsPerCol] at hline
    omega
  simp only [spriteRow]
  by_cases hy : s.spriteY sprite < spriteYOffset
  · rw [if_pos hy, if_neg fun h => hin hy h.2]
    split_ifs
    · exact ⟨_, rfl⟩
    · exact ⟨_, rfl⟩
  · rw [if_neg hy, if_neg fun h => hy h.1]
    split_ifs
    · exact ⟨_, rfl⟩
    · exact ⟨_, rfl⟩

theorem spritePixels_withPixels {s : Bus} {sprite : Nat} {row : UInt8}
    (hrow : s.spriteRow sprite = some row) (buffer : ColorArray) (colors : Nat → TileRow) :
    (s.withPixels buffer colors).spritePixels sprite = s.spritePixels sprite := by
  have hrow' : (s.withPixels buffer colors).spriteRow sprite = some row := hrow
  simp only [spritePixels, readSprite, hrow, hrow', Function.update_self]
  rfl

theorem spriteLayer_withPixels {s : Bus} {sprite : Nat} (hline : s.scanline.toNat < pixelsPerCol)
    (hvisible : s.isVisible sprite = true) (buffer : ColorArray) (colors : Nat → TileRow) :
    (s.withPixels buffer colors).spriteLayer sprite = s.spriteLayer sprite := by
  obtain ⟨row, hrow⟩ := spriteRow_of_isVisible hline hvisible
  unfold spriteLayer
  congr 2
  funext i
  unfold pixelLayer
  rw [spritePixels_withPixels hrow]
  rfl

/-- Rendering visible sprites paints their layers in turn. -/
theorem renderAll_eq {s : Bus} {sprites : List Nat} (hline : s.scanline.toNat < pixelsPerCol)
    (hflags : ∀ i ∈ sprites, s.spriteFlags i &&& 0x80 = 0)
    (hvisible : ∀ i ∈ sprites, s.isVisible i = true) (buffer : ColorArray)
    (colors : Nat → TileRow) :
    ∃ colors', sprites.foldl render (s.withPixels buffer colors) =
      s.withPixels ((sprites.map s.spriteLayer).foldl paint buffer) colors' := by
  induction sprites generalizing buffer colors with
  | nil => exact ⟨colors, rfl⟩
  | cons i sprites ih =>
    have hflag : (s.withPixels buffer colors).spriteFlags i &&& 0x80 = 0 :=
      hflags i List.mem_cons_self
    obtain ⟨colors₁, hrender⟩ := render_eq hflag
    rw [spriteLayer_withPixels hline (hvisible i List.mem_cons_self)] at hrender
    obtain ⟨colors', hrest⟩ := ih (fun k hk => hflags k (List.mem_cons_of_mem i hk))
      (fun k hk => hvisible k (List.mem_cons_of_mem i hk)) (paint buffer (s.spriteLayer i)) colors₁
    refine ⟨colors', ?_⟩
    rw [List.foldl_cons, hrender, List.map_cons, List.foldl_cons, ← hrest]
    rfl

/-! ## Pixels -/

/-- The colour with which a visible sprite covers pixel `px` of the current line. -/
def spriteAt (s : Bus) (sprite px : Nat) : Option RGB :=
  let x := (s.spriteX sprite).toNat
  let color := s.spritePixels sprite (px + spriteXOffset.toNat - x)
  if s.isVisible sprite ∧ x ≤ px + spriteXOffset.toNat ∧ px < x ∧
      color.alpha ≠ alphaTransparent then
    some color
  else none

/-- The column of the screen for a pixel of a sprite. -/
theorem spriteColumn_toNat (x : UInt8) (i : Nat) :
    (x + UInt8.ofNat i - spriteXOffset).toNat = (x.toNat + i + 248) % 256 := by
  rw [UInt8.toNat_sub, UInt8.toNat_add, UInt8.toNat_ofNat']
  simp only [spriteXOffset, UInt8.reduceToNat]
  omega

theorem pixelLayer_at (s : Bus) (sprite : Nat) {i px : Nat} (hi : i < tilePixelsPerRow)
    (hpx : px < pixelsPerRow) :
    s.pixelLayer sprite i (s.scanline.toNat * pixelsPerRow + px) =
      if (s.spriteX sprite).toNat + i = px + 8 ∧
        (s.spritePixels sprite i).alpha ≠ alphaTransparent then some (s.spritePixels sprite i)
      else none := by
  have hlt := (s.spriteX sprite).toNat_lt
  have hplace : (s.spriteX sprite).toNat + i = px + 8 ↔
      (s.spriteX sprite + UInt8.ofNat i - spriteXOffset).toNat = px := by
    rw [spriteColumn_toNat]
    simp only [tilePixelsPerRow, pixelsPerRow] at hi hpx
    omega
  simp only [hplace, pixelLayer, pixelDot]
  generalize (s.spriteX sprite + UInt8.ofNat i - spriteXOffset).toNat = x
  by_cases ha : (s.spritePixels sprite i).alpha = alphaTransparent
  · rw [if_pos (.inl ha), if_neg fun h => h.2 ha]
  · by_cases hxp : x = px
    · rw [hxp, if_neg (not_or.mpr ⟨ha, Nat.not_le.mpr hpx⟩), dot_self, if_pos ⟨rfl, ha⟩]
    · rw [if_neg (fun h => hxp h.1 : ¬ (x = px ∧ _))]
      split_ifs with h
      · rfl
      · exact dot_of_ne (fun heq => hxp (Nat.add_left_cancel heq).symm) _

/-- At a pixel, a visible sprite is its one pixel there. -/
theorem spriteLayer_at {s : Bus} {sprite px : Nat} (hvisible : s.isVisible sprite = true)
    (hpx : px < pixelsPerRow) :
    s.spriteLayer sprite (s.scanline.toNat * pixelsPerRow + px) = s.spriteAt sprite px := by
  have hpixel := fun {i : Nat} (hi : i < tilePixelsPerRow) =>
    s.pixelLayer_at sprite hi hpx
  have h8 : spriteXOffset.toNat = 8 := rfl
  unfold spriteLayer spriteAt
  simp only [hvisible, true_and]
  split_ifs with h
  · obtain ⟨hle, hlt, ha⟩ := h
    have hi : px + spriteXOffset.toNat - (s.spriteX sprite).toNat < tilePixelsPerRow := by
      simp only [tilePixelsPerRow]
      omega
    have hplace : (s.spriteX sprite).toNat + (px + spriteXOffset.toNat - (s.spriteX sprite).toNat) =
        px + 8 := Nat.add_sub_of_le hle
    have hcover := hpixel hi
    rw [if_pos ⟨hplace, ha⟩] at hcover
    rw [stack_top (fun a b => Nat.lt_asymm) List.pairwise_lt_range (List.mem_range.mpr hi), hcover]
    · rw [hcover]
      exact Option.some_ne_none _
    · intro k hk hne hk'
      rw [hpixel (List.mem_range.mp hk)] at hk'
      split_ifs at hk' with hcovers
      · omega
      · exact absurd rfl hk'
  · refine stack_uncovered fun layer hlayer => ?_
    obtain ⟨k, hk, rfl⟩ := List.mem_map.mp hlayer
    have hk8 := List.mem_range.mp hk
    rw [hpixel hk8, if_neg]
    rintro ⟨hplace, ha⟩
    have hk' : px + spriteXOffset.toNat - (s.spriteX sprite).toNat = k := by omega
    simp only [tilePixelsPerRow] at hk8
    rw [hk'] at h
    exact h ⟨by omega, by omega, ha⟩

/-! ## The order of the sprites -/

/-- `enabled` after `std::sort`. -/
def spriteOrder (s : Bus) : List Nat :=
  ((List.range spriteCount).filter s.isVisible).insertionSort fun a b => !s.spriteBefore b a

/-- Sprite `i` has a higher priority than sprite `j`. -/
def Outranks (s : Bus) (i j : Nat) : Prop :=
  if s.isCGB then spriteAddress i < spriteAddress j
  else s.spriteX i < s.spriteX j ∨
    (s.spriteX i = s.spriteX j ∧ spriteAddress i < spriteAddress j)

instance (s : Bus) (i j : Nat) : Decidable (s.Outranks i j) := by
  unfold Outranks
  infer_instance

/-- A number that is smaller for the sprite of the higher priority. -/
def spriteRank (s : Bus) (i : Nat) : Nat :=
  (if s.isCGB then 0 else (s.spriteX i).toNat * 65536) + (spriteAddress i).toNat

theorem outranks_iff {s : Bus} {i j : Nat} : s.Outranks i j ↔ s.spriteRank i < s.spriteRank j := by
  have hi := (spriteAddress i).toNat_lt
  have hj := (spriteAddress j).toNat_lt
  unfold Outranks spriteRank
  cases s.isCGB with
  | true => simp [UInt16.lt_iff_toNat_lt]
  | false =>
    simp only [Bool.false_eq_true, if_false, UInt16.lt_iff_toNat_lt, UInt8.lt_iff_toNat_lt,
      ← UInt8.toNat_inj]
    omega

theorem spriteBefore_iff {s : Bus} {i j : Nat} : s.spriteBefore i j = true ↔ s.Outranks i j := by
  unfold spriteBefore Outranks
  cases s.isCGB with
  | true => simp
  | false =>
    by_cases hx : s.spriteX i = s.spriteX j
    · simp [hx]
    · simp [hx]

theorem spriteAddress_toNat {i : Nat} (hi : i < spriteCount) :
    (spriteAddress i).toNat = 0xFE00 + 4 * i := by
  simp only [spriteCount] at hi
  rw [spriteAddress, UInt16.toNat_ofNat']
  simp only [spriteAttributesTable, spriteBytesPerAttribute]
  omega

theorem spriteRank_injective {s : Bus} {i j : Nat} (hi : i < spriteCount) (hj : j < spriteCount)
    (h : s.spriteRank i = s.spriteRank j) : i = j := by
  have hi' := spriteAddress_toNat hi
  have hj' := spriteAddress_toNat hj
  unfold spriteRank at h
  simp only [spriteCount] at hi hj
  cases hc : s.isCGB with
  | true =>
    simp only [hc, if_true] at h
    omega
  | false =>
    simp only [hc, Bool.false_eq_true, if_false] at h
    omega

theorem mem_spriteOrder {s : Bus} {i : Nat} :
    i ∈ s.spriteOrder ↔ i < spriteCount ∧ s.isVisible i = true := by
  rw [spriteOrder, List.mem_insertionSort, List.mem_filter, List.mem_range]

theorem not_spriteBefore_iff {s : Bus} {a b : Nat} :
    (!s.spriteBefore b a) = true ↔ s.spriteRank a ≤ s.spriteRank b := by
  rw [Bool.not_eq_true', ← Bool.not_eq_true, spriteBefore_iff, outranks_iff, Nat.not_lt]

theorem spriteOrder_sorted (s : Bus) :
    s.spriteOrder.Pairwise fun a b => (!s.spriteBefore b a) = true := by
  have : Std.Total fun a b => (!s.spriteBefore b a) = true :=
    ⟨fun a b => by simpa only [not_spriteBefore_iff] using Nat.le_total _ _⟩
  have : IsTrans Nat fun a b => (!s.spriteBefore b a) = true :=
    ⟨fun a b c => by simpa only [not_spriteBefore_iff] using Nat.le_trans⟩
  exact List.pairwise_insertionSort _ _

/-- `std::sort` leaves one order only, whatever its algorithm. -/
theorem spriteOrder_unique {s : Bus} {l : List Nat}
    (hperm : l.Perm ((List.range spriteCount).filter s.isVisible))
    (hsorted : l.Pairwise fun a b => (!s.spriteBefore b a) = true) : l = s.spriteOrder := by
  have hperm' : l.Perm s.spriteOrder := hperm.trans (List.perm_insertionSort _ _).symm
  refine hperm'.eq_of_pairwise (fun a b ha hb hab hba => ?_) hsorted s.spriteOrder_sorted
  have hrank := Nat.le_antisymm (not_spriteBefore_iff.mp hab) (not_spriteBefore_iff.mp hba)
  exact spriteRank_injective (mem_spriteOrder.mp (hperm'.mem_iff.mp ha)).1
    (mem_spriteOrder.mp hb).1 hrank

theorem spriteOrder_nodup (s : Bus) : s.spriteOrder.Nodup :=
  (List.perm_insertionSort _ _).nodup_iff.mpr (List.nodup_range.filter _)

/-- The sorted sprites, from the highest priority to the lowest. -/
theorem spriteOrder_pairwise (s : Bus) : s.spriteOrder.Pairwise s.Outranks := by
  refine (s.spriteOrder_sorted.and s.spriteOrder_nodup).imp_of_mem fun {a b} ha hb ⟨hab, hne⟩ => ?_
  rw [outranks_iff]
  refine Nat.lt_of_le_of_ne (not_spriteBefore_iff.mp hab) fun heq => hne ?_
  exact spriteRank_injective (mem_spriteOrder.mp ha).1 (mem_spriteOrder.mp hb).1 heq

/-! ## The sprite on top -/

/-- Sprite `i` covers the pixel and outranks all other sprites that do. -/
def Frontmost (s : Bus) (px i : Nat) : Prop :=
  i < spriteCount ∧ s.spriteAt i px ≠ none ∧
    ∀ j < spriteCount, j ≠ i → s.spriteAt j px ≠ none → s.Outranks i j

/-- Sprite `i` covers the pixel and all other sprites that do outrank it. -/
def Rearmost (s : Bus) (px i : Nat) : Prop :=
  i < spriteCount ∧ s.spriteAt i px ≠ none ∧
    ∀ j < spriteCount, j ≠ i → s.spriteAt j px ≠ none → s.Outranks j i

/-- The heights that `drawSprites` gives to the sprites. -/
def sizeSprites (s : Bus) : Bus :=
  let height := if s.control &&& 0x04 ≠ 0 then spriteHeightExtended else spriteHeightNormal
  { s with gpu := { s.gpu with spriteHeight := fun _ => height } }

theorem isVisible_of_spriteAt {s : Bus} {i px : Nat} (h : s.spriteAt i px ≠ none) :
    s.isVisible i = true := by
  simp only [spriteAt] at h
  split_ifs at h with hvisible
  · exact hvisible.1
  · exact absurd rfl h

theorem drawSprites_foldl {s : Bus} (hon : s.areSpritesEnabled = true) :
    s.drawSprites = s.sizeSprites.spriteOrder.foldl render
      (s.sizeSprites.withPixels s.gpu.buffer s.gpu.spriteColors) := by
  unfold drawSprites
  rw [hon]
  rfl

theorem drawSprites_eq {s : Bus} (hon : s.areSpritesEnabled = true)
    (hline : s.scanline.toNat < pixelsPerCol)
    (hflags : ∀ i < spriteCount, s.spriteFlags i &&& 0x80 = 0) :
    ∃ colors, s.drawSprites = s.sizeSprites.withPixels (paint s.gpu.buffer
      (stack (s.sizeSprites.spriteOrder.map s.sizeSprites.spriteLayer))) colors := by
  rw [drawSprites_foldl hon, ← foldl_paint]
  exact renderAll_eq (s := s.sizeSprites) hline
    (fun i hi => hflags i (mem_spriteOrder.mp hi).1) (fun i hi => (mem_spriteOrder.mp hi).2) _ _

section Top

variable {s : Bus} {px : Nat} (hpx : px < pixelsPerRow)

include hpx

/-- The last of the sorted sprites that cover the pixel. -/
theorem stack_spriteOrder {i : Nat} (hi : s.Rearmost px i) :
    stack (s.spriteOrder.map s.spriteLayer) (s.scanline.toNat * pixelsPerRow + px) =
      s.spriteAt i px := by
  obtain ⟨hcount, hcover, hall⟩ := hi
  have hat : ∀ {j}, j ∈ s.spriteOrder →
      s.spriteLayer j (s.scanline.toNat * pixelsPerRow + px) = s.spriteAt j px :=
    fun hj => spriteLayer_at (mem_spriteOrder.mp hj).2 hpx
  have hi : i ∈ s.spriteOrder := mem_spriteOrder.mpr ⟨hcount, isVisible_of_spriteAt hcover⟩
  rw [← hat hi] at hcover ⊢
  refine stack_top (r := s.Outranks) ?_ s.spriteOrder_pairwise hi hcover fun j hj hne hj' => ?_
  · intro a b hab hba
    rw [outranks_iff] at hab hba
    exact Nat.lt_asymm hab hba
  · rw [hat hj] at hj'
    exact hall j (mem_spriteOrder.mp hj).1 hne hj'

/-- If any sprite covers the pixel, one of them is at the rear. -/
theorem exists_rearmost {i : Nat} (hi : i < spriteCount) (hcover : s.spriteAt i px ≠ none) :
    ∃ j, s.Rearmost px j := by
  have hat : ∀ {j}, j ∈ s.spriteOrder →
      s.spriteLayer j (s.scanline.toNat * pixelsPerRow + px) = s.spriteAt j px :=
    fun hj => spriteLayer_at (mem_spriteOrder.mp hj).2 hpx
  have hmem : i ∈ s.spriteOrder := mem_spriteOrder.mpr ⟨hi, isVisible_of_spriteAt hcover⟩
  rw [← hat hmem] at hcover
  obtain ⟨j, hj, hjcover, htop⟩ := exists_top s.spriteOrder_pairwise hmem hcover
  rw [hat hj] at hjcover
  refine ⟨j, (mem_spriteOrder.mp hj).1, hjcover, fun k hk hne hkcover => ?_⟩
  have hkmem : k ∈ s.spriteOrder := mem_spriteOrder.mpr ⟨hk, isVisible_of_spriteAt hkcover⟩
  exact htop k hkmem hne (by rwa [hat hkmem])

end Top

/-- The display shows the sprite of the lowest priority. -/
theorem drawSprites_rearmost {s : Bus} {px i : Nat} (hon : s.areSpritesEnabled = true)
    (hline : s.scanline.toNat < pixelsPerCol)
    (hflags : ∀ i < spriteCount, s.spriteFlags i &&& 0x80 = 0) (hpx : px < pixelsPerRow)
    (hi : s.sizeSprites.Rearmost px i) :
    some (s.drawSprites.gpu.buffer (s.scanline.toNat * pixelsPerRow + px)) =
      s.sizeSprites.spriteAt i px := by
  obtain ⟨colors, hdraw⟩ := drawSprites_eq hon hline hflags
  have hstack := stack_spriteOrder hpx hi
  cases hc : s.sizeSprites.spriteAt i px with
  | none => exact absurd hc hi.2.1
  | some c =>
    rw [hc] at hstack
    rw [hdraw]
    exact congrArg some (paint_some hstack)

/-- **The sprite of the highest priority is not the one on top.** A pixel that opaque
pixels of sprites cover shows the sprite of the lowest priority, so the colour is the
one of the sprite of the highest priority exactly if the two have the same there. -/
theorem drawSprites_frontmost_iff {s : Bus} {px i : Nat} (hon : s.areSpritesEnabled = true)
    (hline : s.scanline.toNat < pixelsPerCol)
    (hflags : ∀ i < spriteCount, s.spriteFlags i &&& 0x80 = 0) (hpx : px < pixelsPerRow)
    (hi : s.sizeSprites.Frontmost px i) :
    some (s.drawSprites.gpu.buffer (s.scanline.toNat * pixelsPerRow + px)) =
        s.sizeSprites.spriteAt i px ↔
      ∃ j, s.sizeSprites.Rearmost px j ∧
        s.sizeSprites.spriteAt j px = s.sizeSprites.spriteAt i px := by
  constructor
  · intro hshown
    obtain ⟨j, hj⟩ := exists_rearmost hpx hi.1 hi.2.1
    exact ⟨j, hj, (drawSprites_rearmost hon hline hflags hpx hj).symm.trans hshown⟩
  · rintro ⟨j, hj, hsame⟩
    exact (drawSprites_rearmost hon hline hflags hpx hj).trans hsame

/-- Line 0 with sprites 0 and 1 in the same place, a grey pixel under a black one. -/
def overlapping : Bus :=
  { bareConsole with
    oam := fun address =>
      if address = 0xFE00 ∨ address = 0xFE04 then 16
      else if address = 0xFE01 ∨ address = 0xFE05 then 8
      else if address = 0xFE06 then 1
      else 0
    io :=
      Function.update (Function.update bareConsole.io gpuControlAddress 0x93) gpuObp1Address 0xE4
    gpu := { bareConsole.gpu with
      memory := fun _ index => if index = 0 ∨ index = 16 ∨ index = 17 then 0x80 else 0 } }

theorem overlapping_frontmost : overlapping.sizeSprites.Frontmost 0 0 := by
  unfold Frontmost
  decide

theorem overlapping_rearmost : overlapping.sizeSprites.Rearmost 0 1 := by
  unfold Rearmost
  decide

theorem overlapping_flags : ∀ i < spriteCount, overlapping.spriteFlags i &&& 0x80 = 0 := by
  decide

/-- Two sprites in one place, with different colours. -/
theorem drawSprites_frontmost_iff_overlapping :
    some (overlapping.drawSprites.gpu.buffer (overlapping.scanline.toNat * pixelsPerRow + 0)) =
        overlapping.sizeSprites.spriteAt 0 0 ↔
      ∃ j, overlapping.sizeSprites.Rearmost 0 j ∧
        overlapping.sizeSprites.spriteAt j 0 = overlapping.sizeSprites.spriteAt 0 0 :=
  drawSprites_frontmost_iff (by decide) (by decide) overlapping_flags (by decide)
    overlapping_frontmost

/-- The black sprite is shown, though the grey one has the lower address. -/
theorem drawSprites_shows_lowest :
    ¬ ∀ (s : Bus) (px i : Nat), s.areSpritesEnabled = true → s.scanline.toNat < pixelsPerCol →
      (∀ j < spriteCount, s.spriteFlags j &&& 0x80 = 0) → px < pixelsPerRow →
      s.sizeSprites.Frontmost px i →
        some (s.drawSprites.gpu.buffer (s.scanline.toNat * pixelsPerRow + px)) =
          s.sizeSprites.spriteAt i px := by
  intro h
  have hgrey := h overlapping 0 0 (by decide) (by decide) overlapping_flags (by decide)
    overlapping_frontmost
  have hblack := drawSprites_rearmost (by decide) (by decide) overlapping_flags (by decide)
    overlapping_rearmost
  have hne : overlapping.sizeSprites.spriteAt 1 0 ≠ overlapping.sizeSprites.spriteAt 0 0 := by
    decide
  exact hne (hblack.symm.trans hgrey)

end Bus

end GbEmu
