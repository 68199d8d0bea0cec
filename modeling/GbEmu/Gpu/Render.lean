import Mathlib.Data.List.Sort
import GbEmu.Bus

/-!
Drawing one line: `GPU::updateScreen` and the functions it calls. Tiles are read
through the pointers that `initTileCache` sets up, so a tile is a view of VRAM,
and the sprite table is a view of OAM.
-/

namespace GbEmu

inductive TileMapIndex
  | tilemap0
  | tilemap1
  deriving DecidableEq, Repr

inductive TileSetIndex
  | tileset0
  | tileset1
  deriving DecidableEq, Repr

/-- Sixteen bytes, two for each row of pixels. -/
abbrev Tile := Nat → UInt8

namespace Gpu

@[simp] abbrev tileSize : Nat := 16
@[simp] abbrev tilesPerSet : Nat := 256
@[simp] abbrev tilePixelsPerRow : Nat := 8
@[simp] abbrev tilePixelsPerCol : Nat := 8
@[simp] abbrev tileMapRows : Nat := 32
@[simp] abbrev tileMapColumns : Nat := 32
@[simp] abbrev tileSet0Offset : Nat := gpuRamOffset
@[simp] abbrev tileSet1Offset : Nat := tileSet0Offset + tilesPerSet * tileSize / 2
@[simp] abbrev tileMap0Offset : Nat := tileSet1Offset + tilesPerSet * tileSize
@[simp] abbrev tileMap1Offset : Nat := tileMap0Offset + tileMapRows * tileMapColumns
@[simp] abbrev spriteAttributesTable : Nat := 0xFE00
@[simp] abbrev spriteCount : Nat := 40
@[simp] abbrev spriteBytesPerAttribute : Nat := 4
@[simp] abbrev spriteHeightNormal : UInt8 := 8
@[simp] abbrev spriteHeightExtended : UInt8 := 16
@[simp] abbrev spriteXOffset : UInt8 := 8
@[simp] abbrev spriteYOffset : UInt8 := 16
@[simp] abbrev pixelsPerRow : Nat := 160
@[simp] abbrev pixelsPerCol : Nat := 144
@[simp] abbrev windowRowOffset : Nat := 7
@[simp] abbrev alphaTransparent : UInt8 := 0x00

/-! ## Places of a frame -/

theorem pixel_place (p : Nat) : p / pixelsPerRow * pixelsPerRow + p % pixelsPerRow = p := by
  rw [Nat.mul_comm, Nat.div_add_mod]

theorem pixel_div {line px : Nat} (hpx : px < pixelsPerRow) :
    (line * pixelsPerRow + px) / pixelsPerRow = line := by
  rw [Nat.mul_comm, Nat.mul_add_div (by decide), Nat.div_eq_of_lt hpx, Nat.add_zero]

theorem pixel_mod {line px : Nat} (hpx : px < pixelsPerRow) :
    (line * pixelsPerRow + px) % pixelsPerRow = px := by
  rw [Nat.mul_comm, Nat.mul_add_mod, Nat.mod_eq_of_lt hpx]

/-! ## Tiles -/

/-- Where `initTileCache` finds a tile; the second set is addressed by signed numbers. -/
def tileAddress (set : TileSetIndex) (tile : UInt8) : Nat :=
  match set with
  | .tileset0 => tileSet0Offset + tile.toNat * tileSize - gpuRamOffset
  | .tileset1 =>
    (((tileSet0Offset + tilesPerSet * tileSize - gpuRamOffset : Nat) : Int) +
      tile.toInt8.toInt * tileSize).toNat

/-- One row of a tile, run through a palette; unless `white`, pixel 0 is transparent. -/
def toRGB (rgb : ColorPalette) (pal : Option UInt8) (tile : Tile) (row : Nat)
    (white flip : Bool) : TileRow := fun j =>
  let offset := row % tilePixelsPerRow * 2
  let lower := tile offset
  let upper := tile (offset + 1)
  let index := if flip then 7 - j else j
  let shift := UInt8.ofNat (7 - index)
  let pixel : UInt8 :=
    (((upper >>> shift) &&& 0x01) <<< (1 : UInt8)) ||| ((lower >>> shift) &&& 0x01)
  let idx :=
    match pal with
    | none => pixel
    | some p => (p >>> ((pixel &&& 0x03) * 2)) &&& 0x03
  let color := (rgb idx.toNat).rgb
  if pixel = 0x00 ∧ white = false then { color with alpha := alphaTransparent } else color

/-- The tile row that `drawBackground` holds for the last column it looked up. -/
structure Cache where
  x : Nat
  rgb : TileRow
  p : ColorPalette

/-- No column has this number, so the first lookup always fills the entry. -/
def Cache.init : Cache := { x := 0xFFFF, rgb := fun _ => noColor, p := fun _ => ⟨0, 0, noColor⟩ }

/-- What the loop over the pixels of a line carries along. -/
structure Line where
  winCache : Cache
  bgCache : Cache
  buffer : ColorArray
  bg : ColorArray

end Gpu

open Gpu

namespace Bus

/-! ## Registers -/

def control (s : Bus) : UInt8 := s.io gpuControlAddress
def status (s : Bus) : UInt8 := s.io gpuStatusAddress
def palette (s : Bus) : UInt8 := s.io gpuPaletteAddress
def scrollX (s : Bus) : UInt8 := s.io gpuScrollXAddress
def scrollY (s : Bus) : UInt8 := s.io gpuScrollYAddress
def winX (s : Bus) : UInt8 := s.io gpuWindowXAddress
def winY (s : Bus) : UInt8 := s.io gpuWindowYAddress
def scanline (s : Bus) : UInt8 := s.io gpuScanlineAddress

def isBackgroundEnabled (s : Bus) : Bool := s.control &&& 0x01 != 0
def areSpritesEnabled (s : Bus) : Bool := s.control &&& 0x02 != 0
def isWindowEnabled (s : Bus) : Bool := s.control &&& 0x20 != 0
def isDisplayEnabled (s : Bus) : Bool := s.control &&& 0x80 != 0

/-! ## Background and window -/

def getTile (s : Bus) (bank : Nat) (index : TileSetIndex) (tile : UInt8) : Tile :=
  fun j => s.gpu.memory bank (tileAddress index tile + j)

/-- The attributes and the tile at a place of a tile map. -/
def lookup (s : Bus) (mIndex : TileMapIndex) (sIndex : TileSetIndex) (x y : Nat) : UInt8 × Tile :=
  let offset :=
    match mIndex with
    | .tilemap0 => tileMap0Offset
    | .tilemap1 => tileMap1Offset
  let pointer := offset + (y * tileMapColumns + x) - gpuRamOffset
  let attributes := s.gpu.memory 1 pointer
  let bank := if s.isCGB && attributes &&& 0x08 != 0 then 1 else 0
  (attributes, s.getTile bank sIndex (s.gpu.memory 0 pointer))

def isWindowSelected (s : Bus) (x y : UInt8) : Bool :=
  if !s.isWindowEnabled then false
  else if y < s.winY || y.toNat ≥ pixelsPerCol then false
  else if x.toNat + windowRowOffset < s.winX.toNat || x.toNat ≥ pixelsPerRow + windowRowOffset then
    false
  else true

/-- A cache miss: the row of the tile and the palette it is shown in. -/
def fillCache (s : Bus) (set : TileSetIndex) (map : TileMapIndex) (xOffset yOffset row : Nat) :
    Cache :=
  let (atts, tile) := s.lookup map set xOffset yOffset
  let rgb := if s.isCGB then s.gpu.bgPalette (atts &&& 0x07).toNat else dmgPalette
  let palette := if s.isCGB then none else some s.palette
  let flipX := s.isCGB && atts &&& 0x20 != 0
  let flipY := s.isCGB && atts &&& 0x40 != 0
  let row := row % tilePixelsPerCol
  let row := if flipY then tilePixelsPerCol - row - 1 else row
  { x := xOffset, rgb := toRGB rgb palette tile row true flipX, p := rgb }

/-- One pass of the loop of `drawBackground`. -/
def drawPixel (s : Bus) (set : TileSetIndex) (background window : TileMapIndex) (l : Line)
    (pixel : Nat) : Line :=
  let win := s.isWindowSelected (UInt8.ofNat pixel) s.scanline
  -- The window is selected only where these differences are not negative.
  let col := if win then pixel + windowRowOffset - s.winX.toNat else s.scrollX.toNat + pixel
  let row :=
    if win then s.scanline.toNat - s.winY.toNat else s.scrollY.toNat + s.scanline.toNat
  let col := col % (tileMapRows * tilePixelsPerRow)
  let row := row % (tileMapRows * tilePixelsPerRow)
  let xOffset := col / tilePixelsPerRow
  let yOffset := row / tilePixelsPerCol
  let cache := if win then l.winCache else l.bgCache
  let cache :=
    if cache.x ≠ xOffset then
      s.fillCache set (if win then window else background) xOffset yOffset row
    else cache
  let bgIdx := if s.isCGB then 0 else (s.palette &&& 0x3).toNat
  let index := s.scanline.toNat * pixelsPerRow + pixel
  { winCache := if win then cache else l.winCache
    bgCache := if win then l.bgCache else cache
    bg := Function.update l.bg index (cache.p bgIdx).rgb
    buffer := Function.update l.buffer index (cache.rgb (col % tilePixelsPerRow)) }

def drawBackground (s : Bus) (set : TileSetIndex) (background window : TileMapIndex) : Bus :=
  if !s.isBackgroundEnabled then s
  else
    let l := (List.range pixelsPerRow).foldl (s.drawPixel set background window)
      { winCache := Cache.init, bgCache := Cache.init, buffer := s.gpu.buffer, bg := s.gpu.bg }
    { s with gpu := { s.gpu with buffer := l.buffer, bg := l.bg } }

/-! ## Sprites -/

/-- `address` of an entry of `m_sprites`. -/
def spriteAddress (sprite : Nat) : UInt16 :=
  UInt16.ofNat (spriteAttributesTable + sprite * spriteBytesPerAttribute)

def spriteY (s : Bus) (sprite : Nat) : UInt8 := s.oam (spriteAddress sprite)
def spriteX (s : Bus) (sprite : Nat) : UInt8 := s.oam (spriteAddress sprite + 1)
def spriteTile (s : Bus) (sprite : Nat) : UInt8 := s.oam (spriteAddress sprite + 2)
def spriteFlags (s : Bus) (sprite : Nat) : UInt8 := s.oam (spriteAddress sprite + 3)

/-- `SpriteData::palette`. -/
def spritePalette (s : Bus) (sprite : Nat) : Option UInt8 × ColorPalette :=
  let flags := s.spriteFlags sprite
  if s.isCGB then (none, s.gpu.spritePalette (flags &&& 0x07).toNat)
  else (some (if flags &&& 0x10 ≠ 0 then s.io gpuObp2Address else s.io gpuObp1Address), dmgPalette)

def isVisible (s : Bus) (sprite : Nat) : Bool :=
  let x := s.spriteX sprite
  let y := s.spriteY sprite
  if x = 0 ∨ y = 0 then false
  else if x.toNat ≥ pixelsPerRow + spriteXOffset.toNat then false
  else if y.toNat ≥ pixelsPerCol + spriteYOffset.toNat then false
  else
    let row := s.scanline + spriteYOffset
    y ≤ row && row.toNat < y.toNat + (s.gpu.spriteHeight sprite).toNat

/-- The row of the sprite on the current line, `none` when `readSprite` gives up. -/
def spriteRow (s : Bus) (sprite : Nat) : Option UInt8 :=
  let y := s.spriteY sprite
  let height := s.gpu.spriteHeight sprite
  let row :=
    if y < spriteYOffset then spriteYOffset - y + s.scanline else s.scanline - (y - spriteYOffset)
  if y < spriteYOffset ∧ height ≤ row then none
  else if s.spriteFlags sprite &&& 0x40 ≠ 0 then some (height - row - 1)
  else some row

def readSprite (s : Bus) (sprite : Nat) : Bus :=
  match s.spriteRow sprite with
  | none => s
  | some row =>
    let number := s.spriteTile sprite
    let number :=
      if s.gpu.spriteHeight sprite = spriteHeightExtended then number &&& 0xFE else number
    let bank := if s.isCGB && s.spriteFlags sprite &&& 0x08 != 0 then 1 else 0
    let flipX := s.spriteFlags sprite &&& 0x20 != 0
    let number := if row.toNat ≥ tilePixelsPerCol then number + 1 else number
    let (pal, rgb) := s.spritePalette sprite
    let colors := toRGB rgb pal (s.getTile bank .tileset0 number) row.toNat false flipX
    { s with gpu := { s.gpu with
      spriteColors := Function.update s.gpu.spriteColors sprite colors } }

/-- Pass `i` of the loop of `SpriteData::render`. -/
def renderPixel (s : Bus) (sprite : Nat) (display : ColorArray) (i : Nat) : ColorArray :=
  let color := s.gpu.spriteColors sprite i
  if color.alpha = alphaTransparent then display
  else
    let x := s.spriteX sprite + UInt8.ofNat i - spriteXOffset
    if x.toNat ≥ pixelsPerRow then display
    else
      let index := s.scanline.toNat * pixelsPerRow + x.toNat
      if s.spriteFlags sprite &&& 0x80 ≠ 0 ∧ display index ≠ s.gpu.bg index then display
      else Function.update display index color

/-- `SpriteData::render`. -/
def render (s : Bus) (sprite : Nat) : Bus :=
  let s' := s.readSprite sprite
  let display := (List.range tilePixelsPerRow).foldl (s'.renderPixel sprite) s'.gpu.buffer
  { s' with gpu := { s'.gpu with buffer := display } }

/-- The comparison that `drawSprites` passes to `std::sort`. -/
def spriteBefore (s : Bus) (a b : Nat) : Bool :=
  if s.isCGB || s.spriteX a == s.spriteX b then spriteAddress a < spriteAddress b
  else s.spriteX a < s.spriteX b

def drawSprites (s : Bus) : Bus :=
  if !s.areSpritesEnabled then s
  else
    let height := if s.control &&& 0x04 ≠ 0 then spriteHeightExtended else spriteHeightNormal
    let s' := { s with gpu := { s.gpu with spriteHeight := fun _ => height } }
    let enabled := (List.range spriteCount).filter s'.isVisible
    (enabled.insertionSort fun a b => !s'.spriteBefore b a).foldl render s'

/-! ## One line -/

def draw (s : Bus) (set : TileSetIndex) (background window : TileMapIndex) : Bus :=
  (s.drawBackground set background window).drawSprites

def updateScreen (s : Bus) : Bus :=
  if s.scanline.toNat ≥ pixelsPerCol then s
  else
    let set := if s.control &&& 0x10 ≠ 0 then TileSetIndex.tileset0 else .tileset1
    let background := if s.control &&& 0x08 ≠ 0 then TileMapIndex.tilemap1 else .tilemap0
    let window := if s.control &&& 0x40 ≠ 0 then TileMapIndex.tilemap1 else .tilemap0
    s.draw set background window

/-! ## What drawing leaves alone -/

/-- Drawing changes the pixel buffers and the sprite cache, nothing else. -/
def Drawn (s s' : Bus) : Prop :=
  ∃ buffer bg colors height, s' = { s with gpu := { s.gpu with
    buffer := buffer
    bg := bg
    spriteColors := colors
    spriteHeight := height } }

theorem Drawn.refl (s : Bus) : Drawn s s := ⟨_, _, _, _, rfl⟩

theorem Drawn.trans {s t u : Bus} (h : Drawn s t) (h' : Drawn t u) : Drawn s u := by
  obtain ⟨_, _, _, _, rfl⟩ := h
  obtain ⟨b, g, c, e, rfl⟩ := h'
  exact ⟨b, g, c, e, rfl⟩

theorem readSprite_drawn (s : Bus) (sprite : Nat) : Drawn s (s.readSprite sprite) := by
  unfold readSprite
  split
  · exact .refl s
  · exact ⟨_, _, _, _, rfl⟩

theorem render_drawn (s : Bus) (sprite : Nat) : Drawn s (s.render sprite) :=
  (s.readSprite_drawn sprite).trans ⟨_, _, _, _, rfl⟩

theorem renderAll_drawn (sprites : List Nat) (s : Bus) : Drawn s (sprites.foldl render s) := by
  induction sprites generalizing s with
  | nil => exact .refl s
  | cons sprite sprites ih => exact (s.render_drawn sprite).trans (ih _)

theorem drawBackground_drawn (s : Bus) (set : TileSetIndex) (background window : TileMapIndex) :
    Drawn s (s.drawBackground set background window) := by
  unfold drawBackground
  split_ifs
  · exact .refl s
  · exact ⟨_, _, _, _, rfl⟩

theorem drawSprites_drawn (s : Bus) : Drawn s s.drawSprites := by
  unfold drawSprites
  split
  · exact .refl s
  · exact Drawn.trans ⟨s.gpu.buffer, s.gpu.bg, s.gpu.spriteColors, _, rfl⟩ (renderAll_drawn _ _)

theorem updateScreen_drawn (s : Bus) : Drawn s s.updateScreen := by
  unfold updateScreen
  split
  · exact .refl s
  · exact (drawBackground_drawn s _ _ _).trans (drawSprites_drawn _)

end Bus

end GbEmu
