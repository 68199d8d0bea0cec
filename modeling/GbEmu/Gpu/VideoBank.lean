import GbEmu.Bus.Guard
import GbEmu.Cartridge.Bounds
import GbEmu.Gpu.Render

/-!
The bank of video memory in DMG mode. Drawing then reads bank 0 only, whatever is
in bank 1; but the CPU reads and writes the bank that FF4F names in any mode, so
the two see the same memory only while the register is even.
-/

namespace GbEmu.Bus

open Gpu

/-! ## What drawing reads -/

section Drawing

variable {s : Bus} (hdmg : s.isCGB = false) {m : Nat → Nat → UInt8}
  (hm : m 0 = s.gpu.memory 0)

include hdmg hm

theorem fillCache_withVram (set : TileSetIndex) (map : TileMapIndex)
    (xOffset yOffset row : Nat) :
    (s.withVram m).fillCache set map xOffset yOffset row =
      s.fillCache set map xOffset yOffset row := by
  have hdmg' : (s.withVram m).isCGB = false := hdmg
  have htile : (s.withVram m).getTile 0 = s.getTile 0 := by
    funext set tile j
    exact congrFun hm _
  have hmap : (s.withVram m).gpu.memory 0 = s.gpu.memory 0 := hm
  simp only [fillCache, lookup, hdmg, hdmg', Bool.false_and, Bool.false_eq_true, if_false, htile,
    hmap]
  rfl

theorem drawPixel_withVram (set : TileSetIndex) (background window : TileMapIndex) :
    (s.withVram m).drawPixel set background window = s.drawPixel set background window := by
  funext l pixel
  unfold drawPixel
  simp only [fillCache_withVram hdmg hm]
  rfl

theorem drawBackground_withVram (set : TileSetIndex) (background window : TileMapIndex) :
    (s.withVram m).drawBackground set background window =
      (s.drawBackground set background window).withVram m := by
  have hon : (s.withVram m).isBackgroundEnabled = s.isBackgroundEnabled := rfl
  unfold drawBackground
  rw [hon, drawPixel_withVram hdmg hm]
  cases s.isBackgroundEnabled <;> rfl

theorem readSprite_withVram (sprite : Nat) :
    (s.withVram m).readSprite sprite = (s.readSprite sprite).withVram m := by
  have hdmg' : (s.withVram m).isCGB = false := hdmg
  have hrow : (s.withVram m).spriteRow sprite = s.spriteRow sprite := rfl
  have htile : (s.withVram m).getTile 0 = s.getTile 0 := by
    funext set tile j
    exact congrFun hm _
  unfold readSprite
  rw [hrow]
  cases s.spriteRow sprite with
  | none => rfl
  | some row =>
    simp only [hdmg, hdmg', Bool.false_and, Bool.false_eq_true, if_false, htile]
    rfl

theorem render_withVram (sprite : Nat) :
    (s.withVram m).render sprite = (s.render sprite).withVram m := by
  unfold render
  rw [readSprite_withVram hdmg hm]
  have hpass : ((s.readSprite sprite).withVram m).renderPixel sprite =
      (s.readSprite sprite).renderPixel sprite := rfl
  have hbuffer : ((s.readSprite sprite).withVram m).gpu.buffer =
      (s.readSprite sprite).gpu.buffer := rfl
  simp only [hpass, hbuffer]
  generalize (List.range tilePixelsPerRow).foldl _ _ = display
  rfl

theorem renderAll_withVram (sprites : List Nat) :
    sprites.foldl render (s.withVram m) = (sprites.foldl render s).withVram m := by
  induction sprites generalizing s with
  | nil => rfl
  | cons sprite sprites ih =>
    obtain ⟨buffer, bg, colors, height, hrender⟩ := s.render_drawn sprite
    rw [List.foldl_cons, List.foldl_cons, render_withVram hdmg hm]
    refine ih ?_ ?_
    · rw [hrender]
      exact hdmg
    · rw [hrender]
      exact hm

theorem drawSprites_withVram : (s.withVram m).drawSprites = s.drawSprites.withVram m := by
  have hon : (s.withVram m).areSpritesEnabled = s.areSpritesEnabled := rfl
  unfold drawSprites
  rw [hon]
  cases s.areSpritesEnabled with
  | false => rfl
  | true =>
    let t : Bus := { s with gpu := { s.gpu with
      spriteHeight := fun _ =>
        if s.control &&& 0x04 ≠ 0 then spriteHeightExtended else spriteHeightNormal } }
    exact renderAll_withVram (s := t) hdmg hm (((List.range spriteCount).filter
      t.isVisible).insertionSort fun a b => !t.spriteBefore b a)

theorem draw_withVram (set : TileSetIndex) (background window : TileMapIndex) :
    (s.withVram m).draw set background window = (s.draw set background window).withVram m := by
  obtain ⟨buffer, bg, colors, height, hdrawn⟩ := s.drawBackground_drawn set background window
  unfold draw
  rw [drawBackground_withVram hdmg hm, drawSprites_withVram]
  · rw [hdrawn]
    exact hdmg
  · rw [hdrawn]
    exact hm

/-- In DMG mode drawing reads bank 0 only, and leaves the other as it is. -/
theorem updateScreen_withVram : (s.withVram m).updateScreen = s.updateScreen.withVram m := by
  have hline : (s.withVram m).scanline = s.scanline := rfl
  unfold updateScreen
  rw [hline]
  by_cases hvisible : s.scanline.toNat ≥ pixelsPerCol
  · rw [if_pos hvisible, if_pos hvisible]
  · rw [if_neg hvisible, if_neg hvisible]
    exact draw_withVram hdmg hm _ _ _

end Drawing

/-! ## What the CPU reads -/

/-- What `peek` reads in video memory is the byte of bank 0. -/
def VramShared (s : Bus) : Prop :=
  ∀ address : UInt16, 0x8000 ≤ address.toNat → address.toNat < 0xA000 →
    s.peek address = .ok (s.gpu.memory 0 (address.toNat - gpuRamOffset))

theorem peek_gpu (s : Bus) {address : UInt16} (h : 0x8000 ≤ address.toNat)
    (h' : address.toNat < 0xA000) :
    s.peek address = .ok (s.gpu.memory s.vramBank (address.toNat - gpuRamOffset)) := by
  unfold peek
  rw [(s.find_gpu_iff address).mpr ⟨h, h'⟩]
  rfl

theorem vramBank_cases (s : Bus) : s.vramBank = 0 ∨ s.vramBank = 1 := by
  have hand : ∀ b : UInt8, (b &&& 0x01).toNat ≤ 1 := fun b => by
    rw [UInt8.toNat_and]
    exact Nat.and_le_right
  have h := hand (s.io gpuBankSelectAddress)
  unfold vramBank
  omega

theorem vramBank_writeGpu (s : Bus) (address : UInt16) (value : UInt8) :
    (s.writeGpu address value).vramBank = s.vramBank := rfl

theorem vramShared_state_iff (s : Bus) :
    s.VramShared ↔
      s.vramBank = 0 ∨ ∀ index < gpuRamSize, s.gpu.memory 1 index = s.gpu.memory 0 index := by
  constructor
  · intro hshared
    rcases s.vramBank_cases with hzero | hone
    · exact .inl hzero
    · refine .inr fun index hindex => ?_
      have hlt : 0x8000 + index < 2 ^ 16 := by
        simp only [gpuRamSize] at hindex
        omega
      have haddress : (UInt16.ofNat (0x8000 + index)).toNat = 0x8000 + index :=
        UInt16.toNat_ofNat_of_lt' hlt
      have hlow : 0x8000 ≤ (UInt16.ofNat (0x8000 + index)).toNat := by omega
      have hhigh : (UInt16.ofNat (0x8000 + index)).toNat < 0xA000 := by
        simp only [gpuRamSize] at hindex
        omega
      have hbyte := hshared (UInt16.ofNat (0x8000 + index)) hlow hhigh
      rw [s.peek_gpu hlow hhigh, hone, haddress, Except.ok.injEq] at hbyte
      simpa using hbyte
  · intro hbank address h h'
    rw [s.peek_gpu h h']
    rcases hbank with hzero | hsame
    · rw [hzero]
    · rcases s.vramBank_cases with hbank | hbank
      · rw [hbank]
      · rw [hbank, hsame]
        simp only [gpuRamSize, gpuRamOffset]
        omega

/-- Stores to the bank register are of even values. -/
def bankZeroGuard (_ : Bus) (address : UInt16) (value : UInt8) : Bool :=
  address != gpuBankSelectAddress || value &&& 0x01 == 0

theorem vramBank_run {s₀ s : Bus} (h : Relation.ReflTransGen (GuardedStep bankZeroGuard) s₀ s)
    (hs : s₀.vramBank = 0) : s.vramBank = 0 := by
  induction h with
  | refl => exact hs
  | tail _ hstep ih =>
    obtain ⟨depth, address, value, hw⟩ := hstep
    refine guardedUpdates_register (P := fun v => (v &&& 0x01).toNat = 0) (by decide) ?_
      (guardedWrite_updates hw) ih
    intro t v ha _
    have heven : v &&& 0x01 = 0 := by simpa [bankZeroGuard] using ha
    rw [heven]
    rfl

/-- **Video memory in DMG mode.** Drawing reads bank 0. A run that stores only even
values to FF4F keeps the CPU on that bank; in any state the CPU sees what drawing
reads exactly if FF4F is even or the two banks hold the same. -/
theorem vram_shared_iff {s : Bus} (hdmg : s.isCGB = false) :
    (∀ m : Nat → Nat → UInt8, m 0 = s.gpu.memory 0 →
      (s.withVram m).updateScreen = s.updateScreen.withVram m) ∧
      (∀ s₀ : Bus, s₀.vramBank = 0 →
        Relation.ReflTransGen (GuardedStep bankZeroGuard) s₀ s → s.VramShared) ∧
      (s.VramShared ↔ s.io gpuBankSelectAddress &&& 0x01 = 0 ∨
        ∀ index < gpuRamSize, s.gpu.memory 1 index = s.gpu.memory 0 index) := by
  have heven : s.io gpuBankSelectAddress &&& 0x01 = 0 ↔ s.vramBank = 0 := by
    rw [vramBank, ← UInt8.toNat_inj]
    rfl
  refine ⟨fun m hm => updateScreen_withVram hdmg hm, fun s₀ hs₀ hrun => ?_, ?_⟩
  · exact (vramShared_state_iff s).mpr (.inl (vramBank_run hrun hs₀))
  · rw [heven]
    exact vramShared_state_iff s

/-- A DMG console on which the program stores 2 to FF4F and then 0x42 to 0x8000. -/
theorem vram_shared_iff_store : ∃ (c : Cartridge) (s : Bus), c.cgb = false ∧
    Relation.ReflTransGen (GuardedStep bankZeroGuard)
      (powerOn false ⟨[], by decide⟩ (some c) none) s ∧
    s.io gpuBankSelectAddress = 2 ∧ s.gpu.memory 0 0 = 0x42 ∧ s.peek 0x8000 = .ok 0x42 ∧
    s.VramShared := by
  obtain ⟨c, -, -, hc⟩ := Cartridge.load_headerImage_mode 0
  let s₀ := powerOn false ⟨[], by decide⟩ (some c) none
  let selected := s₀.setIo gpuBankSelectAddress 2
  let stored := selected.writeGpu 0x8000 0x42
  have hbank : s₀.vramBank = 0 := show ((0 : UInt8) &&& 0x01).toNat = 0 by decide
  have hselect : guardedWrite bankZeroGuard 1 s₀ gpuBankSelectAddress 2 = .ok selected := rfl
  have hfind : selected.find 0x8000 = some .gpu := (selected.find_gpu_iff 0x8000).mpr (by decide)
  have hstore : guardedWrite bankZeroGuard 1 selected 0x8000 0x42 = .ok stored := by
    have hguard : bankZeroGuard selected 0x8000 0x42 = true := rfl
    rw [guardedWrite, if_pos hguard, route, hfind]
    rfl
  have hselected : selected.vramBank = 0 := by simp [selected, vramBank, setIo]
  have hcell : stored.gpu.memory 0 0 = 0x42 := by simp [stored, writeGpu, hselected]
  have hread : stored.peek 0x8000 = .ok 0x42 := by
    rw [peek_gpu _ (by decide) (by decide), vramBank_writeGpu, hselected]
    exact congrArg Except.ok hcell
  have hrun : Relation.ReflTransGen (GuardedStep bankZeroGuard) s₀ stored :=
    .tail (.single ⟨1, _, _, hselect⟩) ⟨1, _, _, hstore⟩
  have hregister : selected.io gpuBankSelectAddress = 2 := setIo_io_self ..
  exact ⟨c, stored, hc, hrun, hregister, hcell, hread,
    (vram_shared_iff (s := stored) hc).2.1 s₀ hbank hrun⟩

/-- A store of 1 to FF4F and of 0x42 to 0x8000: the CPU reads the byte back, and
bank 0 still is empty. -/
theorem vram_not_shared :
    ¬ ∀ (host : Host) (bytes : List UInt8) (c : Cartridge),
      Cartridge.load host (some bytes) = .ok c → c.valid = true → c.cgb = false →
        ∀ (bios : Bios) (s : Bus),
          Relation.ReflTransGen (fun s s' => ∃ depth a v, write depth s a v = .ok s')
            (powerOn false bios (some c) none) s → s.VramShared := by
  intro hall
  obtain ⟨c, hload, hv, hc⟩ := Cartridge.load_headerImage_mode 0
  let s := powerOn false ⟨[], by decide⟩ (some c) none
  let selected := s.setIo gpuBankSelectAddress 1
  have hselect : write 1 s gpuBankSelectAddress 1 = .ok selected := by
    rw [write_io s 0 ((s.find_io_iff _).mpr (by decide)), writeIo_plain (by decide)]
  have hstore := selected.write_gpu 0 ((selected.find_gpu_iff 0x8000).mpr (by decide)) 0x42
  have hshared := hall _ _ c hload hv hc ⟨[], by decide⟩ _
    (.tail (.single ⟨1, _, _, hselect⟩) ⟨1, _, _, hstore⟩)
  have hbyte := hshared 0x8000 (by decide) (by decide)
  rw [peek_gpu _ (by decide) (by decide)] at hbyte
  have hbank : selected.vramBank = 1 := by simp [selected, vramBank, setIo]
  have hempty : s.gpu.memory 0 0 = 0 := rfl
  have hsame : selected.gpu = s.gpu := rfl
  rw [vramBank_writeGpu, hbank] at hbyte
  simp [writeGpu, hbank, hsame, hempty] at hbyte

end GbEmu.Bus
