import GbEmu.Gpu.Render
import GbEmu.Interrupt

/-!
`GPU::reset` and `GPU::cycle`: the render state machine. A call returns, besides
the new state, what it did in the order it did it, so that runs can be compared
by what they show.
-/

namespace GbEmu

namespace Gpu

@[simp] abbrev oamTicks : Nat := 80
@[simp] abbrev vramTicks : Nat := 172
@[simp] abbrev hblankTicks : Nat := 204
@[simp] abbrev vblankTicks : Nat := 4560
@[simp] abbrev scanlineMax : Nat := 155
def scanlineTicks : Nat := vblankTicks / (scanlineMax - pixelsPerCol)

theorem scanlineTicks_eq : scanlineTicks = 414 := rfl

inductive Event
  /-- The display is on and `m_ticks` grows. -/
  | ticks (n : Nat)
  /-- `updateScreen` runs with this `m_scanline`. -/
  | updateScreen (line : Nat)
  | interrupt (source : Interrupt)
  /-- `m_buffer` moves to `m_screen`. -/
  | publish
  /-- The period of `old` is over and `next` returns `new`. -/
  | next (old new : RenderState)
  deriving DecidableEq, Repr

end Gpu

open Gpu

namespace Bus

def renderMode (s : Bus) : UInt8 := s.status &&& 0x03

def isHBlankInterruptEnabled (s : Bus) : Bool := s.status &&& 0x08 != 0
def isVBlankInterruptEnabled (s : Bus) : Bool := s.status &&& 0x10 != 0
def isOAMInterruptEnabled (s : Bus) : Bool := s.status &&& 0x20 != 0

def setScanline (s : Bus) (line : UInt8) : Bus := s.setIo gpuScanlineAddress line

def updateRenderStateStatus (s : Bus) (state : RenderState) : Bus :=
  s.setIo gpuStatusAddress ((s.status &&& 0xFC) ||| state.toByte)

def setTicks (s : Bus) (ticks : Nat) : Bus := { s with gpu := { s.gpu with ticks := ticks } }

def setVscan (s : Bus) (vscan : Nat) : Bus := { s with gpu := { s.gpu with vscan := vscan } }

/-- `GPU::reset`. -/
def resetGpu (s : Bus) : Bus :=
  let s := { s with gpu := { s.gpu with memory := fun _ _ => 0 } }
  let s := (s.setIo gpuControlAddress 0x91).setIo gpuStatusAddress 0x85
  let s := s.updateRenderStateStatus .oam
  let s := { s with gpu := { s.gpu with state := .oam, ticks := 0, vscan := 0 } }
  ((s.setIo gpuScrollXAddress 0).setIo gpuScrollYAddress 0).setScanline 0

/-- Request the LCD interrupt if it is enabled. -/
def requestLcd (s : Bus) (enabled : Bool) : Bus × List Event :=
  if enabled then (s.request .lcd, [.interrupt .lcd]) else (s, [])

/-- The part of `handleHBlank` for the first call in the state. -/
def startHBlank (s : Bus) : Bus × List Event :=
  if s.renderMode ≠ RenderState.hblank.toByte then
    -- Coming out of a vblank, the lines start over.
    let s := if s.renderMode = RenderState.vblank.toByte then s.setScanline 0 else s
    let (s, es) := s.requestLcd s.isHBlankInterruptEnabled
    (s.updateRenderStateStatus .hblank, es)
  else (s, [])

def handleHBlank (s : Bus) : Bus × List Event :=
  let (s, es) := s.startHBlank
  if s.gpu.ticks < hblankTicks then (s, es)
  else
    let line := s.scanline
    let s := s.updateScreen
    (s.setScanline (s.scanline + 1), es ++ [.updateScreen line.toNat])

def publish (s : Bus) : Bus :=
  { s with gpu := { s.gpu with screen := s.gpu.buffer, buffer := fun _ => noColor } }

/-- The part of `handleVBlank` for the first call in the state. -/
def startVBlank (s : Bus) : Bus × List Event :=
  if s.renderMode ≠ RenderState.vblank.toByte then
    let (s, es) := s.requestLcd s.isVBlankInterruptEnabled
    let s := (s.request .vblank).updateRenderStateStatus .vblank
    (s.publish, es ++ [.interrupt .vblank, .publish])
  else (s, [])

def handleVBlank (s : Bus) (ticks : UInt8) : Bus × List Event :=
  let (s, es) := s.startVBlank
  let vscan := s.gpu.vscan + ticks.toNat
  if scanlineTicks ≤ vscan then
    let line := UInt8.ofNat (min (s.scanline.toNat + 1) scanlineMax)
    ((s.setVscan (vscan - scanlineTicks)).setScanline line, es)
  else (s.setVscan vscan, es)

def handleOAM (s : Bus) : Bus × List Event :=
  if s.renderMode ≠ RenderState.oam.toByte then
    let (s, es) := s.requestLcd s.isOAMInterruptEnabled
    (s.updateRenderStateStatus .oam, es)
  else (s, [])

def handleVRAM (s : Bus) : Bus × List Event :=
  if s.renderMode ≠ RenderState.vram.toByte then (s.updateRenderStateStatus .vram, [])
  else (s, [])

/-- Take a period off `m_ticks`, if it is over, and leave for `new`. -/
def leave (s : Bus) (period : Nat) (new : RenderState) : Bus × List Event :=
  if s.gpu.ticks < period then (s, [])
  else
    let s := s.setTicks (s.gpu.ticks - period)
    ({ s with gpu := { s.gpu with state := new } }, [.next s.gpu.state new])

/-- `m_state = next()`. -/
def next (s : Bus) : Bus × List Event :=
  match s.gpu.state with
  | .hblank => s.leave hblankTicks (if s.scanline.toNat = pixelsPerCol then .vblank else .oam)
  | .vblank => s.leave vblankTicks (if s.scanline.toNat = scanlineMax then .hblank else .vblank)
  | .oam => s.leave oamTicks .vram
  | .vram => s.leave vramTicks .hblank

/-- The `switch` of `cycle`. -/
def handle (s : Bus) (ticks : UInt8) : Bus × List Event :=
  match s.gpu.state with
  | .hblank => s.handleHBlank
  | .vblank => s.handleVBlank ticks
  | .oam => s.handleOAM
  | .vram => s.handleVRAM

def cycle (s : Bus) (ticks : UInt8) : Bus × List Event :=
  if !s.isDisplayEnabled then (s, [])
  else
    let s := s.setTicks (s.gpu.ticks + ticks.toNat)
    let (s, handled) := s.handle ticks
    let (s, left) := s.next
    (s, .ticks ticks.toNat :: (handled ++ left))

/-! ## What a cycle leaves alone -/

/-- `s'` has the registers of `s`, except STAT, LY and the interrupt flags. -/
def SameRegisters (s s' : Bus) : Prop :=
  ∀ r, r ≠ gpuStatusAddress → r ≠ gpuScanlineAddress → r ≠ interruptFlagsAddress → s'.io r = s.io r

namespace SameRegisters

theorem of_eq {s s' : Bus} (h : s'.io = s.io) : SameRegisters s s' := fun r _ _ _ => congrFun h r

theorem trans {s t u : Bus} (h : SameRegisters s t) (h' : SameRegisters t u) : SameRegisters s u :=
  fun r h1 h2 h3 => (h' r h1 h2 h3).trans (h r h1 h2 h3)

theorem setIo (s : Bus) {address : UInt16} (value : UInt8) (h : address = gpuStatusAddress ∨
    address = gpuScanlineAddress ∨ address = interruptFlagsAddress) :
    SameRegisters s (s.setIo address value) := by
  intro r h1 h2 h3
  refine Function.update_of_ne ?_ _ _
  rcases h with rfl | rfl | rfl
  · exact h1
  · exact h2
  · exact h3

end SameRegisters

theorem setScanline_same (s : Bus) (line : UInt8) : SameRegisters s (s.setScanline line) :=
  .setIo s _ (.inr (.inl rfl))

theorem request_same (s : Bus) (i : Interrupt) : SameRegisters s (s.request i) :=
  .setIo s _ (.inr (.inr rfl))

theorem updateRenderStateStatus_same (s : Bus) (state : RenderState) :
    SameRegisters s (s.updateRenderStateStatus state) :=
  .setIo s _ (.inl rfl)

theorem publish_same (s : Bus) : SameRegisters s s.publish := .of_eq rfl

theorem setVscan_same (s : Bus) (n : Nat) : SameRegisters s (s.setVscan n) := .of_eq rfl

theorem requestLcd_same (s : Bus) (enabled : Bool) : SameRegisters s (s.requestLcd enabled).1 := by
  cases enabled with
  | false => exact .of_eq rfl
  | true => exact s.request_same .lcd

theorem startHBlank_same (s : Bus) : SameRegisters s s.startHBlank.1 := by
  unfold startHBlank
  by_cases hm : s.renderMode = RenderState.hblank.toByte
  · rw [if_neg (not_not.mpr hm)]
    exact .of_eq rfl
  · rw [if_pos hm]
    by_cases hv : s.renderMode = RenderState.vblank.toByte
    · simp only [if_pos hv]
      exact (s.setScanline_same 0).trans
        ((requestLcd_same _ _).trans (updateRenderStateStatus_same _ _))
    · simp only [if_neg hv]
      exact (requestLcd_same _ _).trans (updateRenderStateStatus_same _ _)

theorem handleHBlank_same (s : Bus) : SameRegisters s s.handleHBlank.1 := by
  obtain ⟨_, _, _, _, hdraw⟩ := s.startHBlank.1.updateScreen_drawn
  simp only [handleHBlank]
  split_ifs
  · exact s.startHBlank_same
  · refine s.startHBlank_same.trans (.trans (.of_eq ?_) (setScanline_same _ _))
    rw [hdraw]

theorem startVBlank_same (s : Bus) : SameRegisters s s.startVBlank.1 := by
  unfold startVBlank
  by_cases hm : s.renderMode = RenderState.vblank.toByte
  · rw [if_neg (not_not.mpr hm)]
    exact .of_eq rfl
  · rw [if_pos hm]
    exact (requestLcd_same _ _).trans ((request_same _ _).trans
      ((updateRenderStateStatus_same _ _).trans (publish_same _)))

theorem handle_same (s : Bus) (ticks : UInt8) : SameRegisters s (s.handle ticks).1 := by
  unfold handle
  cases s.gpu.state with
  | hblank => exact s.handleHBlank_same
  | vblank =>
    simp only [handleVBlank]
    split_ifs
    · exact s.startVBlank_same.trans ((setVscan_same _ _).trans (setScanline_same _ _))
    · exact s.startVBlank_same.trans (setVscan_same _ _)
  | oam =>
    unfold handleOAM
    split_ifs
    · exact (requestLcd_same _ _).trans (updateRenderStateStatus_same _ _)
    · exact .of_eq rfl
  | vram =>
    unfold handleVRAM
    split_ifs
    · exact updateRenderStateStatus_same _ _
    · exact .of_eq rfl

theorem next_io (s : Bus) : s.next.1.io = s.io := by
  have hleave : ∀ (period : Nat) (new : RenderState), (s.leave period new).1.io = s.io := by
    intro period new
    unfold leave
    split_ifs <;> rfl
  unfold next
  cases s.gpu.state <;> exact hleave _ _

theorem cycle_same (s : Bus) (ticks : UInt8) : SameRegisters s (s.cycle ticks).1 := by
  have hticks : ∀ n, SameRegisters s (s.setTicks n) := fun n => .of_eq rfl
  simp only [cycle]
  split_ifs
  · exact .of_eq rfl
  · exact (hticks _).trans ((handle_same _ ticks).trans (.of_eq (next_io _)))

theorem resetGpu_isDisplayEnabled (s : Bus) : s.resetGpu.isDisplayEnabled = true := by
  simp [isDisplayEnabled, control, resetGpu, setScanline, updateRenderStateStatus, setIo]
  decide

/-- A cycle does not switch the display on or off. -/
theorem cycle_isDisplayEnabled (s : Bus) (ticks : UInt8) :
    (s.cycle ticks).1.isDisplayEnabled = s.isDisplayEnabled := by
  unfold isDisplayEnabled control
  rw [s.cycle_same ticks _ (by decide) (by decide) (by decide)]

end Bus

end GbEmu
