import GbEmu.Bus.Update
import GbEmu.Gpu.Cycle
import GbEmu.Lib.Trace

/-!
The timing of the render state machine, without memory and drawing: the state,
the mode field of STAT, the two tick counters and the line. A bus write that
keeps LY keeps all of it, and a cycle does to it what `Timing.cycle` does.
-/

namespace GbEmu

open Gpu

structure Timing where
  state : RenderState
  /-- The mode field of STAT, which lags behind `state` by one call. -/
  mode : UInt8
  ticks : Nat
  vscan : Nat
  line : Nat
  deriving DecidableEq

namespace Timing

/-- The requests that depend on STAT's enable bits are not shown. -/
def visible : Event → Bool
  | .interrupt .lcd => false
  | _ => true

def enterMode (x : Timing) (state : RenderState) : Timing := { x with mode := state.toByte }

/-- Take a period off the ticks, if it is over, and leave for `new`. -/
def leave (x : Timing) (period : Nat) (new : RenderState) : Timing × List Event :=
  if x.ticks < period then (x, [])
  else ({ x with ticks := x.ticks - period, state := new }, [.next x.state new])

def handleHBlank (x : Timing) : Timing × List Event :=
  let x :=
    { x with
      mode := RenderState.hblank.toByte
      line := if x.mode = RenderState.vblank.toByte then 0 else x.line }
  if x.ticks < hblankTicks then (x, [])
  else ({ x with line := (x.line + 1) % 256 }, [.updateScreen x.line])

def handleVBlank (x : Timing) (n : Nat) : Timing × List Event :=
  let shown :=
    if x.mode = RenderState.vblank.toByte then [] else [.interrupt .vblank, .publish]
  let x := { x with mode := RenderState.vblank.toByte, vscan := x.vscan + n }
  if scanlineTicks ≤ x.vscan then
    ({ x with vscan := x.vscan - scanlineTicks, line := min (x.line + 1) scanlineMax }, shown)
  else (x, shown)

def next (x : Timing) : Timing × List Event :=
  match x.state with
  | .hblank => x.leave hblankTicks (if x.line = pixelsPerCol then .vblank else .oam)
  | .vblank => x.leave vblankTicks (if x.line = scanlineMax then .hblank else .vblank)
  | .oam => x.leave oamTicks .vram
  | .vram => x.leave vramTicks .hblank

def handle (x : Timing) (n : Nat) : Timing × List Event :=
  match x.state with
  | .hblank => x.handleHBlank
  | .vblank => x.handleVBlank n
  | .oam => (x.enterMode .oam, [])
  | .vram => (x.enterMode .vram, [])

def cycle (x : Timing) (n : Nat) : Timing × List Event :=
  let (y, handled) := { x with ticks := x.ticks + n }.handle n
  let (z, left) := y.next
  (z, .ticks n :: (handled ++ left))

end Timing

namespace Bus

def timing (s : Bus) : Timing where
  state := s.gpu.state
  mode := s.renderMode
  ticks := s.gpu.ticks
  vscan := s.gpu.vscan
  line := s.scanline.toNat

/-! ## The fields of the timing -/

theorem timing_setIo (s : Bus) {address : UInt16} (value : UInt8)
    (hs : address ≠ gpuStatusAddress) (hl : address ≠ gpuScanlineAddress) :
    (s.setIo address value).timing = s.timing := by
  have h : ∀ r, r ≠ address → (s.setIo address value).io r = s.io r :=
    fun r hr => Function.update_of_ne hr _ _
  simp only [timing, renderMode, status, scanline, h _ hs.symm, h _ hl.symm]
  rfl

@[simp] theorem timing_request (s : Bus) (i : Interrupt) : (s.request i).timing = s.timing :=
  s.timing_setIo _ (by decide) (by decide)

@[simp] theorem timing_publish (s : Bus) : s.publish.timing = s.timing := rfl

@[simp] theorem timing_setTicks (s : Bus) (n : Nat) :
    (s.setTicks n).timing = { s.timing with ticks := n } := rfl

@[simp] theorem timing_setVscan (s : Bus) (n : Nat) :
    (s.setVscan n).timing = { s.timing with vscan := n } := rfl

@[simp] theorem timing_setScanline (s : Bus) (line : UInt8) :
    (s.setScanline line).timing = { s.timing with line := line.toNat } := by
  simp [timing, setScanline, setIo, renderMode, status, scanline]

/-- The two lower bits of STAT are the mode. -/
@[simp] theorem timing_updateRenderStateStatus (s : Bus) (state : RenderState) :
    (s.updateRenderStateStatus state).timing = s.timing.enterMode state := by
  have hmode : ((s.status &&& 0xFC) ||| state.toByte) &&& 0x03 = state.toByte := by
    rw [BitField.or_and_right, UInt8.and_assoc, show (0xFC : UInt8) &&& 0x03 = 0 from rfl,
      UInt8.and_zero, UInt8.zero_or]
    cases state <;> rfl
  simp only [timing, Timing.enterMode, renderMode, updateRenderStateStatus, setIo, status,
    scanline] at hmode ⊢
  simp only [Function.update_self, hmode]
  simp

@[simp] theorem timing_updateScreen (s : Bus) : s.updateScreen.timing = s.timing := by
  obtain ⟨_, _, _, _, h⟩ := s.updateScreen_drawn
  rw [h]
  rfl

@[simp] theorem timing_resetGpu (s : Bus) :
    s.resetGpu.timing = ⟨.oam, RenderState.oam.toByte, 0, 0, 0⟩ := by
  simp [timing, resetGpu, setScanline, setIo, renderMode, status, scanline,
    updateRenderStateStatus]
  decide

/-! ## A cycle and its timing -/

theorem requestLcd_timing (s : Bus) (enabled : Bool) :
    (s.requestLcd enabled).1.timing = s.timing ∧
      (s.requestLcd enabled).2.filter Timing.visible = [] := by
  cases enabled with
  | false => exact ⟨rfl, rfl⟩
  | true => exact ⟨s.timing_request _, rfl⟩

theorem startHBlank_timing (s : Bus) :
    s.startHBlank.1.timing =
        { s.timing with
          mode := RenderState.hblank.toByte
          line := if s.renderMode = RenderState.vblank.toByte then 0 else s.timing.line } ∧
      s.startHBlank.2.filter Timing.visible = [] := by
  unfold startHBlank
  by_cases hm : s.renderMode = RenderState.hblank.toByte
  · rw [if_neg (not_not.mpr hm), if_neg (by rw [hm]; decide)]
    exact ⟨by simp only [← hm]; rfl, rfl⟩
  · rw [if_pos hm]
    by_cases hv : s.renderMode = RenderState.vblank.toByte
    · simp only [hv, if_true]
      obtain ⟨ht, he⟩ := (s.setScanline 0).requestLcd_timing
        (s.setScanline 0).isHBlankInterruptEnabled
      exact ⟨by simp [ht, Timing.enterMode], he⟩
    · simp only [hv, if_false]
      obtain ⟨ht, he⟩ := s.requestLcd_timing s.isHBlankInterruptEnabled
      exact ⟨by simp [ht, Timing.enterMode], he⟩

theorem handleHBlank_timing (s : Bus) :
    s.handleHBlank.1.timing = s.timing.handleHBlank.1 ∧
      s.handleHBlank.2.filter Timing.visible = s.timing.handleHBlank.2 := by
  obtain ⟨ht, he⟩ := s.startHBlank_timing
  have hticks : s.startHBlank.1.gpu.ticks = s.gpu.ticks := congrArg Timing.ticks ht
  have hline : s.startHBlank.1.scanline.toNat = _ := congrArg Timing.line ht
  simp only [handleHBlank, Timing.handleHBlank, hticks]
  by_cases hlt : s.gpu.ticks < hblankTicks
  · rw [if_pos hlt, if_pos (show s.timing.ticks < hblankTicks from hlt)]
    exact ⟨ht, he⟩
  · rw [if_neg hlt, if_neg (show ¬ s.timing.ticks < hblankTicks from hlt)]
    have hdrawn : s.startHBlank.1.updateScreen.scanline = s.startHBlank.1.scanline := by
      obtain ⟨_, _, _, _, h⟩ := s.startHBlank.1.updateScreen_drawn
      rw [h]
      rfl
    constructor
    · simp only [timing_setScanline, timing_updateScreen, hdrawn, UInt8.toNat_add, hline, ht]
      rfl
    · simp only [List.filter_append, he, hline]
      rfl

theorem startVBlank_timing (s : Bus) :
    s.startVBlank.1.timing = s.timing.enterMode .vblank ∧
      s.startVBlank.2.filter Timing.visible =
        if s.renderMode = RenderState.vblank.toByte then []
        else [.interrupt .vblank, .publish] := by
  unfold startVBlank
  by_cases hm : s.renderMode = RenderState.vblank.toByte
  · rw [if_neg (not_not.mpr hm), if_pos hm]
    exact ⟨by simp only [Timing.enterMode, ← hm]; rfl, rfl⟩
  · rw [if_pos hm, if_neg hm]
    obtain ⟨ht, he⟩ := s.requestLcd_timing s.isVBlankInterruptEnabled
    refine ⟨by simp [ht], ?_⟩
    simp only [List.filter_append, he]
    rfl

theorem handleVBlank_timing (s : Bus) (ticks : UInt8) :
    (s.handleVBlank ticks).1.timing = (s.timing.handleVBlank ticks.toNat).1 ∧
      (s.handleVBlank ticks).2.filter Timing.visible = (s.timing.handleVBlank ticks.toNat).2 := by
  obtain ⟨ht, he⟩ := s.startVBlank_timing
  have hvscan : s.startVBlank.1.gpu.vscan = s.gpu.vscan := congrArg Timing.vscan ht
  have hline : s.startVBlank.1.scanline.toNat = s.scanline.toNat := congrArg Timing.line ht
  simp only [handleVBlank, Timing.handleVBlank, hvscan, hline]
  by_cases hle : scanlineTicks ≤ s.gpu.vscan + ticks.toNat
  · rw [if_pos hle, if_pos (show scanlineTicks ≤ s.timing.vscan + ticks.toNat from hle)]
    refine ⟨?_, he⟩
    have hmin : (UInt8.ofNat (min (s.scanline.toNat + 1) scanlineMax)).toNat =
        min (s.scanline.toNat + 1) scanlineMax := by
      simp
    simp only [timing_setScanline, timing_setVscan, ht, hmin]
    rfl
  · rw [if_neg hle, if_neg (show ¬ scanlineTicks ≤ s.timing.vscan + ticks.toNat from hle)]
    refine ⟨?_, he⟩
    simp only [timing_setVscan, ht]
    rfl

theorem leave_timing (s : Bus) (period : Nat) (new : RenderState) :
    (s.leave period new).1.timing = (s.timing.leave period new).1 ∧
      (s.leave period new).2.filter Timing.visible = (s.timing.leave period new).2 := by
  unfold leave Timing.leave
  by_cases h : s.gpu.ticks < period
  · rw [if_pos h, if_pos (show s.timing.ticks < period from h)]
    exact ⟨rfl, rfl⟩
  · rw [if_neg h, if_neg (show ¬ s.timing.ticks < period from h)]
    exact ⟨rfl, rfl⟩

theorem next_timing (s : Bus) :
    s.next.1.timing = s.timing.next.1 ∧ s.next.2.filter Timing.visible = s.timing.next.2 := by
  have hstate : s.timing.state = s.gpu.state := rfl
  unfold next Timing.next
  rw [hstate]
  cases s.gpu.state <;> exact s.leave_timing _ _

theorem handleOAM_timing (s : Bus) :
    s.handleOAM.1.timing = s.timing.enterMode .oam ∧
      s.handleOAM.2.filter Timing.visible = [] := by
  unfold handleOAM
  by_cases hm : s.renderMode = RenderState.oam.toByte
  · rw [if_neg (not_not.mpr hm)]
    exact ⟨by simp only [Timing.enterMode, ← hm]; rfl, rfl⟩
  · rw [if_pos hm]
    obtain ⟨ht, he⟩ := s.requestLcd_timing s.isOAMInterruptEnabled
    exact ⟨by simp [ht], he⟩

theorem handleVRAM_timing (s : Bus) :
    s.handleVRAM.1.timing = s.timing.enterMode .vram ∧
      s.handleVRAM.2.filter Timing.visible = [] := by
  unfold handleVRAM
  by_cases hm : s.renderMode = RenderState.vram.toByte
  · rw [if_neg (not_not.mpr hm)]
    exact ⟨by simp only [Timing.enterMode, ← hm]; rfl, rfl⟩
  · rw [if_pos hm]
    exact ⟨by simp, rfl⟩

theorem handle_timing (s : Bus) (ticks : UInt8) :
    (s.handle ticks).1.timing = (s.timing.handle ticks.toNat).1 ∧
      (s.handle ticks).2.filter Timing.visible = (s.timing.handle ticks.toNat).2 := by
  have hstate : s.timing.state = s.gpu.state := rfl
  unfold handle Timing.handle
  rw [hstate]
  cases s.gpu.state with
  | hblank => exact s.handleHBlank_timing
  | vblank => exact s.handleVBlank_timing ticks
  | oam => exact s.handleOAM_timing
  | vram => exact s.handleVRAM_timing

/-- **A cycle does to the timing what `Timing.cycle` does**, and shows the same events. -/
theorem cycle_timing (s : Bus) (ticks : UInt8) (hon : s.isDisplayEnabled = true) :
    (s.cycle ticks).1.timing = (s.timing.cycle ticks.toNat).1 ∧
      (s.cycle ticks).2.filter Timing.visible = (s.timing.cycle ticks.toNat).2 := by
  obtain ⟨hh, eh⟩ := (s.setTicks (s.gpu.ticks + ticks.toNat)).handle_timing ticks
  obtain ⟨hn, en⟩ := ((s.setTicks (s.gpu.ticks + ticks.toNat)).handle ticks).1.next_timing
  rw [timing_setTicks] at hh eh
  have hticks : s.timing.ticks = s.gpu.ticks := rfl
  simp only [cycle, hon, Bool.not_true, Bool.false_eq_true, if_false, Timing.cycle, hticks]
  rw [hh] at hn en
  refine ⟨hn, ?_⟩
  rw [List.filter_cons_of_pos rfl, List.filter_append, eh, en]

theorem cycle_off (s : Bus) (ticks : UInt8) (hoff : s.isDisplayEnabled = false) :
    s.cycle ticks = (s, []) := by
  simp [cycle, hoff]

/-! ## Runs -/

theorem update_timing {s s' : Bus} (h : Update s s') :
    s'.timing = { s.timing with line := s'.scanline.toNat } := by
  cases h with
  | status value =>
    have hmode : BitField.insert 0x78 (s.io gpuStatusAddress) value &&& 0x03 =
        s.io gpuStatusAddress &&& 0x03 := BitField.insert_and_of_disjoint rfl _ _
    simp only [timing, renderMode, status, writeBytes, setIo, Function.update_self, hmode]
  | register address value ha =>
    have hs : (s.setIo address value).status = s.status := Function.update_of_ne ha.symm _ _
    simp only [timing, renderMode, hs]
    rfl
  | _ => rfl

theorem updates_timing {s s' : Bus} (h : Updates s s') :
    s'.timing = { s.timing with line := s'.scanline.toNat } := by
  induction h with
  | refl => rfl
  | tail _ hu ih => rw [update_timing hu, ih]

/-- A bus write that keeps LY keeps the timing. -/
theorem write_timing {depth : Nat} {s s' : Bus} {address : UInt16} {value : UInt8}
    (h : write depth s address value = .ok s') (hline : s'.scanline = s.scanline) :
    s'.timing = s.timing := by
  rw [updates_timing (write_updates h), hline]
  rfl

/-- One step of the graphics unit among the writes of the program: a cycle of at most
20 ticks of a kind that is allowed, or a bus write that does not change LY. -/
inductive Step (allowed : Bus → UInt8 → Prop) : Bus → List Event → Bus → Prop
  | cycle (s : Bus) (ticks : UInt8) (hpos : 1 ≤ ticks.toNat) (hmax : ticks.toNat ≤ 20)
      (h : allowed s ticks) : Step allowed s (s.cycle ticks).2 (s.cycle ticks).1
  | write (s s' : Bus) (depth : Nat) (address : UInt16) (value : UInt8)
      (h : write depth s address value = .ok s') (hline : s'.scanline = s.scanline) :
      Step allowed s [] s'

theorem Step.any {allowed : Bus → UInt8 → Prop} {s s' : Bus} {es : List Event}
    (h : Step allowed s es s') : Step (fun _ _ => True) s es s' := by
  cases h with
  | cycle ticks hpos hmax => exact .cycle s ticks hpos hmax trivial
  | write _ depth address value hw hline => exact .write s s' depth address value hw hline

/-- Cycles one after the other. -/
def cycles (s : Bus) (ts : List UInt8) : Bus := ts.foldl (fun s t => (s.cycle t).1) s

theorem cycles_isDisplayEnabled (s : Bus) (ts : List UInt8) :
    (s.cycles ts).isDisplayEnabled = s.isDisplayEnabled := by
  induction ts generalizing s with
  | nil => rfl
  | cons t ts ih => exact (ih _).trans (s.cycle_isDisplayEnabled t)

theorem cycles_append (s : Bus) (ts us : List UInt8) :
    s.cycles (ts ++ us) = (s.cycles ts).cycles us := List.foldl_append

/-- Cycles are a run if each of them is allowed after the ones before it. -/
theorem cycles_run {allowed : Bus → UInt8 → Prop} {s : Bus} {ts : List UInt8}
    (hts : ∀ t ∈ ts, 1 ≤ t.toNat ∧ t.toNat ≤ 20)
    (hall : ∀ before t after, ts = before ++ t :: after → allowed (s.cycles before) t) :
    ∃ log, Trace.Run (Step allowed) s log (s.cycles ts) := by
  induction ts generalizing s with
  | nil => exact ⟨[], .nil⟩
  | cons t ts ih =>
    obtain ⟨hpos, hmax⟩ := hts t (by simp)
    obtain ⟨log, hrun⟩ := ih (s := (s.cycle t).1) (fun u hu => hts u (by simp [hu]))
      fun before u after h => hall (t :: before) u after (by rw [h]; rfl)
    exact ⟨_, (Trace.Run.single (.cycle s t hpos hmax (hall [] t ts rfl))).trans hrun⟩

/-- Cycles of any kind are a run. -/
theorem cycles_run_any (s : Bus) (ts : List UInt8)
    (hts : ∀ t ∈ ts, 1 ≤ t.toNat ∧ t.toNat ≤ 20) :
    ∃ log, Trace.Run (Step fun _ _ => True) s log (s.cycles ts) :=
  cycles_run hts fun _ _ _ _ => trivial

end Bus

namespace Timing

def cycles (x : Timing) (ns : List Nat) : Timing := ns.foldl (fun x n => (x.cycle n).1) x

inductive Step (allowed : Timing → Nat → Prop) : Timing → List Event → Timing → Prop
  | cycle (x : Timing) (n : Nat) (hpos : 1 ≤ n) (hmax : n ≤ 20) (h : allowed x n) :
      Step allowed x (x.cycle n).2 (x.cycle n).1

/-- The timing that `GPU::reset` leaves. -/
def reset : Timing := ⟨.oam, RenderState.oam.toByte, 0, 0, 0⟩

end Timing

namespace Bus

theorem cycles_timing {s : Bus} (hon : s.isDisplayEnabled = true) (ts : List UInt8) :
    (s.cycles ts).timing = s.timing.cycles (ts.map UInt8.toNat) := by
  induction ts generalizing s with
  | nil => rfl
  | cons t ts ih =>
    have hcons := ih ((s.cycle_isDisplayEnabled t).trans hon)
    rw [(s.cycle_timing t hon).1] at hcons
    exact hcons

/-- **The timing of a run is a run of the timing.** -/
theorem run_timing {allowed : Bus → UInt8 → Prop} {allowed' : Timing → Nat → Prop}
    (hall : ∀ s t, s.isDisplayEnabled = true → allowed s t → allowed' s.timing t.toNat)
    {s₀ s : Bus} {log : List Event} (h : Trace.Run (Step allowed) s₀ log s) :
    Trace.Run (Timing.Step allowed') s₀.timing (log.filter Timing.visible) s.timing := by
  refine h.simulate timing Timing.visible fun t es t' hstep => ?_
  cases hstep with
  | cycle ticks hpos hmax hok =>
    by_cases hon : t.isDisplayEnabled = true
    · obtain ⟨ht, he⟩ := t.cycle_timing ticks hon
      rw [ht, he]
      exact .inl (.cycle _ _ hpos hmax (hall t ticks hon hok))
    · rw [t.cycle_off ticks (by simpa using hon)]
      exact .inr ⟨rfl, rfl⟩
  | write _ depth address value hw hline => exact .inr ⟨rfl, write_timing hw hline⟩

theorem run_timing_any {allowed : Bus → UInt8 → Prop} {s₀ s : Bus} {log : List Event}
    (h : Trace.Run (Step allowed) s₀ log s) :
    Trace.Run (Timing.Step fun _ _ => True) s₀.timing (log.filter Timing.visible) s.timing :=
  run_timing (fun _ _ _ _ => trivial) h

theorem run_timing_reset {allowed : Bus → UInt8 → Prop} {b s : Bus} {log : List Event}
    (h : Trace.Run (Step allowed) b.resetGpu log s) :
    Trace.Run (Timing.Step fun _ _ => True) Timing.reset (log.filter Timing.visible) s.timing := by
  have hrun := run_timing_any h
  rwa [timing_resetGpu] at hrun

end Bus

end GbEmu
