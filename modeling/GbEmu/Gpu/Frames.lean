import GbEmu.Gpu.Happened
import GbEmu.Gpu.Position

/-!
Frames are complete: between two entries into the vblank every line is drawn once
and in order, and each entry is followed by one interrupt and one published frame.
The proof carries along what the current frame still has to show.
-/

namespace GbEmu

open Gpu

/-- What the order of a frame is about. -/
def Gpu.Event.ofFrame : Event → Bool
  | .updateScreen _ => true
  | .interrupt .vblank => true
  | .publish => true
  | .next .hblank .vblank => true
  | _ => false

namespace Timing

def linesFrom (line : Nat) : List Event :=
  (List.range' line (pixelsPerCol - line)).map Event.updateScreen

/-- One frame, from its first line to its publication. -/
def frame : List Event :=
  linesFrom 0 ++ [.next .hblank .vblank, .interrupt .vblank, .publish]

/-- What the current frame still has to show. -/
def rest (x : Timing) : List Event :=
  match x.state with
  | .vblank => if x.InVBlankMode then [] else [.interrupt .vblank, .publish]
  | _ => linesFrom x.startLine ++ [.next .hblank .vblank, .interrupt .vblank, .publish]

theorem linesFrom_cons {line : Nat} (h : line < pixelsPerCol) :
    linesFrom line = .updateScreen line :: linesFrom (line + 1) := by
  unfold linesFrom
  rw [show pixelsPerCol - line = pixelsPerCol - (line + 1) + 1 by omega, List.range'_succ]
  rfl

theorem linesFrom_end : linesFrom pixelsPerCol = [] := by
  simp [linesFrom]

theorem rest_vblank {x : Timing} (hs : x.state = .vblank) :
    x.rest = if x.InVBlankMode then [] else [.interrupt .vblank, .publish] := by
  unfold rest
  rw [hs]

theorem rest_lines {x : Timing} (hs : x.state ≠ .vblank) :
    x.rest = linesFrom x.startLine ++ [.next .hblank .vblank, .interrupt .vblank, .publish] := by
  unfold rest
  split
  · contradiction
  · rfl

theorem rest_unserved {x : Timing} (hs : x.state = .vblank) (hm : ¬ x.InVBlankMode) :
    x.rest = [.interrupt .vblank, .publish] := by
  rw [rest_vblank hs, if_neg hm]

theorem rest_served {x : Timing} (hs : x.state = .vblank) (hm : x.InVBlankMode) : x.rest = [] := by
  rw [rest_vblank hs, if_pos hm]

theorem rest_line {x : Timing} (hs : x.state ≠ .vblank) (hm : ¬ x.InVBlankMode) :
    x.rest = linesFrom x.line ++ [.next .hblank .vblank, .interrupt .vblank, .publish] := by
  rw [rest_lines hs, startLine_eq hm]

/-- A move shows the next part of the rest; leaving the vblank, a new frame begins. -/
theorem move_rest {x y : Timing} {n : Nat} {es : List Event} (hx : x.Inv) (h : Move n x es y) :
    es.filter Event.ofFrame ++ y.rest = x.rest ∨
      (x.rest = [] ∧ es.filter Event.ofFrame = [] ∧ y.rest = frame) := by
  have hshow : ∀ z : List Event, y.rest = z → es.filter Event.ofFrame ++ z = x.rest →
      es.filter Event.ofFrame ++ y.rest = x.rest := fun z hz h => hz ▸ h
  cases h with
  | oamStay hs h =>
    have hm := ((inv_oam_iff hs).mp hx).2.1
    have hne : x.state ≠ .vblank := by simp [hs]
    exact .inl (hshow _ (rest_line hne (by exact oam_ne_vblank)) (rest_line hne hm).symm)
  | oamLeave hs h =>
    have hm := ((inv_oam_iff hs).mp hx).2.1
    have hne : x.state ≠ .vblank := by simp [hs]
    exact .inl (hshow _ (rest_line (by simp) (by exact oam_ne_vblank)) (rest_line hne hm).symm)
  | vramStay hs h =>
    have hm := ((inv_vram_iff hs).mp hx).2.1
    have hne : x.state ≠ .vblank := by simp [hs]
    exact .inl (hshow _ (rest_line hne (by exact vram_ne_vblank)) (rest_line hne hm).symm)
  | vramLeave hs h =>
    have hm := ((inv_vram_iff hs).mp hx).2.1
    have hne : x.state ≠ .vblank := by simp [hs]
    exact .inl (hshow _ (rest_line (by simp) (by exact vram_ne_vblank)) (rest_line hne hm).symm)
  | hblankStay hs h =>
    have hne : x.state ≠ .vblank := by simp [hs]
    exact .inl (hshow _ (rest_line hne (by exact hblank_ne_vblank)) (rest_lines hne).symm)
  | hblankLeave hs h hl =>
    have hne : x.state ≠ .vblank := by simp [hs]
    refine .inl (hshow _ (rest_line (by simp) (by exact hblank_ne_vblank)) ?_)
    rw [rest_lines hne, linesFrom_cons (Nat.lt_of_succ_lt hl)]
    rfl
  | lastLine hs h hl =>
    have hne : x.state ≠ .vblank := by simp [hs]
    refine .inl (hshow _ (rest_unserved rfl (by exact hblank_ne_vblank)) ?_)
    rw [rest_lines hne, linesFrom_cons (Nat.lt_of_succ_le hl.le), hl, linesFrom_end]
    rfl
  | vblankStart hs hm h =>
    exact .inl (hshow _ (rest_served (by exact hs) rfl) (rest_unserved hs hm).symm)
  | vblankStay hs hm h =>
    exact .inl (hshow _ (rest_served (by exact hs) rfl) (rest_served hs hm).symm)
  | vblankLate hs hm h hl =>
    exact .inl (hshow _ (rest_served rfl rfl) (rest_served hs hm).symm)
  | vblankLeave hs hm h hl =>
    exact .inr ⟨rest_served hs hm, rfl, rest_lines (by simp)⟩

theorem rest_reset : reset.rest = frame :=
  rest_lines (by decide)

theorem run_frames {allowed : Timing → Nat → Prop} {log : List Event} {x : Timing}
    (h : Trace.Run (Step allowed) reset log x) :
    ∃ k, log.filter Event.ofFrame ++ x.rest = (List.replicate k frame).flatten := by
  refine (run_rule h (P := fun log x => ∃ k, log.filter Event.ofFrame ++ x.rest =
    (List.replicate k frame).flatten) reset_inv ⟨1, by simp [rest_reset]⟩ ?_).2
  rintro log x n es y ⟨k, hk⟩ hx - - - hmove
  rw [List.filter_append, List.append_assoc]
  rcases move_rest hx hmove with hrest | ⟨hx', hes, hy⟩
  · exact ⟨k, by rw [hrest, hk]⟩
  · refine ⟨k + 1, ?_⟩
    rw [hx', List.append_nil] at hk
    rw [hes, hy, hk, List.replicate_succ', List.flatten_append]
    simp

/-- The first cycle in a vblank serves it. -/
theorem move_unserved {x y : Timing} {n : Nat} {es : List Event} (hs : x.state = .vblank)
    (hm : ¬ x.InVBlankMode) (h : Move n x es y) :
    es = [.ticks n, .interrupt .vblank, .publish] := by
  cases h with
  | vblankStart => rfl
  | vblankStay _ hm' | vblankLate _ hm' | vblankLeave _ hm' => exact absurd hm' hm
  | oamStay hs' | oamLeave hs' | vramStay hs' | vramLeave hs' | hblankStay hs' | hblankLeave hs'
  | lastLine hs' =>
    rw [hs] at hs'
    cases hs'

end Timing

namespace Bus

theorem filter_visible (es : List Event) :
    (es.filter Timing.visible).filter Event.ofFrame = es.filter Event.ofFrame := by
  rw [List.filter_filter]
  refine List.filter_congr fun e _ => ?_
  cases e with
  | interrupt mask => cases mask <;> rfl
  | _ => simp [Timing.visible]

/-- The first cycle after the entry into the vblank publishes the frame. -/
theorem entry_shown {b s : Bus} {before : List Event}
    (h : Trace.Run (Step fun _ _ => True) b.resetGpu (before ++ [.next .hblank .vblank]) s)
    (hon : s.isDisplayEnabled = true) {ticks : UInt8} (hmax : ticks.toNat ≤ 20) :
    (s.cycle ticks).2.filter Event.ofFrame = [.interrupt .vblank, .publish] := by
  obtain ⟨hstate, hmode, -⟩ := run_last (b.timing_resetGpu ▸ Timing.reset_inv) h
  have hm : ¬ s.timing.InVBlankMode := by
    rw [Timing.InVBlankMode, hmode]
    exact Timing.hblank_ne_vblank
  rw [← filter_visible, (s.cycle_timing ticks hon).2,
    Timing.move_unserved hstate hm (Timing.cycle_move (run_inv h) hmax)]
  rfl

/-- **Frame completeness.** Whatever the cycles and the writes to other registers,
frame after frame shows the lines 0 to 143 once and in order, the entry into the
vblank, one interrupt and one publication; the last two come with the first cycle
after the entry, which leaves the bit set in IF and the buffer on the screen. -/
theorem frames_complete {b s : Bus} {log : List Event}
    (h : Trace.Run (Step fun _ _ => True) b.resetGpu log s) :
    (∃ k, log.filter Event.ofFrame <+: (List.replicate k Timing.frame).flatten) ∧
      (∀ ticks : UInt8, Happened s (s.cycle ticks).1 (s.cycle ticks).2) ∧
      ∀ before, log = before ++ [.next .hblank .vblank] → s.isDisplayEnabled = true →
        ∀ ticks : UInt8, 1 ≤ ticks.toNat → ticks.toNat ≤ 20 →
          (s.cycle ticks).2.filter Event.ofFrame = [.interrupt .vblank, .publish] ∧
          BitField.bit ((s.cycle ticks).1.io interruptFlagsAddress) 0 = true ∧
          (s.cycle ticks).1.gpu.screen = s.gpu.buffer := by
  refine ⟨?_, s.cycle_happened, ?_⟩
  · obtain ⟨k, hk⟩ := Timing.run_frames (run_timing_reset h)
    rw [filter_visible] at hk
    exact ⟨k, _, hk⟩
  · rintro before rfl hon ticks hpos hmax
    have hshown := entry_shown h hon hmax
    have hmem : ∀ e ∈ [Event.interrupt .vblank, .publish], e ∈ (s.cycle ticks).2 :=
      fun e he => List.mem_of_mem_filter (hshown ▸ he)
    have hhappened := s.cycle_happened ticks
    refine ⟨hshown, ?_, (hhappened.published (hmem _ (by simp))).1⟩
    exact hhappened.requested.trans (by simp [hmem])

/-- A run of calls of 4 ticks up to the entry into the vblank. -/
theorem entry_run (b : Bus) : ∃ (ts : List UInt8) (before : List Event),
    Trace.Run (Step fun _ _ => True) b.resetGpu (before ++ [.next .hblank .vblank])
      (b.resetGpu.cycles ts) ∧
      (b.resetGpu.cycles ts).isDisplayEnabled = true := by
  obtain ⟨ts, hts, hsum⟩ := exists_calls 16415
  obtain ⟨log, hrun⟩ := b.resetGpu.cycles_run_any ts hts
  obtain ⟨hinv, hstate, hpos, -⟩ := reset_cycles b hts (by omega)
  have hon := cycles_on b ts
  have h4 : (4 : UInt8).toNat = 4 := rfl
  refine ⟨ts ++ [4], ?_⟩
  rw [cycles_append]
  generalize b.resetGpu.cycles ts = s at hrun hinv hstate hpos hon ⊢
  obtain ⟨hs, hline, hticks⟩ := Timing.state_of_position hinv hstate (by omega)
  obtain ⟨henter, -⟩ := Timing.cycle_enter (n := (4 : UInt8).toNat) hinv (by decide) hs hline
    (by simp only [hblankTicks]; omega)
  rw [← (s.cycle_timing 4 hon).1] at henter
  obtain ⟨before, hlast⟩ := cycle_last hs henter (by decide)
  refine ⟨log ++ before, ?_, (s.cycle_isDisplayEnabled 4).trans hon⟩
  rw [List.append_assoc, ← hlast]
  exact hrun.trans (.single (.cycle s 4 (by decide) (by decide) trivial))

/-- The call after the lines of the first frame, 16416 calls after reset. -/
theorem frames_complete_entry : ∃ (s : Bus) (log : List Event),
    Trace.Run (Step fun _ _ => True) bareConsole.resetGpu log s ∧
      (∃ k, log.filter Event.ofFrame <+: (List.replicate k Timing.frame).flatten) ∧
      BitField.bit ((s.cycle 4).1.io interruptFlagsAddress) 0 = true ∧
      (s.cycle 4).1.gpu.screen = s.gpu.buffer := by
  obtain ⟨ts, before, hrun, hon⟩ := entry_run bareConsole
  obtain ⟨hframes, -, hentry⟩ := frames_complete hrun
  obtain ⟨-, hflag, hscreen⟩ := hentry before rfl hon 4 (by decide) (by decide)
  exact ⟨_, _, hrun, hframes, hflag, hscreen⟩

end Bus

end GbEmu
