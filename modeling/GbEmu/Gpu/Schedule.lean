import GbEmu.Gpu.Timing

/-!
What one cycle of at most 20 ticks can do to the timing: it stays in its state, or
the period of the state is over and the next one begins. Everything about runs is
derived from this list of moves and the invariant between calls.
-/

namespace GbEmu

open Gpu

namespace Timing

def InVBlankMode (x : Timing) : Prop := x.mode = RenderState.vblank.toByte

instance (x : Timing) : Decidable x.InVBlankMode := by
  unfold InVBlankMode
  infer_instance

/-- The line that `handleHBlank` works on: coming out of a vblank, line 0. -/
def startLine (x : Timing) : Nat := if x.InVBlankMode then 0 else x.line

theorem startLine_eq {x : Timing} (hm : ¬ x.InVBlankMode) : x.startLine = x.line := if_neg hm

/-- What holds between two calls. The mode still is the one before only in the
first call of a state, when fewer than 20 ticks have been carried over. -/
def Inv (x : Timing) : Prop :=
  x.vscan < scanlineTicks ∧
    match x.state with
    | .oam => ¬ x.InVBlankMode ∧ x.ticks < oamTicks ∧ x.line < pixelsPerCol
    | .vram => ¬ x.InVBlankMode ∧ x.ticks < vramTicks ∧ x.line < pixelsPerCol
    | .hblank =>
      (¬ x.InVBlankMode ∧ x.ticks < hblankTicks ∧ x.line < pixelsPerCol) ∨
        (x.InVBlankMode ∧ x.ticks < 20 ∧ x.line = scanlineMax)
    | .vblank =>
      (¬ x.InVBlankMode ∧ x.ticks < 20 ∧ x.line = pixelsPerCol) ∨
        (x.InVBlankMode ∧ x.ticks < vblankTicks ∧ pixelsPerCol ≤ x.line ∧ x.line ≤ scanlineMax)

section Inv

variable {x : Timing}

theorem inv_oam_iff (hs : x.state = .oam) : x.Inv ↔
    x.vscan < scanlineTicks ∧ ¬ x.InVBlankMode ∧ x.ticks < oamTicks ∧ x.line < pixelsPerCol := by
  unfold Inv
  rw [hs]

theorem inv_vram_iff (hs : x.state = .vram) : x.Inv ↔
    x.vscan < scanlineTicks ∧ ¬ x.InVBlankMode ∧ x.ticks < vramTicks ∧ x.line < pixelsPerCol := by
  unfold Inv
  rw [hs]

theorem inv_hblank_iff (hs : x.state = .hblank) : x.Inv ↔
    x.vscan < scanlineTicks ∧
      ((¬ x.InVBlankMode ∧ x.ticks < hblankTicks ∧ x.line < pixelsPerCol) ∨
        (x.InVBlankMode ∧ x.ticks < 20 ∧ x.line = scanlineMax)) := by
  unfold Inv
  rw [hs]

theorem inv_vblank_iff (hs : x.state = .vblank) : x.Inv ↔
    x.vscan < scanlineTicks ∧
      ((¬ x.InVBlankMode ∧ x.ticks < 20 ∧ x.line = pixelsPerCol) ∨
        (x.InVBlankMode ∧ x.ticks < vblankTicks ∧
          pixelsPerCol ≤ x.line ∧ x.line ≤ scanlineMax)) := by
  unfold Inv
  rw [hs]

end Inv

/-- A call in the vblank counts `n` more ticks, and a line when enough have come together. -/
def scan (x : Timing) (n : Nat) : Timing :=
  { x with
    mode := RenderState.vblank.toByte
    ticks := x.ticks + n
    vscan := if scanlineTicks ≤ x.vscan + n then x.vscan + n - scanlineTicks else x.vscan + n
    line := if scanlineTicks ≤ x.vscan + n then min (x.line + 1) scanlineMax else x.line }

inductive Move (n : Nat) (x : Timing) : List Event → Timing → Prop
  | oamStay (hs : x.state = .oam) (h : x.ticks + n < oamTicks) :
      Move n x [.ticks n] { x with mode := RenderState.oam.toByte, ticks := x.ticks + n }
  | oamLeave (hs : x.state = .oam) (h : oamTicks ≤ x.ticks + n) :
      Move n x [.ticks n, .next .oam .vram]
        { x with
          state := .vram
          mode := RenderState.oam.toByte
          ticks := x.ticks + n - oamTicks }
  | vramStay (hs : x.state = .vram) (h : x.ticks + n < vramTicks) :
      Move n x [.ticks n] { x with mode := RenderState.vram.toByte, ticks := x.ticks + n }
  | vramLeave (hs : x.state = .vram) (h : vramTicks ≤ x.ticks + n) :
      Move n x [.ticks n, .next .vram .hblank]
        { x with
          state := .hblank
          mode := RenderState.vram.toByte
          ticks := x.ticks + n - vramTicks }
  | hblankStay (hs : x.state = .hblank) (h : x.ticks + n < hblankTicks) :
      Move n x [.ticks n]
        { x with
          mode := RenderState.hblank.toByte
          ticks := x.ticks + n
          line := x.startLine }
  | hblankLeave (hs : x.state = .hblank) (h : hblankTicks ≤ x.ticks + n)
      (hl : x.startLine + 1 < pixelsPerCol) :
      Move n x [.ticks n, .updateScreen x.startLine, .next .hblank .oam]
        { x with
          state := .oam
          mode := RenderState.hblank.toByte
          ticks := x.ticks + n - hblankTicks
          line := x.startLine + 1 }
  | lastLine (hs : x.state = .hblank) (h : hblankTicks ≤ x.ticks + n)
      (hl : x.startLine + 1 = pixelsPerCol) :
      Move n x [.ticks n, .updateScreen x.startLine, .next .hblank .vblank]
        { x with
          state := .vblank
          mode := RenderState.hblank.toByte
          ticks := x.ticks + n - hblankTicks
          line := x.startLine + 1 }
  | vblankStart (hs : x.state = .vblank) (hm : ¬ x.InVBlankMode) (h : x.ticks + n < vblankTicks) :
      Move n x [.ticks n, .interrupt .vblank, .publish] (x.scan n)
  | vblankStay (hs : x.state = .vblank) (hm : x.InVBlankMode) (h : x.ticks + n < vblankTicks) :
      Move n x [.ticks n] (x.scan n)
  | vblankLate (hs : x.state = .vblank) (hm : x.InVBlankMode) (h : vblankTicks ≤ x.ticks + n)
      (hl : (x.scan n).line ≠ scanlineMax) :
      Move n x [.ticks n, .next .vblank .vblank]
        { x.scan n with state := .vblank, ticks := x.ticks + n - vblankTicks }
  | vblankLeave (hs : x.state = .vblank) (hm : x.InVBlankMode) (h : vblankTicks ≤ x.ticks + n)
      (hl : (x.scan n).line = scanlineMax) :
      Move n x [.ticks n, .next .vblank .hblank]
        { x.scan n with state := .hblank, ticks := x.ticks + n - vblankTicks }

/-! ## The moves of a cycle -/

section Handled

variable {x y : Timing} {n period : Nat} {new : RenderState} {handled : List Event}

/-- A cycle after which the state stays. -/
theorem cycle_stay (hh : { x with ticks := x.ticks + n }.handle n = (y, handled))
    (hn : y.next = y.leave period new) (h : y.ticks < period) :
    x.cycle n = (y, .ticks n :: handled) := by
  have hl : y.leave period new = (y, []) := if_pos h
  simp only [cycle, hh, hn, hl, List.append_nil]

/-- A cycle after which the period of the state is over. -/
theorem cycle_leave (hh : { x with ticks := x.ticks + n }.handle n = (y, handled))
    (hn : y.next = y.leave period new) (h : ¬ y.ticks < period) :
    x.cycle n = ({ y with ticks := y.ticks - period, state := new },
      .ticks n :: (handled ++ [.next y.state new])) := by
  have hl : y.leave period new =
      ({ y with ticks := y.ticks - period, state := new }, [.next y.state new]) := if_neg h
  simp only [cycle, hh, hn, hl]

end Handled

theorem handleVBlank_eq (x : Timing) (n : Nat) :
    { x with ticks := x.ticks + n }.handleVBlank n =
      (x.scan n, if x.InVBlankMode then [] else [.interrupt .vblank, .publish]) := by
  unfold handleVBlank scan InVBlankMode
  by_cases h : scanlineTicks ≤ x.vscan + n
  · simp only [if_pos h]
  · simp only [if_neg h]

theorem startLine_lt {x : Timing} (hx : x.Inv) (hs : x.state = .hblank) :
    x.startLine < pixelsPerCol := by
  unfold startLine
  rcases ((inv_hblank_iff hs).mp hx).2 with ⟨hm, -, hl⟩ | ⟨hm, -, -⟩
  · rwa [if_neg hm]
  · rw [if_pos hm]
    decide

section Next

variable {x : Timing}

theorem next_oam (hs : x.state = .oam) : x.next = x.leave oamTicks .vram := by
  unfold next
  rw [hs]

theorem next_vram (hs : x.state = .vram) : x.next = x.leave vramTicks .hblank := by
  unfold next
  rw [hs]

theorem next_hblank (hs : x.state = .hblank) :
    x.next = x.leave hblankTicks (if x.line = pixelsPerCol then .vblank else .oam) := by
  unfold next
  rw [hs]

theorem next_vblank (hs : x.state = .vblank) :
    x.next = x.leave vblankTicks (if x.line = scanlineMax then .hblank else .vblank) := by
  unfold next
  rw [hs]

end Next

section Cases

variable {x : Timing} (n : Nat)

theorem move_oam (hs : x.state = .oam) : Move n x (x.cycle n).2 (x.cycle n).1 := by
  have hh : { x with ticks := x.ticks + n }.handle n =
      ({ x with mode := RenderState.oam.toByte, ticks := x.ticks + n }, []) := by
    unfold handle
    rw [show ({ x with ticks := x.ticks + n } : Timing).state = .oam from hs]
    rfl
  by_cases h : x.ticks + n < oamTicks
  · rw [cycle_stay hh (next_oam hs) h]
    exact .oamStay hs h
  · rw [cycle_leave hh (next_oam hs) h]
    simp only [hs]
    exact .oamLeave hs (Nat.not_lt.mp h)

theorem move_vram (hs : x.state = .vram) : Move n x (x.cycle n).2 (x.cycle n).1 := by
  have hh : { x with ticks := x.ticks + n }.handle n =
      ({ x with mode := RenderState.vram.toByte, ticks := x.ticks + n }, []) := by
    unfold handle
    rw [show ({ x with ticks := x.ticks + n } : Timing).state = .vram from hs]
    rfl
  by_cases h : x.ticks + n < vramTicks
  · rw [cycle_stay hh (next_vram hs) h]
    exact .vramStay hs h
  · rw [cycle_leave hh (next_vram hs) h]
    simp only [hs]
    exact .vramLeave hs (Nat.not_lt.mp h)

theorem handle_hblank (hs : x.state = .hblank) (n : Nat) :
    { x with ticks := x.ticks + n }.handle n = { x with ticks := x.ticks + n }.handleHBlank := by
  unfold handle
  rw [show ({ x with ticks := x.ticks + n } : Timing).state = .hblank from hs]

theorem handle_vblank (hs : x.state = .vblank) (n : Nat) :
    { x with ticks := x.ticks + n }.handle n =
      (x.scan n, if x.InVBlankMode then [] else [.interrupt .vblank, .publish]) := by
  rw [← handleVBlank_eq]
  unfold handle
  rw [show ({ x with ticks := x.ticks + n } : Timing).state = .vblank from hs]

theorem move_hblank (hs : x.state = .hblank) (hl : x.startLine < pixelsPerCol) :
    Move n x (x.cycle n).2 (x.cycle n).1 := by
  have hstart := handle_hblank hs n
  by_cases h : x.ticks + n < hblankTicks
  · have hh : { x with ticks := x.ticks + n }.handleHBlank =
        ({ x with
          mode := RenderState.hblank.toByte
          ticks := x.ticks + n
          line := x.startLine }, []) := if_pos h
    rw [cycle_stay (hstart.trans hh) (next_hblank hs) h]
    exact .hblankStay hs h
  · have hh : { x with ticks := x.ticks + n }.handleHBlank =
        ({ x with
          mode := RenderState.hblank.toByte
          ticks := x.ticks + n
          line := (x.startLine + 1) % 256 }, [.updateScreen x.startLine]) := if_neg h
    rw [Nat.mod_eq_of_lt (by simp only [pixelsPerCol] at hl; omega)] at hh
    rw [cycle_leave (hstart.trans hh) (next_hblank hs) h]
    simp only [hs]
    by_cases hlast : x.startLine + 1 = pixelsPerCol
    · rw [if_pos hlast]
      exact .lastLine hs (Nat.not_lt.mp h) hlast
    · rw [if_neg hlast]
      exact .hblankLeave hs (Nat.not_lt.mp h) (Nat.lt_of_le_of_ne hl hlast)

theorem move_vblank (hs : x.state = .vblank)
    (hfresh : ¬ x.InVBlankMode → x.ticks + n < vblankTicks) :
    Move n x (x.cycle n).2 (x.cycle n).1 := by
  have hh := handle_vblank hs n
  by_cases h : x.ticks + n < vblankTicks
  · rw [cycle_stay hh (next_vblank hs) h]
    by_cases hm : x.InVBlankMode
    · rw [if_pos hm]
      exact .vblankStay hs hm h
    · rw [if_neg hm]
      exact .vblankStart hs hm h
  · have hm : x.InVBlankMode := by
      by_contra hm
      exact h (hfresh hm)
    rw [cycle_leave hh (next_vblank hs) h, if_pos hm,
      show (x.scan n).state = .vblank from hs]
    by_cases hl : (x.scan n).line = scanlineMax
    · rw [if_pos hl]
      exact .vblankLeave hs hm (Nat.not_lt.mp h) hl
    · rw [if_neg hl]
      exact .vblankLate hs hm (Nat.not_lt.mp h) hl

end Cases

/-- **Every cycle between 1 and 20 ticks is one of the moves.** -/
theorem cycle_move {x : Timing} {n : Nat} (hx : x.Inv) (hmax : n ≤ 20) :
    Move n x (x.cycle n).2 (x.cycle n).1 := by
  cases hs : x.state with
  | oam => exact move_oam n hs
  | vram => exact move_vram n hs
  | hblank => exact move_hblank n hs (startLine_lt hx hs)
  | vblank =>
    refine move_vblank n hs fun hm => ?_
    rcases ((inv_vblank_iff hs).mp hx).2 with ⟨-, ht, -⟩ | ⟨hm', -⟩
    · simp only [vblankTicks]
      omega
    · exact absurd hm' hm

/-! ## The invariant -/

theorem reset_inv : reset.Inv := by
  rw [inv_oam_iff rfl, scanlineTicks_eq]
  decide

theorem scan_vscan {x : Timing} {n : Nat} (hv : x.vscan < scanlineTicks) (hmax : n ≤ 20) :
    (x.scan n).vscan < scanlineTicks := by
  have heq := scanlineTicks_eq
  by_cases h : scanlineTicks ≤ x.vscan + n
  · simp only [scan, if_pos h]
    omega
  · simp only [scan, if_neg h]
    omega

theorem vblank_line {x : Timing} (hx : x.Inv) (hs : x.state = .vblank) :
    pixelsPerCol ≤ x.line ∧ x.line ≤ scanlineMax := by
  rcases ((inv_vblank_iff hs).mp hx).2 with ⟨-, -, hl⟩ | ⟨-, -, hl⟩
  · rw [hl]
    decide
  · exact hl

theorem scan_line {x : Timing} (n : Nat) (hx : x.Inv) (hs : x.state = .vblank) :
    pixelsPerCol ≤ (x.scan n).line ∧ (x.scan n).line ≤ scanlineMax := by
  obtain ⟨h, h'⟩ := vblank_line hx hs
  simp only [scan, pixelsPerCol, scanlineMax] at *
  split_ifs <;> omega

theorem ticks_vblank {x : Timing} (hx : x.Inv) (hs : x.state = .vblank) :
    x.ticks < vblankTicks := by
  rcases ((inv_vblank_iff hs).mp hx).2 with ⟨-, ht, -⟩ | ⟨-, ht, -⟩
  · exact Nat.lt_trans ht (by decide)
  · exact ht

theorem ticks_hblank {x : Timing} (hx : x.Inv) (hs : x.state = .hblank) :
    x.ticks < hblankTicks := by
  rcases ((inv_hblank_iff hs).mp hx).2 with ⟨-, ht, -⟩ | ⟨-, ht, -⟩
  · exact ht
  · exact Nat.lt_trans ht (by decide)

theorem oam_ne_vblank : RenderState.oam.toByte ≠ RenderState.vblank.toByte := by decide

theorem vram_ne_vblank : RenderState.vram.toByte ≠ RenderState.vblank.toByte := by decide

theorem hblank_ne_vblank : RenderState.hblank.toByte ≠ RenderState.vblank.toByte := by decide

/-- **The invariant is kept by every move.** -/
theorem move_inv {x y : Timing} {n : Nat} {es : List Event} (hx : x.Inv) (hmax : n ≤ 20)
    (h : Move n x es y) : y.Inv := by
  have hv := hx.1
  have hv' : (x.scan n).vscan < scanlineTicks := scan_vscan hv hmax
  cases h with
  | oamStay hs h =>
    obtain ⟨-, -, -, hl⟩ := (inv_oam_iff hs).mp hx
    exact Iff.mpr (inv_oam_iff (by exact hs)) ⟨hv, oam_ne_vblank, h, hl⟩
  | oamLeave hs h =>
    obtain ⟨-, -, ht, hl⟩ := (inv_oam_iff hs).mp hx
    refine (inv_vram_iff rfl).mpr ⟨hv, oam_ne_vblank, ?_, hl⟩
    simp only [oamTicks, vramTicks] at *
    omega
  | vramStay hs h =>
    obtain ⟨-, -, -, hl⟩ := (inv_vram_iff hs).mp hx
    exact Iff.mpr (inv_vram_iff (by exact hs)) ⟨hv, vram_ne_vblank, h, hl⟩
  | vramLeave hs h =>
    obtain ⟨-, -, ht, hl⟩ := (inv_vram_iff hs).mp hx
    refine (inv_hblank_iff rfl).mpr ⟨hv, .inl ⟨vram_ne_vblank, ?_, hl⟩⟩
    simp only [vramTicks, hblankTicks] at *
    omega
  | hblankStay hs h =>
    exact Iff.mpr (inv_hblank_iff (by exact hs))
      ⟨hv, .inl ⟨hblank_ne_vblank, h, startLine_lt hx hs⟩⟩
  | hblankLeave hs h hl =>
    have ht := ticks_hblank hx hs
    refine (inv_oam_iff rfl).mpr ⟨hv, hblank_ne_vblank, ?_, hl⟩
    simp only [hblankTicks, oamTicks] at *
    omega
  | lastLine hs h hl =>
    have ht := ticks_hblank hx hs
    refine (inv_vblank_iff rfl).mpr ⟨hv, .inl ⟨hblank_ne_vblank, ?_, hl⟩⟩
    simp only [hblankTicks] at *
    omega
  | vblankStart hs hm h =>
    exact Iff.mpr (inv_vblank_iff (by exact hs)) ⟨hv', .inr ⟨rfl, h, scan_line n hx hs⟩⟩
  | vblankStay hs hm h =>
    exact Iff.mpr (inv_vblank_iff (by exact hs)) ⟨hv', .inr ⟨rfl, h, scan_line n hx hs⟩⟩
  | vblankLate hs hm h hl =>
    have ht := ticks_vblank hx hs
    refine (inv_vblank_iff rfl).mpr ⟨hv', .inr ⟨rfl, ?_, scan_line n hx hs⟩⟩
    simp only [vblankTicks] at *
    omega
  | vblankLeave hs hm h hl =>
    have ht := ticks_vblank hx hs
    refine (inv_hblank_iff rfl).mpr ⟨hv', .inr ⟨rfl, ?_, hl⟩⟩
    simp only [vblankTicks] at *
    omega

/-- A move along a run: the invariant holds before and after it. -/
theorem step_move {allowed : Timing → Nat → Prop} {x y : Timing} {es : List Event} (hx : x.Inv)
    (h : Step allowed x es y) : ∃ n, n ≤ 20 ∧ 1 ≤ n ∧ allowed x n ∧ Move n x es y ∧ y.Inv := by
  cases h with
  | cycle n hpos hmax hok =>
    have hm := cycle_move hx hmax
    exact ⟨n, hmax, hpos, hok, hm, move_inv hx hmax hm⟩

/-- An invariant of runs may rely on `Inv` and on the moves. -/
theorem run_rule {allowed : Timing → Nat → Prop} {P : List Event → Timing → Prop} {x₀ x : Timing}
    {log : List Event} (h : Trace.Run (Step allowed) x₀ log x) (hx₀ : x₀.Inv) (h0 : P [] x₀)
    (hmove : ∀ log x n es y, P log x → x.Inv → 1 ≤ n → n ≤ 20 → allowed x n → Move n x es y →
      P (log ++ es) y) : x.Inv ∧ P log x := by
  refine h.invariant (P := fun log x => x.Inv ∧ P log x) ⟨hx₀, h0⟩ ?_
  rintro log x es y ⟨hx, hP⟩ hstep
  obtain ⟨n, hmax, hpos, hok, hm, hy⟩ := step_move hx hstep
  exact ⟨hy, hmove log x n es y hP hx hpos hmax hok hm⟩

/-- After the end of a period fewer than 20 ticks are carried over, and STAT still
shows the mode before. -/
theorem run_last {allowed : Timing → Nat → Prop} {x₀ x : Timing} {log before : List Event}
    {old new : RenderState} (hx₀ : x₀.Inv) (h : Trace.Run (Step allowed) x₀ log x)
    (hlast : log = before ++ [.next old new]) :
    x.state = new ∧ x.mode = old.toByte ∧ x.ticks < 20 := by
  refine (run_rule h (P := fun log x => log.getLast? = some (.next old new) →
    x.state = new ∧ x.mode = old.toByte ∧ x.ticks < 20) hx₀ (by simp) ?_).2 (by simp [hlast])
  intro log x n es y _ hx _ hmax _ hmove hl
  have hleft : ∀ {period : Nat}, x.ticks < period → x.ticks + n - period < 20 := by
    intro period h
    omega
  cases hmove with
  | oamStay | vramStay | hblankStay | vblankStart | vblankStay => simp at hl
  | oamLeave hs =>
    simp at hl
    exact ⟨hl.2, congrArg RenderState.toByte hl.1, hleft ((inv_oam_iff hs).mp hx).2.2.1⟩
  | vramLeave hs =>
    simp at hl
    exact ⟨hl.2, congrArg RenderState.toByte hl.1, hleft ((inv_vram_iff hs).mp hx).2.2.1⟩
  | hblankLeave hs | lastLine hs =>
    simp at hl
    exact ⟨hl.2, congrArg RenderState.toByte hl.1, hleft (ticks_hblank hx hs)⟩
  | vblankLate hs | vblankLeave hs =>
    simp at hl
    exact ⟨hl.2, congrArg RenderState.toByte hl.1, hleft (ticks_vblank hx hs)⟩

end Timing

namespace Bus

/-- The invariant holds of every state that cycles and bus writes reach. -/
theorem run_inv {allowed : Bus → UInt8 → Prop} {b s : Bus} {log : List Event}
    (h : Trace.Run (Step allowed) b.resetGpu log s) : s.timing.Inv := by
  exact (Timing.run_rule (run_timing_reset h) (P := fun _ _ => True) Timing.reset_inv trivial
    fun _ _ _ _ _ _ _ _ _ _ _ => trivial).1

theorem run_last {allowed : Bus → UInt8 → Prop} {s₀ s : Bus} {before : List Event}
    {old new : RenderState} (hs₀ : s₀.timing.Inv)
    (h : Trace.Run (Step allowed) s₀ (before ++ [.next old new]) s) :
    s.timing.state = new ∧ s.timing.mode = old.toByte ∧ s.timing.ticks < 20 := by
  have hrun := run_timing_any h
  rw [List.filter_append] at hrun
  exact Timing.run_last hs₀ hrun rfl

end Bus

end GbEmu
