import Mathlib.Algebra.GroupWithZero.Nat
import GbEmu.Gpu.Happened
import GbEmu.Gpu.VBlank

/-!
The phases of the visible lines. After reset every line goes through OAM, VRAM and
HBLANK; coming out of a vblank, the first line only has its HBLANK. What is still to
come in the visible part of a frame is a function of the state, and every call shows
the next piece of it.
-/

namespace GbEmu

open Gpu

namespace Gpu.Event

/-- Lines and periods. -/
def ofLine : Event → Bool
  | .updateScreen _ => true
  | .next _ _ => true
  | _ => false

def ofDrawing : Event → Bool
  | .updateScreen _ => true
  | _ => false

/-- The ticks that pass. -/
def elapsed : Event → Nat
  | .ticks n => n
  | _ => 0

end Gpu.Event

/-- `OAM_TICKS`, `VRAM_TICKS`, `HBLANK_TICKS`, `VBLANK_TICKS`. -/
def RenderState.period : RenderState → Nat
  | .oam => oamTicks
  | .vram => vramTicks
  | .hblank => hblankTicks
  | .vblank => vblankTicks

/-- The ticks of the periods that are over. -/
def Gpu.Event.spent : Event → Nat
  | .next old _ => old.period
  | _ => 0

namespace Timing

def elapsed (es : List Event) : Nat := (es.map Event.elapsed).sum

def spent (es : List Event) : Nat := (es.map Event.spent).sum

/-- The end of the HBLANK of a line. -/
def lineEnd (line : Nat) : List Event :=
  [.updateScreen line, .next .hblank (if line + 1 = pixelsPerCol then .vblank else .oam)]

def phases (line : Nat) : List Event :=
  .next .oam .vram :: .next .vram .hblank :: lineEnd line

def phasesFrom (line : Nat) : List Event :=
  (List.range' line (pixelsPerCol - line)).flatMap phases

/-- The visible part of the frame after reset. -/
def firstFrame : List Event := phasesFrom 0

/-- The visible part of a frame after a vblank: no OAM and VRAM on line 0. -/
def laterFrame : List Event := lineEnd 0 ++ phasesFrom 1

/-- What is still to come in the visible part of the frame. -/
def visiblePart (x : Timing) : List Event :=
  match x.state with
  | .oam => phasesFrom x.line
  | .vram => .next .vram .hblank :: (lineEnd x.line ++ phasesFrom (x.line + 1))
  | .hblank => lineEnd x.startLine ++ phasesFrom (x.startLine + 1)
  | .vblank => []

theorem phasesFrom_cons {line : Nat} (h : line < pixelsPerCol) :
    phasesFrom line = phases line ++ phasesFrom (line + 1) := by
  unfold phasesFrom
  rw [show pixelsPerCol - line = pixelsPerCol - (line + 1) + 1 by omega, List.range'_succ,
    List.flatMap_cons]

theorem phasesFrom_end : phasesFrom pixelsPerCol = [] := by
  simp [phasesFrom]

section VisiblePart

variable {x : Timing}

theorem visiblePart_oam (hs : x.state = .oam) : x.visiblePart = phasesFrom x.line := by
  unfold visiblePart
  rw [hs]

theorem visiblePart_vram (hs : x.state = .vram) : x.visiblePart =
    .next .vram .hblank :: (lineEnd x.line ++ phasesFrom (x.line + 1)) := by
  unfold visiblePart
  rw [hs]

theorem visiblePart_hblank (hs : x.state = .hblank) :
    x.visiblePart = lineEnd x.startLine ++ phasesFrom (x.startLine + 1) := by
  unfold visiblePart
  rw [hs]

theorem visiblePart_vblank (hs : x.state = .vblank) : x.visiblePart = [] := by
  unfold visiblePart
  rw [hs]

end VisiblePart

/-- Before the vblank, a move shows the next piece of the visible part. -/
theorem move_visiblePart {x y : Timing} {n : Nat} {es : List Event} (hx : x.Inv)
    (hs : x.state ≠ .vblank) (h : Move n x es y) :
    es.filter Event.ofLine ++ y.visiblePart = x.visiblePart := by
  have hshow : ∀ z : List Event, y.visiblePart = z → es.filter Event.ofLine ++ z = x.visiblePart →
      es.filter Event.ofLine ++ y.visiblePart = x.visiblePart := fun z hz h => hz ▸ h
  cases h with
  | oamStay hs' =>
    exact hshow _ (visiblePart_oam (by exact hs')) (visiblePart_oam hs').symm
  | oamLeave hs' =>
    refine hshow _ (visiblePart_vram rfl) ?_
    rw [visiblePart_oam hs', phasesFrom_cons ((inv_oam_iff hs').mp hx).2.2.2]
    rfl
  | vramStay hs' =>
    exact hshow _ (visiblePart_vram (by exact hs')) (visiblePart_vram hs').symm
  | vramLeave hs' =>
    refine hshow _ (visiblePart_hblank rfl) ?_
    rw [visiblePart_vram hs', startLine_eq (by exact vram_ne_vblank)]
    rfl
  | hblankStay hs' =>
    refine hshow _ (visiblePart_hblank (by exact hs')) ?_
    rw [visiblePart_hblank hs', startLine_eq (by exact hblank_ne_vblank)]
    rfl
  | hblankLeave hs' _ hl =>
    refine hshow _ (visiblePart_oam rfl) ?_
    rw [visiblePart_hblank hs', lineEnd, if_neg hl.ne]
    rfl
  | lastLine hs' _ hl =>
    refine hshow _ (visiblePart_vblank rfl) ?_
    rw [visiblePart_hblank hs', lineEnd, if_pos hl, hl, phasesFrom_end]
    rfl
  | vblankStart hs' | vblankStay hs' | vblankLate hs' | vblankLeave hs' => exact absurd hs' hs

/-! ## Ticks and periods -/

theorem elapsed_append (es fs : List Event) : elapsed (es ++ fs) = elapsed es + elapsed fs := by
  simp [elapsed]

theorem spent_append (es fs : List Event) : spent (es ++ fs) = spent es + spent fs := by
  simp [spent]

/-- Events that count for nothing may be left out. -/
theorem sum_filter {f : Event → Nat} {p : Event → Bool} (h : ∀ e, p e = false → f e = 0)
    (es : List Event) : ((es.filter p).map f).sum = (es.map f).sum := by
  induction es with
  | nil => rfl
  | cons e es ih =>
    rw [List.map_cons, List.sum_cons, ← ih]
    cases hp : p e with
    | true => rw [List.filter_cons_of_pos hp, List.map_cons, List.sum_cons]
    | false => rw [List.filter_cons_of_neg (by simp [hp]), h e hp, Nat.zero_add]

/-- The ticks of a call either stay in `m_ticks` or belong to a period that is over. -/
theorem move_elapsed {x y : Timing} {n : Nat} {es : List Event} (h : Move n x es y) :
    elapsed es + x.ticks = spent es + y.ticks := by
  cases h with
  | oamStay | vramStay | hblankStay | vblankStart | vblankStay =>
    exact (Nat.add_comm _ _).trans (Nat.zero_add _).symm
  | oamLeave _ h | vramLeave _ h | hblankLeave _ h | lastLine _ h | vblankLate _ _ h
  | vblankLeave _ _ h =>
    simp only [elapsed, spent, List.map_cons, List.map_nil, List.sum_cons, List.sum_nil,
      Event.elapsed, Event.spent, RenderState.period]
    omega

theorem run_elapsed {allowed : Timing → Nat → Prop} {x₀ x : Timing} {log : List Event}
    (hx₀ : x₀.Inv) (h : Trace.Run (Step allowed) x₀ log x) :
    elapsed log + x₀.ticks = spent log + x.ticks := by
  refine (run_rule h (P := fun log x => elapsed log + x₀.ticks = spent log + x.ticks) hx₀
    rfl ?_).2
  intro log x n es y hP _ _ _ _ hmove
  have hstep := move_elapsed hmove
  rw [elapsed_append, spent_append]
  omega

/-! ## Frames -/

theorem spent_phases (line : Nat) :
    spent (phases line) = oamTicks + vramTicks + hblankTicks := by
  simp [spent, phases, lineEnd, Event.spent, RenderState.period]

theorem spent_lines (line n : Nat) :
    spent ((List.range' line n).flatMap phases) = n * (oamTicks + vramTicks + hblankTicks) := by
  induction n generalizing line with
  | zero => simp [spent]
  | succ n ih =>
    rw [List.range'_succ, List.flatMap_cons, spent_append, spent_phases, ih, Nat.succ_mul,
      Nat.add_comm]

theorem spent_firstFrame :
    spent firstFrame = pixelsPerCol * (oamTicks + vramTicks + hblankTicks) :=
  spent_lines 0 _

theorem spent_laterFrame :
    spent laterFrame =
      hblankTicks + (pixelsPerCol - 1) * (oamTicks + vramTicks + hblankTicks) := by
  rw [laterFrame, spent_append]
  exact congrArg₂ (· + ·) rfl (spent_lines 1 _)

/-- Where the visible part of a frame begins, given the log so far: what is shown from
there on, and the ticks that it takes. -/
inductive FrameStart : List Event → List Event → Nat → Prop
  | reset : FrameStart [] firstFrame (pixelsPerCol * (oamTicks + vramTicks + hblankTicks))
  | vblank (before : List Event) :
      FrameStart (before ++ [.next .vblank .hblank]) laterFrame
        (hblankTicks + (pixelsPerCol - 1) * (oamTicks + vramTicks + hblankTicks))

/-- A run has shown a part of the frame, with the rest still to come, or it is past it.
Once a call has been made, STAT no longer shows the vblank before the frame. -/
def Shown (frame log : List Event) (x : Timing) : Prop :=
  (log.filter Event.ofLine ++ x.visiblePart = frame ∧
      (log ≠ [] → x.state ≠ .vblank → ¬ x.InVBlankMode)) ∨
    ∃ e es, log.filter Event.ofLine = frame ++ e :: es

theorem move_mode {x y : Timing} {n : Nat} {es : List Event} (hs : x.state ≠ .vblank)
    (h : Move n x es y) : ¬ y.InVBlankMode := by
  cases h with
  | oamStay | oamLeave => exact oam_ne_vblank
  | vramStay | vramLeave => exact vram_ne_vblank
  | hblankStay | hblankLeave | lastLine => exact hblank_ne_vblank
  | vblankStart hs' | vblankStay hs' | vblankLate hs' | vblankLeave hs' => exact absurd hs' hs

theorem move_shown {frame log : List Event} {x y : Timing} {n : Nat} {es : List Event}
    (hx : x.Inv) (h : Shown frame log x) (hmove : Move n x es y) : Shown frame (log ++ es) y := by
  rcases h with ⟨hshown, -⟩ | ⟨e, fs, hpast⟩
  · by_cases hs : x.state = .vblank
    · rw [visiblePart_vblank hs, List.append_nil] at hshown
      cases hmove with
      | vblankStart | vblankStay =>
        refine .inl ⟨?_, fun _ hne => absurd hs hne⟩
        rw [visiblePart_vblank (by exact hs), List.filter_append, hshown]
        simp [Event.ofLine]
      | vblankLate | vblankLeave =>
        exact .inr ⟨_, [], by rw [List.filter_append, hshown]; rfl⟩
      | oamStay hs' | oamLeave hs' | vramStay hs' | vramLeave hs' | hblankStay hs'
      | hblankLeave hs' | lastLine hs' =>
        rw [hs] at hs'
        cases hs'
    · refine .inl ⟨?_, fun _ _ => move_mode hs hmove⟩
      rw [List.filter_append, List.append_assoc, move_visiblePart hx hs hmove, hshown]
  · refine .inr ⟨e, fs ++ es.filter Event.ofLine, ?_⟩
    rw [List.filter_append, hpast, List.append_assoc, List.cons_append]

theorem run_shown {allowed : Timing → Nat → Prop} {x₀ x : Timing} {log : List Event}
    (hx₀ : x₀.Inv) (h : Trace.Run (Step allowed) x₀ log x) : Shown x₀.visiblePart log x :=
  (run_rule h (P := Shown x₀.visiblePart) hx₀
    (.inl ⟨rfl, fun hne => absurd rfl hne⟩)
    fun _ _ _ _ _ hP hx _ _ _ hmove => move_shown hx hP hmove).2

theorem Shown.within {frame log : List Event} {x : Timing} (h : Shown frame log x) :
    log.filter Event.ofLine <+: frame ∨ frame <+: log.filter Event.ofLine := by
  rcases h with ⟨hshown, -⟩ | ⟨e, es, hpast⟩
  · exact .inl ⟨_, hshown⟩
  · exact .inr ⟨_, hpast.symm⟩

/-! ## The line register -/

theorem drawn_lines (line n : Nat) :
    ((List.range' line n).flatMap phases).countP Event.ofDrawing = n := by
  induction n generalizing line with
  | zero => rfl
  | succ n ih =>
    rw [List.range'_succ, List.flatMap_cons, List.countP_append, ih]
    exact Nat.add_comm 1 n

theorem drawn_rest (line : Nat) (h : line < pixelsPerCol) :
    (lineEnd line ++ phasesFrom (line + 1)).countP Event.ofDrawing + line = pixelsPerCol := by
  have hend : (lineEnd line).countP Event.ofDrawing = 1 := rfl
  have hrest : (phasesFrom (line + 1)).countP Event.ofDrawing = pixelsPerCol - (line + 1) :=
    drawn_lines _ _
  rw [List.countP_append, hend, hrest]
  omega

/-- Each of the remaining lines is drawn once. -/
theorem drawn_visiblePart {x : Timing} (hx : x.Inv) (hs : x.state ≠ .vblank) :
    x.visiblePart.countP Event.ofDrawing + x.startLine = pixelsPerCol := by
  cases hstate : x.state with
  | vblank => exact absurd hstate hs
  | oam =>
    obtain ⟨-, hm, -, hl⟩ := (inv_oam_iff hstate).mp hx
    rw [visiblePart_oam hstate, startLine_eq hm, phasesFrom, drawn_lines]
    exact Nat.sub_add_cancel hl.le
  | vram =>
    obtain ⟨-, hm, -, hl⟩ := (inv_vram_iff hstate).mp hx
    rw [visiblePart_vram hstate, startLine_eq hm]
    exact drawn_rest _ hl
  | hblank =>
    rw [visiblePart_hblank hstate]
    exact drawn_rest _ (startLine_lt hx hstate)

theorem countP_ofLine (es : List Event) :
    (es.filter Event.ofLine).countP Event.ofDrawing = es.countP Event.ofDrawing := by
  rw [List.countP_filter]
  refine List.countP_congr fun e _ => ?_
  cases e <;> simp [Event.ofDrawing, Event.ofLine]

/-- As long as the frame is being shown, LY is the number of the lines drawn. -/
theorem Shown.line_eq {frame log : List Event} {x : Timing} (h : Shown frame log x) (hx : x.Inv)
    (hframe : frame.countP Event.ofDrawing = pixelsPerCol) (hlog : log ≠ [])
    (hs : x.state ≠ .vblank) (hpart : log.filter Event.ofLine <+: frame) :
    x.line = log.countP Event.ofDrawing := by
  rcases h with ⟨hshown, hmode⟩ | ⟨e, es, hpast⟩
  · have hrest := drawn_visiblePart hx hs
    have hcount := congrArg (List.countP Event.ofDrawing) hshown
    rw [List.countP_append, countP_ofLine, hframe] at hcount
    rw [startLine_eq (hmode hlog hs)] at hrest
    omega
  · have hlen := hpart.length_le
    rw [hpast, List.length_append, List.length_cons] at hlen
    omega

/-- The first entry into the vblank is the end of the frame. -/
theorem Shown.frame_eq {frame before : List Event} {x : Timing}
    (h : Shown frame (before ++ [Event.next .hblank .vblank]) x) (hs : x.state = .vblank)
    (hframe : Event.next .hblank .vblank ∈ frame) (hfirst : Event.next .hblank .vblank ∉ before) :
    (before ++ [Event.next .hblank .vblank]).filter Event.ofLine = frame := by
  rcases h with ⟨hshown, -⟩ | ⟨e, es, hpast⟩
  · rwa [visiblePart_vblank hs, List.append_nil] at hshown
  · exfalso
    refine hfirst (List.mem_of_mem_filter (p := Event.ofLine) ?_)
    rw [List.filter_append] at hpast
    have hbefore : before.filter Event.ofLine = (frame ++ e :: es).dropLast :=
      List.dropLast_concat.symm.trans (congrArg List.dropLast hpast)
    rw [hbefore, List.dropLast_append_of_ne_nil (List.cons_ne_nil e es)]
    exact List.mem_append_left _ hframe

/-! ## Where a frame begins -/

theorem run_nil {allowed : Timing → Nat → Prop} {x₀ x : Timing}
    (h : Trace.Run (Step allowed) x₀ [] x) : x = x₀ := by
  generalize hlog : ([] : List Event) = log at h
  cases h with
  | nil => rfl
  | snoc _ hstep =>
    cases hstep
    simp [cycle] at hlog

theorem visiblePart_of_start {allowed : Timing → Nat → Prop} {x : Timing}
    {log frame : List Event} {total : Nat} (h : Trace.Run (Step allowed) reset log x)
    (hstart : FrameStart log frame total) : x.visiblePart = frame ∧ x.ticks < 20 := by
  cases hstart with
  | reset =>
    rw [run_nil h]
    exact ⟨rfl, by decide⟩
  | vblank before =>
    obtain ⟨hs, hmode, hticks⟩ := run_last reset_inv h rfl
    refine ⟨?_, hticks⟩
    rw [visiblePart_hblank hs, startLine, if_pos (show x.InVBlankMode from hmode)]
    rfl

theorem spent_of_start {log frame : List Event} {total : Nat}
    (hstart : FrameStart log frame total) : spent frame = total := by
  cases hstart with
  | reset => exact spent_firstFrame
  | vblank => exact spent_laterFrame

theorem drawn_of_start {log frame : List Event} {total : Nat}
    (hstart : FrameStart log frame total) : frame.countP Event.ofDrawing = pixelsPerCol := by
  cases hstart with
  | reset => exact drawn_lines 0 _
  | vblank =>
    have hrest := drawn_rest 0 (by decide)
    rwa [Nat.add_zero] at hrest

theorem entry_mem_lines {line n : Nat} (hl : line ≤ 143) (hn : 143 < line + n) :
    Event.next .hblank .vblank ∈ (List.range' line n).flatMap phases := by
  refine List.mem_flatMap.mpr ⟨143, List.mem_range'_1.mpr ⟨hl, hn⟩, ?_⟩
  simp [phases, lineEnd]

theorem entry_mem_of_start {log frame : List Event} {total : Nat}
    (hstart : FrameStart log frame total) : Event.next .hblank .vblank ∈ frame := by
  cases hstart with
  | reset => exact entry_mem_lines (by decide) (by decide)
  | vblank => exact List.mem_append_right _ (entry_mem_lines (by decide) (by decide))

end Timing

namespace Bus

/-! ## Visible events -/

theorem filter_ofLine (es : List Event) :
    (es.filter Timing.visible).filter Event.ofLine = es.filter Event.ofLine := by
  rw [List.filter_filter]
  refine List.filter_congr fun e _ => ?_
  cases e <;> simp [Timing.visible, Event.ofLine]

theorem countP_visible (es : List Event) :
    (es.filter Timing.visible).countP Event.ofDrawing = es.countP Event.ofDrawing := by
  rw [List.countP_filter]
  refine List.countP_congr fun e _ => ?_
  cases e <;> simp [Event.ofDrawing, Timing.visible]

theorem elapsed_visible (es : List Event) :
    Timing.elapsed (es.filter Timing.visible) = Timing.elapsed es := by
  refine Timing.sum_filter (fun e he => ?_) es
  cases e with
  | ticks => cases he
  | _ => rfl

theorem spent_visible (es : List Event) :
    Timing.spent (es.filter Timing.visible) = Timing.spent es := by
  refine Timing.sum_filter (fun e he => ?_) es
  cases e with
  | next => cases he
  | _ => rfl

theorem spent_ofLine (es : List Event) :
    Timing.spent (es.filter Event.ofLine) = Timing.spent es := by
  refine Timing.sum_filter (fun e he => ?_) es
  cases e with
  | next => cases he
  | _ => rfl

/-! ## The visible part of a frame -/

theorem run_start {allowed : Bus → UInt8 → Prop} {b s : Bus} {log frame : List Event}
    {total : Nat} (h : Trace.Run (Step allowed) b.resetGpu log s)
    (hstart : Timing.FrameStart log frame total) :
    s.timing.visiblePart = frame ∧ s.gpu.ticks < 20 := by
  have hrun := run_timing_reset h
  have hstart' : Timing.FrameStart (log.filter Timing.visible) frame total := by
    cases hstart with
    | reset => exact .reset
    | vblank before =>
      rw [List.filter_append]
      exact .vblank _
  exact Timing.visiblePart_of_start hrun hstart'

/-- A run into the first line after a vblank. -/
theorem later_frame_run (b : Bus) :
    ∃ (s s' : Bus) (before log' : List Event),
      Trace.Run (Step fun _ _ => True) b.resetGpu (before ++ [.next .vblank .hblank]) s ∧
      Trace.Run (Step fun _ _ => True) s log' s' ∧ log'.filter Event.ofLine ≠ [] := by
  obtain ⟨s, log, hrun, hon, hs, hover⟩ := timely_vblank_end b
  obtain ⟨hinv, hontime⟩ := run_onTime hrun
  have hline := Timing.scan_line_of_onTime hinv (by decide) hs hontime hover
  obtain ⟨-, hleave, -⟩ := Timing.cycle_end hinv (by decide) hs hover hline
  rw [← (s.cycle_timing 8 hon).1] at hleave
  obtain ⟨before, hlast⟩ := cycle_last hs hleave (by decide)
  have hrun' := (hrun.mono fun _ _ _ => Step.any).trans
    (.single (.cycle s 8 (by decide) (by decide) trivial))
  rw [hlast, ← List.append_assoc] at hrun'
  have hon' := (s.cycle_isDisplayEnabled 8).trans hon
  have hinv' := run_inv hrun'
  have hpart := (run_start hrun' (.vblank _)).1
  have hcount := Timing.drawn_rest 0 (by decide)
  generalize (s.cycle 8).1 = s' at hrun' hon' hinv' hpart
  have hts : ∀ t ∈ List.replicate 11 (20 : UInt8), 1 ≤ t.toNat ∧ t.toNat ≤ 20 :=
    mem_replicate (by decide) (by decide)
  obtain ⟨log', hcycles⟩ := s'.cycles_run_any _ hts
  refine ⟨s', _, _, log', hrun', hcycles, fun hnil => ?_⟩
  obtain ⟨hs', hmode, hticks⟩ := run_last (b.timing_resetGpu ▸ Timing.reset_inv) hrun'
  have hpos : s'.timing.position = 252 + s'.timing.ticks := by
    rw [Timing.position_hblank hs', Timing.startLine,
      if_pos (show s'.timing.InVBlankMode from hmode)]
  have hsum : ((List.replicate 11 (20 : UInt8)).map UInt8.toNat).sum = 220 := rfl
  -- After 220 ticks the line cannot be the one that the frame began with.
  obtain ⟨hy, hys, hposition, -⟩ := Timing.cycles_position hinv' (by simp [hs']) (nat_le hts) (by
    rw [hpos, hsum]
    omega)
  rw [← cycles_timing hon'] at hy hys hposition
  have hshown := Timing.run_shown hinv' (run_timing_any hcycles)
  rw [hpart] at hshown
  have hall : (s'.cycles (List.replicate 11 20)).timing.visiblePart = Timing.laterFrame := by
    rcases hshown with ⟨hshown, -⟩ | ⟨e, es, hpast⟩
    · rwa [filter_ofLine, hnil, List.nil_append] at hshown
    · rw [filter_ofLine, hnil] at hpast
      exact absurd hpast.symm (by simp)
  have hline' := Timing.drawn_visiblePart hy hys
  rw [hall] at hline'
  have hlt := Timing.position_lt hy hys
  rw [hposition, hsum, hpos] at hlt
  rw [Nat.add_zero] at hcount
  have hsame : Timing.laterFrame.countP Event.ofDrawing = pixelsPerCol := hcount
  omega

/-- From anywhere in a run, the ticks either stay in `m_ticks` or belong to a period
that is over. -/
theorem run_elapsed {allowed : Bus → UInt8 → Prop} {s s' : Bus} {log : List Event}
    (hs : s.timing.Inv) (h : Trace.Run (Step allowed) s log s') :
    Timing.elapsed log + s.gpu.ticks = Timing.spent log + s'.gpu.ticks := by
  have helapsed := Timing.run_elapsed hs (run_timing_any h)
  rwa [elapsed_visible, spent_visible] at helapsed

/-- **The visible part of a frame.** After reset every line goes through OAM, VRAM and
HBLANK, after a vblank line 0 goes through HBLANK only and the other lines through all
three. Meanwhile LY is the number of the lines drawn; whatever has been shown, the ticks
are those of the periods that are over and those in `m_ticks`, fewer than 20 of them
where a period begins, so that the visible part takes as long as its periods. -/
theorem visible_frame {b s s' : Bus} {log log' frame : List Event} {total : Nat}
    (h : Trace.Run (Step fun _ _ => True) b.resetGpu log s)
    (hstart : Timing.FrameStart log frame total)
    (h' : Trace.Run (Step fun _ _ => True) s log' s') :
    (log'.filter Event.ofLine <+: frame ∨ frame <+: log'.filter Event.ofLine) ∧
    (log'.filter Event.ofLine <+: frame → 0 < Timing.elapsed log' → s'.gpu.state ≠ .vblank →
      s'.scanline.toNat = log'.countP Event.ofDrawing) ∧
    (Timing.elapsed log' + s.gpu.ticks = Timing.spent log' + s'.gpu.ticks ∧
      s.gpu.ticks < 20 ∧
      ∀ before old new, log' = before ++ [.next old new] → s'.gpu.ticks < 20) ∧
    ∀ before, log' = before ++ [.next .hblank .vblank] → .next .hblank .vblank ∉ before →
      log'.filter Event.ofLine = frame ∧
      Timing.elapsed log' + s.gpu.ticks = total + s'.gpu.ticks ∧
      s.gpu.ticks < 20 ∧ s'.gpu.ticks < 20 := by
  obtain ⟨hpart, hticks⟩ := run_start h hstart
  have hinv := run_inv h
  have hinv' := run_inv (h.trans h')
  have helapsed := run_elapsed hinv h'
  have hlast : ∀ before old new, log' = before ++ [.next old new] → s'.gpu.ticks < 20 :=
    fun before old new hlog => (run_last hinv (hlog ▸ h')).2.2
  have hshown := Timing.run_shown hinv (run_timing_any h')
  rw [hpart] at hshown
  refine ⟨?_, ?_, ⟨helapsed, hticks, hlast⟩, ?_⟩
  · have hwithin := hshown.within
    rwa [filter_ofLine] at hwithin
  · intro hle hpos hs
    have hlog : log'.filter Timing.visible ≠ [] := by
      intro hnil
      rw [← elapsed_visible, hnil] at hpos
      exact Nat.lt_irrefl 0 hpos
    rw [← filter_ofLine] at hle
    rw [← countP_visible]
    exact hshown.line_eq hinv' (Timing.drawn_of_start hstart) hlog hs hle
  · intro before hlog hfirst
    have hvisible : log'.filter Timing.visible =
        before.filter Timing.visible ++ [.next .hblank .vblank] := by
      rw [hlog, List.filter_append]
      rfl
    obtain ⟨hs, -, -⟩ := run_last hinv (hlog ▸ h')
    rw [hvisible] at hshown
    have hframe := hshown.frame_eq hs (Timing.entry_mem_of_start hstart)
      fun hmem => hfirst (List.mem_of_mem_filter hmem)
    rw [← hvisible, filter_ofLine] at hframe
    refine ⟨hframe, ?_, hticks, hlast _ _ _ hlog⟩
    rw [← Timing.spent_of_start hstart, ← hframe, spent_ofLine]
    exact helapsed

/-- The first line after a vblank. -/
theorem visible_frame_later :
    ∃ (s s' : Bus) (log log' : List Event),
      Trace.Run (Step fun _ _ => True) bareConsole.resetGpu log s ∧
      Trace.Run (Step fun _ _ => True) s log' s' ∧ log'.filter Event.ofLine ≠ [] ∧
      (log'.filter Event.ofLine <+: Timing.laterFrame ∨
        Timing.laterFrame <+: log'.filter Event.ofLine) ∧
      Timing.elapsed log' + s.gpu.ticks = Timing.spent log' + s'.gpu.ticks ∧
      s.gpu.ticks < 20 := by
  obtain ⟨s, s', before, log', h, h', hne⟩ := later_frame_run bareConsole
  obtain ⟨hshown, -, ⟨helapsed, hticks, -⟩, -⟩ := visible_frame h (.vblank before) h'
  exact ⟨s, s', _, log', h, h', hne, hshown, helapsed, hticks⟩

/-- Not every frame begins with the OAM of its first line. -/
theorem later_frame_without_oam :
    ¬ ∀ (b s s' : Bus) (log log' frame : List Event) (total : Nat),
      Trace.Run (Step fun _ _ => True) b.resetGpu log s → Timing.FrameStart log frame total →
      Trace.Run (Step fun _ _ => True) s log' s' →
        log'.filter Event.ofLine <+: Timing.firstFrame ∨
          Timing.firstFrame <+: log'.filter Event.ofLine := by
  intro hall
  obtain ⟨s, s', before, log', h, h', hne⟩ := later_frame_run bareConsole
  have hfirst := hall _ _ _ _ _ _ _ h (.vblank before) h'
  have hrun := run_timing_any h'
  have hshown := (Timing.run_shown (run_inv h) hrun).within
  rw [(run_start h (.vblank before)).1, filter_ofLine] at hshown
  generalize log'.filter Event.ofLine = shown at hne hfirst hshown
  cases shown with
  | nil => exact hne rfl
  | cons e es =>
    have hhead : ∀ {f : Event} {fs : List Event},
        e :: es <+: f :: fs ∨ f :: fs <+: e :: es → e = f := by
      rintro f fs (h | h)
      · exact (List.cons_prefix_cons.mp h).1
      · exact (List.cons_prefix_cons.mp h).1.symm
    rw [Timing.firstFrame, Timing.phasesFrom_cons (by decide)] at hfirst
    have hoam : e = .next .oam .vram := hhead hfirst
    have hdrawn : e = .updateScreen 0 := hhead hshown
    rw [hoam] at hdrawn
    cases hdrawn

end Bus

end GbEmu
