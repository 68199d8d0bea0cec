import GbEmu.Gpu.Position

/-!
The length of the vblank. The ticks of the period and the ticks of the lines are
counted apart and start from different remainders; the last line is counted before
the period is over exactly when the remainder that the last HBLANK leaves exceeds
the one of the line counter by at most 6.
-/

namespace GbEmu

open Gpu

namespace Timing

/-- If this cycle ends the last line, the remainder is small enough. -/
def Timely (x : Timing) (n : Nat) : Prop :=
  x.state = .hblank → x.line + 1 = pixelsPerCol → hblankTicks ≤ x.ticks + n →
    x.ticks + n - hblankTicks ≤ x.vscan + 6

/-! ## Ticks counted by the lines of the vblank -/

/-- The ticks that the lines account for, at the rate of the vblank from line 0 on. -/
def scanned (x : Timing) : Nat := x.vscan + 414 * x.line

theorem scan_scanned {x : Timing} {n : Nat} (hx : x.Inv) (hs : x.state = .vblank)
    (hl : (x.scan n).line < scanlineMax) :
    x.line < scanlineMax ∧ (x.scan n).scanned = x.scanned + n := by
  have hline := (vblank_line hx hs).1
  unfold scan at hl
  unfold scanned scan
  by_cases h : scanlineTicks ≤ x.vscan + n
  · simp only [if_pos h, scanlineMax, pixelsPerCol] at hline hl ⊢
    rw [scanlineTicks_eq] at h ⊢
    omega
  · simp only [if_neg h] at hl ⊢
    exact ⟨hl, by omega⟩

theorem scan_line_lt {x : Timing} {n : Nat} (hx : x.Inv) (hs : x.state = .vblank)
    (hl : x.line < scanlineMax) (hn : x.scanned + n < 414 * 155) :
    (x.scan n).line < scanlineMax := by
  have hline := (vblank_line hx hs).1
  unfold scanned at hn
  unfold scan
  by_cases h : scanlineTicks ≤ x.vscan + n
  · simp only [if_pos h, scanlineMax, pixelsPerCol] at hline hl ⊢
    rw [scanlineTicks_eq] at h
    omega
  · simp only [if_neg h]
    exact hl

theorem scanned_lt {x : Timing} (hv : x.vscan < scanlineTicks) (hl : x.line < scanlineMax) :
    x.scanned < 414 * 155 := by
  unfold scanned
  rw [scanlineTicks_eq] at hv
  simp only [scanlineMax] at hl
  omega

/-! ## Timely runs -/

/-- The lines of the vblank are not far behind the ticks of its period. -/
def OnTime (x : Timing) : Prop :=
  x.state = .vblank → x.line < scanlineMax → x.ticks + 414 * 144 ≤ x.scanned + 6

theorem scan_onTime {x : Timing} {n : Nat} (hx : x.Inv) (hs : x.state = .vblank) (h : x.OnTime)
    (hl : (x.scan n).line < scanlineMax) : x.ticks + n + 414 * 144 ≤ (x.scan n).scanned + 6 := by
  obtain ⟨hline, hscan⟩ := scan_scanned hx hs hl
  have := h hs hline
  omega

/-- The period of the vblank never ends early. -/
theorem scan_line_of_onTime {x : Timing} {n : Nat} (hx : x.Inv) (hmax : n ≤ 20)
    (hs : x.state = .vblank) (h : x.OnTime) (hover : vblankTicks ≤ x.ticks + n) :
    (x.scan n).line = scanlineMax := by
  by_contra hne
  have hlt := Nat.lt_of_le_of_ne (scan_line n hx hs).2 hne
  have hle := scan_onTime hx hs h hlt
  have hbound := scanned_lt (scan_vscan hx.1 hmax) hlt
  simp only [vblankTicks] at hover
  omega

theorem move_onTime {x y : Timing} {n : Nat} {es : List Event} (hx : x.Inv) (hmax : n ≤ 20)
    (hok : x.Timely n) (h : x.OnTime) (hmove : Move n x es y) : y.OnTime := by
  intro hy hl
  cases hmove with
  | oamStay hs | vramStay hs | hblankStay hs =>
    rw [show x.state = .vblank from hy] at hs
    cases hs
  | oamLeave | vramLeave | hblankLeave | vblankLeave => cases hy
  | lastLine hs hover hlast =>
    have hline : x.line + 1 = pixelsPerCol := by
      by_cases hm : x.InVBlankMode
      · rw [startLine, if_pos hm] at hlast
        cases hlast
      · rwa [startLine, if_neg hm] at hlast
    have hle := hok hs hline hover
    unfold scanned
    rw [hlast]
    simp only [pixelsPerCol]
    omega
  | vblankStart hs | vblankStay hs => exact scan_onTime hx hs h hl
  | vblankLate hs _ hover hne => exact absurd (scan_line_of_onTime hx hmax hs h hover) hne

theorem run_onTime {log : List Event} {x : Timing}
    (h : Trace.Run (Step Timely) reset log x) : x.Inv ∧ x.OnTime := by
  refine run_rule h (P := fun _ x => x.OnTime) reset_inv ?_ ?_
  · intro hs
    cases hs
  · intro log x n es y hP hx _ hmax hok hmove
    exact move_onTime hx hmax hok hP hmove

/-! ## Cycles in the vblank -/

section VBlank

variable {x : Timing} {n : Nat} (hx : x.Inv) (hmax : n ≤ 20) (hs : x.state = .vblank)

include hx hmax hs

theorem cycle_vblank :
    (x.ticks + n < vblankTicks ∧ (x.cycle n).1 = x.scan n) ∨
      (vblankTicks ≤ x.ticks + n ∧ (x.cycle n).1 =
        { x.scan n with
          state := if (x.scan n).line = scanlineMax then .hblank else .vblank
          ticks := x.ticks + n - vblankTicks }) := by
  have hmove := cycle_move hx hmax
  generalize (x.cycle n).1 = y at hmove ⊢
  generalize (x.cycle n).2 = es at hmove
  cases hmove with
  | vblankStart _ _ h | vblankStay _ _ h => exact .inl ⟨h, rfl⟩
  | vblankLate _ _ h hl => exact .inr ⟨h, by rw [if_neg hl]⟩
  | vblankLeave _ _ h hl => exact .inr ⟨h, by rw [if_pos hl]⟩
  | oamStay hs' | oamLeave hs' | vramStay hs' | vramLeave hs' | hblankStay hs' | hblankLeave hs'
  | lastLine hs' =>
    rw [hs] at hs'
    cases hs'

theorem cycle_within (h : x.ticks + n < vblankTicks) : (x.cycle n).1 = x.scan n := by
  rcases cycle_vblank hx hmax hs with ⟨-, heq⟩ | ⟨hover, -⟩
  · exact heq
  · exact absurd h (Nat.not_lt.mpr hover)

/-- Whether the period is over or not, the line is the one that has been counted. -/
theorem cycle_line : (x.cycle n).1.line = (x.scan n).line := by
  rcases cycle_vblank hx hmax hs with ⟨-, heq⟩ | ⟨-, heq⟩ <;> rw [heq]

/-- With the last line counted, the end of the period is the end of the vblank. -/
theorem cycle_end (h : vblankTicks ≤ x.ticks + n) (hl : (x.scan n).line = scanlineMax) :
    (x.cycle n).1.line = scanlineMax ∧ (x.cycle n).1.state = .hblank ∧
      (x.cycle n).1.ticks + vblankTicks = x.ticks + n := by
  rcases cycle_vblank hx hmax hs with ⟨hin, -⟩ | ⟨-, heq⟩
  · exact absurd hin (Nat.not_lt.mpr h)
  · rw [heq, if_pos hl]
    exact ⟨hl, rfl, Nat.sub_add_cancel h⟩

end VBlank

/-- Inside the period and before the last line, both counters only add up. -/
theorem cycles_within {x : Timing} (hx : x.Inv) (hs : x.state = .vblank)
    (hl : x.line < scanlineMax) {ns : List Nat} (hns : ∀ n ∈ ns, n ≤ 20)
    (ht : x.ticks + ns.sum < vblankTicks) (hc : x.scanned + ns.sum < 414 * 155) :
    (x.cycles ns).Inv ∧ (x.cycles ns).state = .vblank ∧ (x.cycles ns).line < scanlineMax ∧
      (x.cycles ns).ticks = x.ticks + ns.sum ∧ (x.cycles ns).scanned = x.scanned + ns.sum := by
  induction ns generalizing x with
  | nil => exact ⟨hx, hs, hl, rfl, rfl⟩
  | cons n ns ih =>
    have hmax := hns n (by simp)
    rw [List.sum_cons] at ht hc
    have hcycle := cycle_within hx hmax hs (n := n) (by omega)
    have hline := scan_line_lt (n := n) hx hs hl (by omega)
    have hscan := (scan_scanned hx hs hline).2
    have hinv : (x.scan n).Inv := hcycle ▸ move_inv hx hmax (cycle_move hx hmax)
    have hticks : (x.scan n).ticks = x.ticks + n := rfl
    obtain ⟨h1, h2, h3, h4, h5⟩ := ih hinv hs hline (fun m hm => hns m (by simp [hm]))
      (by omega) (by omega)
    have hstep : x.cycles (n :: ns) = (x.scan n).cycles ns := by
      rw [← hcycle]
      rfl
    rw [hstep, List.sum_cons]
    exact ⟨h1, h2, h3, by omega, by omega⟩

/-! ## Runs that are not timely -/

/-- A cycle that is not timely enters the vblank with the remainder that it leaves. -/
theorem cycle_enter_late {x : Timing} {n : Nat} (hx : x.Inv) (hmax : n ≤ 20)
    (h : ¬ x.Timely n) : (x.cycle n).1.state = .vblank ∧ (x.cycle n).1.line = pixelsPerCol ∧
      (x.cycle n).1.ticks + hblankTicks = x.ticks + n ∧
      (x.cycle n).1.vscan + 6 < (x.cycle n).1.ticks := by
  simp only [Timely, Classical.not_imp, Nat.not_le] at h
  obtain ⟨hs, hline, hover, hlate⟩ := h
  obtain ⟨hstate, hl, hticks, hvscan⟩ := cycle_enter hx hmax hs hline hover
  exact ⟨hstate, hl, hticks, by omega⟩

/-- A frame that is not longer than its lines is timely. -/
theorem timely_of_position {x : Timing} {n : Nat} (hx : x.Inv)
    (h : x.position + n ≤ 456 * 144) : x.Timely n := by
  intro hs hl hover
  rw [position_hblank hs, startLine_eq (lastLine_mode hx hs hl)] at h
  simp only [hblankTicks, pixelsPerCol] at hl hover ⊢
  omega

/-- After a cycle that is not timely, the period can end before the last line is counted. -/
theorem late_of_not_timely {x : Timing} {n m : Nat} {ns : List Nat} (hx : x.Inv) (hmax : n ≤ 20)
    (h : ¬ x.Timely n) (hns : ∀ k ∈ ns, k ≤ 20) (hm : m ≤ 20)
    (hin : (x.cycle n).1.ticks + ns.sum < vblankTicks)
    (hover : vblankTicks ≤ (x.cycle n).1.ticks + ns.sum + m)
    (hvscan : (x.cycle n).1.vscan + ns.sum + m < 414 * 11) :
    ((x.cycle n).1.cycles ns).state = .vblank ∧
      vblankTicks ≤ ((x.cycle n).1.cycles ns).ticks + m ∧
      (((x.cycle n).1.cycles ns).cycle m).1.line ≠ scanlineMax := by
  obtain ⟨hs, hl, -, -⟩ := cycle_enter_late hx hmax h
  have hy := move_inv hx hmax (cycle_move hx hmax)
  generalize (x.cycle n).1 = y at hs hl hy hin hover hvscan ⊢
  have hscanned : y.scanned = y.vscan + 414 * 144 := by
    unfold scanned
    rw [hl]
  obtain ⟨hz, hstate, hline, hticks, hz'⟩ := cycles_within hy hs (by rw [hl]; decide) hns hin
    (by omega)
  have hend : vblankTicks ≤ (y.cycles ns).ticks + m := by rwa [hticks]
  refine ⟨hstate, hend, ?_⟩
  rw [cycle_line hz hm hstate]
  exact (scan_line_lt hz hstate hline (by omega)).ne

end Timing

namespace Bus

/-- If this call ends the HBLANK of the last line, it leaves in `m_ticks` at most 6
ticks more than there are in `m_vscan`. -/
def Timely (s : Bus) (ticks : UInt8) : Prop :=
  s.isDisplayEnabled = true → s.timing.Timely ticks.toNat

theorem run_onTime {b s : Bus} {log : List Event} (h : Trace.Run (Step Timely) b.resetGpu log s) :
    s.timing.Inv ∧ s.timing.OnTime := by
  have hrun : Trace.Run (Timing.Step Timing.Timely) b.resetGpu.timing _ s.timing :=
    run_timing (fun _ _ hon hok => hok hon) h
  rw [timing_resetGpu] at hrun
  exact Timing.run_onTime hrun

/-- After a call that is not timely, calls of `u` ticks end the period too early. -/
theorem late_of_not_timely {s : Bus} {t u : UInt8} {k : Nat} (hx : s.timing.Inv)
    (hon : s.isDisplayEnabled = true) (hmax : t.toNat ≤ 20) (h : ¬ s.timing.Timely t.toNat)
    (hpos : 1 ≤ u.toNat) (hu : u.toNat ≤ 20)
    (hin : (s.timing.cycle t.toNat).1.ticks + k * u.toNat < vblankTicks)
    (hover : vblankTicks ≤ (s.timing.cycle t.toNat).1.ticks + k * u.toNat + u.toNat)
    (hvscan : (s.timing.cycle t.toNat).1.vscan + k * u.toNat + u.toNat < 414 * 11) :
    ((s.cycle t).1.cycles (List.replicate k u)).gpu.state = .vblank ∧
      vblankTicks ≤ ((s.cycle t).1.cycles (List.replicate k u)).gpu.ticks + u.toNat ∧
      (((s.cycle t).1.cycles (List.replicate k u)).cycle u).1.scanline.toNat ≠ scanlineMax := by
  have hon' := (s.cycle_isDisplayEnabled t).trans hon
  rw [← sum_replicate] at hin hover hvscan
  have hlate := Timing.late_of_not_timely hx hmax h (nat_le (mem_replicate hpos hu)) hu
    hin hover hvscan
  rw [← (s.cycle_timing t hon).1, ← cycles_timing hon' _,
    ← (cycle_timing _ u ((cycles_isDisplayEnabled _ _).trans hon')).1] at hlate
  exact hlate

/-! ## Calls of one length -/

section Calls

variable {b s : Bus} {ts : List UInt8}

theorem timely_lines (hts : ∀ t ∈ ts, 1 ≤ t.toNat ∧ t.toNat ≤ 20)
    (h : (ts.map UInt8.toNat).sum ≤ 456 * 144) :
    ∃ log, Trace.Run (Step Timely) b.resetGpu log (b.resetGpu.cycles ts) := by
  refine cycles_run hts fun before t after hsplit _ => ?_
  have hle := sum_split hsplit
  have hpos := (hts t (by simp [hsplit])).1
  have hbefore : ∀ u ∈ before, 1 ≤ u.toNat ∧ u.toNat ≤ 20 :=
    fun u hu => hts u (by simp [hsplit, hu])
  obtain ⟨hinv, -, hposition, -⟩ := reset_cycles b hbefore (by omega)
  exact Timing.timely_of_position hinv (by omega)

theorem timely_vblank (hx : s.timing.Inv) (hs : s.timing.state = .vblank)
    (hl : s.timing.line < scanlineMax) (hts : ∀ t ∈ ts, 1 ≤ t.toNat ∧ t.toNat ≤ 20)
    (ht : s.timing.ticks + (ts.map UInt8.toNat).sum < vblankTicks)
    (hc : s.timing.scanned + (ts.map UInt8.toNat).sum < 414 * 155) :
    ∃ log, Trace.Run (Step Timely) s log (s.cycles ts) := by
  refine cycles_run hts fun before t after hsplit hon hh => ?_
  have hle := sum_split hsplit
  have hbefore : ∀ u ∈ before, 1 ≤ u.toNat ∧ u.toNat ≤ 20 :=
    fun u hu => hts u (by simp [hsplit, hu])
  have hstate :=
    (Timing.cycles_within hx hs hl (nat_le hbefore) (by omega) (by omega)).2.1
  rw [← cycles_timing ((cycles_isDisplayEnabled s before).symm.trans hon), hh] at hstate
  cases hstate

/-- Calls of 4 ticks are timely; they lead to where a call of 8 ticks ends the vblank. -/
theorem timely_vblank_end (b : Bus) :
    ∃ (s : Bus) (log : List Event), Trace.Run (Step Timely) b.resetGpu log s ∧
      s.isDisplayEnabled = true ∧ s.gpu.state = .vblank ∧
      vblankTicks ≤ s.gpu.ticks + (8 : UInt8).toNat := by
  have h4 : (4 : UInt8).toNat = 4 := rfl
  have h8 : (8 : UInt8).toNat = 8 := rfl
  -- The lines of the frame, up to the call that enters the vblank.
  obtain ⟨ts, hts, hsum⟩ := exists_calls 16415
  have hts' : ∀ t ∈ ts ++ [4], 1 ≤ t.toNat ∧ t.toNat ≤ 20 := by
    simpa [or_imp, forall_and] using hts
  obtain ⟨log, hrun⟩ := timely_lines (b := b) hts' (by simp [hsum])
  rw [cycles_append] at hrun
  obtain ⟨hinv, hstate, hpos, hvscan⟩ := reset_cycles b hts (by omega)
  have hon := cycles_on b ts
  generalize b.resetGpu.cycles ts = s at hrun hinv hstate hpos hvscan hon
  obtain ⟨hs, hline, hticks⟩ := Timing.state_of_position hinv hstate (by omega)
  have henter := Timing.cycle_enter (n := (4 : UInt8).toNat) hinv (by decide) hs hline
    (by simp only [hblankTicks]; omega)
  have hinv' := Timing.move_inv hinv (by decide) (Timing.cycle_move (n := (4 : UInt8).toNat)
    hinv (by decide))
  have hon' := (s.cycle_isDisplayEnabled 4).trans hon
  rw [← (s.cycle_timing 4 hon).1] at henter hinv'
  change Trace.Run (Step Timely) _ log (s.cycle 4).1 at hrun
  generalize (s.cycle 4).1 = s' at hrun henter hinv' hon'
  obtain ⟨hstate', hline', hticks', hvscan'⟩ := henter
  simp only [hblankTicks] at hticks'
  -- The vblank, up to the call that ends it.
  obtain ⟨us, hus, husum⟩ := exists_calls 1138
  have hscanned : s'.timing.scanned = s'.timing.vscan + 414 * 144 := by
    unfold Timing.scanned
    rw [hline']
  have hlt : s'.timing.line < scanlineMax := by rw [hline']; decide
  have hin : s'.timing.ticks + (us.map UInt8.toNat).sum < vblankTicks := by
    simp only [vblankTicks]
    omega
  have hcounted : s'.timing.scanned + (us.map UInt8.toNat).sum < 414 * 155 := by omega
  obtain ⟨log', hrun'⟩ := timely_vblank hinv' hstate' hlt hus hin hcounted
  obtain ⟨-, hlast, -, hend, -⟩ := Timing.cycles_within hinv' hstate' hlt (nat_le hus) hin hcounted
  rw [← cycles_timing hon'] at hlast hend
  refine ⟨_, _, hrun.trans hrun', (cycles_isDisplayEnabled _ _).trans hon', hlast, ?_⟩
  rw [show (s'.cycles us).gpu.ticks = _ from hend]
  simp only [vblankTicks]
  omega

end Calls

/-! ## The period of the vblank -/

/-- **The vblank lasts one period.** As long as no call ends the last HBLANK with a
remainder too large, LY has reached 155 whenever the period is over, and the call that
ends it leaves the vblank. After any call with a larger remainder, calls of single
ticks end the period before the last line is counted. -/
theorem vblank_period {b s : Bus} {log : List Event} :
    (Trace.Run (Step Timely) b.resetGpu log s →
      ∀ ticks : UInt8, 1 ≤ ticks.toNat → ticks.toNat ≤ 20 → s.isDisplayEnabled = true →
        s.gpu.state = .vblank → vblankTicks ≤ s.gpu.ticks + ticks.toNat →
          (s.cycle ticks).1.scanline.toNat = scanlineMax ∧
          (s.cycle ticks).1.gpu.state = .hblank ∧
          (s.cycle ticks).1.gpu.ticks + vblankTicks = s.gpu.ticks + ticks.toNat) ∧
    (Trace.Run (Step fun _ _ => True) b.resetGpu log s →
      ∀ ticks : UInt8, 1 ≤ ticks.toNat → ticks.toNat ≤ 20 → ¬ s.Timely ticks →
        ∃ k, ((s.cycle ticks).1.cycles (List.replicate k 1)).gpu.state = .vblank ∧
          vblankTicks ≤ ((s.cycle ticks).1.cycles (List.replicate k 1)).gpu.ticks + 1 ∧
          (((s.cycle ticks).1.cycles (List.replicate k 1)).cycle 1).1.scanline.toNat ≠
            scanlineMax) := by
  constructor
  · intro h ticks hpos hmax hon hs hover
    obtain ⟨hinv, htime⟩ := run_onTime h
    have hline := Timing.scan_line_of_onTime hinv hmax hs htime hover
    have hcycle := Timing.cycle_end hinv hmax hs hover hline
    rw [← (s.cycle_timing ticks hon).1] at hcycle
    exact hcycle
  · intro h ticks _ hmax hlate
    obtain ⟨hon, hlate⟩ := Classical.not_imp.mp hlate
    have hinv := run_inv h
    obtain ⟨hstate, -, -, hless⟩ := Timing.cycle_enter_late hinv hmax hlate
    have hbound := Timing.ticks_vblank (Timing.move_inv hinv hmax (Timing.cycle_move hinv hmax))
      hstate
    simp only [vblankTicks] at hbound
    have h1 : (1 : UInt8).toNat = 1 := rfl
    refine ⟨4559 - (s.timing.cycle ticks.toNat).1.ticks, ?_⟩
    refine late_of_not_timely (u := 1) hinv hon hmax hlate (by decide) (by decide) ?_ ?_ ?_
    all_goals
      simp only [vblankTicks, h1]
      omega

/-- In calls of 4 ticks and one of 8, the vblank ends with LY at 155. -/
theorem vblank_period_short_calls :
    ∃ (s : Bus) (log : List Event), Trace.Run (Step Timely) bareConsole.resetGpu log s ∧
      s.gpu.state = .vblank ∧ vblankTicks ≤ s.gpu.ticks + (8 : UInt8).toNat ∧
      (s.cycle 8).1.scanline.toNat = scanlineMax ∧ (s.cycle 8).1.gpu.state = .hblank := by
  obtain ⟨s, log, hrun, hon, hstate, hover⟩ := timely_vblank_end bareConsole
  obtain ⟨hline, hleave, -⟩ := vblank_period.1 hrun 8 (by decide) (by decide) hon hstate hover
  exact ⟨s, log, hrun, hstate, hover, hline, hleave⟩

/-- From reset, 3284 calls of 20 ticks and 1136 calls of 4 ticks: the period of the
vblank is over before its last line. -/
theorem vblank_line_late :
    ¬ ∀ (b s : Bus) (log : List Event), Trace.Run (Step fun _ _ => True) b.resetGpu log s →
      ∀ ticks : UInt8, 1 ≤ ticks.toNat → ticks.toNat ≤ 20 → s.isDisplayEnabled = true →
        s.gpu.state = .vblank → vblankTicks ≤ s.gpu.ticks + ticks.toNat →
          (s.cycle ticks).1.scanline.toNat = scanlineMax := by
  intro h
  obtain ⟨log, hrun⟩ := calls_run bareConsole 3283 1135
  have hsum := sum_replicate 3283 20
  have hts : ∀ t ∈ List.replicate 3283 (20 : UInt8), 1 ≤ t.toNat ∧ t.toNat ≤ 20 :=
    mem_replicate (by decide) (by decide)
  obtain ⟨hinv, hstate, hpos, hvscan⟩ := reset_cycles bareConsole hts (by rw [hsum]; decide)
  have hon := cycles_on bareConsole (List.replicate 3283 20)
  generalize bareConsole.resetGpu.cycles (List.replicate 3283 20) = s
    at hrun hinv hstate hpos hvscan hon
  have h20 : (20 : UInt8).toNat = 20 := rfl
  have h4 : (4 : UInt8).toNat = 4 := rfl
  obtain ⟨hs, hline, hticks⟩ := Timing.state_of_position hinv hstate (by omega)
  have hlate : ¬ s.timing.Timely (20 : UInt8).toNat := by
    intro hok
    have hle := hok hs hline
    simp only [hblankTicks] at hle
    omega
  obtain ⟨-, -, hleft, hless⟩ := Timing.cycle_enter_late hinv (by decide) hlate
  simp only [hblankTicks] at hleft
  obtain ⟨hstate', hover, hline'⟩ := late_of_not_timely (u := 4) (k := 1135) hinv hon (by decide)
    hlate (by decide) (by decide) (by simp only [vblankTicks]; omega)
    (by simp only [vblankTicks]; omega) (by omega)
  refine hline' (h _ _ log hrun 4 (by decide) (by decide) ?_ hstate' hover)
  exact (cycles_isDisplayEnabled _ _).trans ((s.cycle_isDisplayEnabled 20).trans hon)

end Bus

end GbEmu
