import GbEmu.Bus.Guard
import GbEmu.Gpu.Schedule

/-!
LY and the mode. LY is stored by the program as any other register, so it is
consistent with the render state as long as every store is of a line that the
state can be at; a single other store breaks it, at once or when the HBLANK ends.
-/

namespace GbEmu

open Gpu

namespace Timing

/-- The lines that a state can be at. Coming out of a vblank, HBLANK starts the
lines over and does not look at the old one. -/
def LineAllowed (x : Timing) (line : Nat) : Prop :=
  match x.state with
  | .vblank => line ≤ scanlineMax
  | .hblank => line < pixelsPerCol ∨ (x.InVBlankMode ∧ line ≤ scanlineMax)
  | .oam | .vram => line < pixelsPerCol

instance (x : Timing) (line : Nat) : Decidable (x.LineAllowed line) := by
  unfold LineAllowed
  split <;> infer_instance

/-- The line is one that the state can be at, and only the first call of the HBLANK
after a vblank still shows the mode of the vblank. -/
structure LineInv (x : Timing) : Prop where
  allowed : x.LineAllowed x.line
  mode : x.InVBlankMode → x.state = .vblank ∨ x.state = .hblank

theorem lineInv_reset : reset.LineInv := ⟨by decide, by decide⟩

/-! ## A cycle keeps the line -/

section Cycle

variable {x y : Timing} {n : Nat} {es : List Event}

theorem startLine_lt_of_lineInv (hx : x.LineInv) (hs : x.state = .hblank) :
    x.startLine < pixelsPerCol := by
  have ha := hx.allowed
  unfold LineAllowed at ha
  rw [hs] at ha
  unfold startLine
  split_ifs with hm
  · decide
  · exact ha.resolve_right fun h => hm h.1

/-- A move out of OAM, VRAM or HBLANK keeps the line consistent. -/
theorem move_lineInv (hx : x.LineInv) (hs : x.state ≠ .vblank) (h : Move n x es y) :
    y.LineInv := by
  have ha := hx.allowed
  unfold LineAllowed at ha
  cases h with
  | oamStay hs => exact ⟨by simp_all [LineAllowed], fun h => absurd h oam_ne_vblank⟩
  | oamLeave hs => exact ⟨by simp_all [LineAllowed], fun h => absurd h oam_ne_vblank⟩
  | vramStay hs => exact ⟨by simp_all [LineAllowed], fun h => absurd h vram_ne_vblank⟩
  | vramLeave hs => exact ⟨by simp_all [LineAllowed], fun h => absurd h vram_ne_vblank⟩
  | hblankStay hs =>
    have hl := startLine_lt_of_lineInv hx hs
    exact ⟨by simp_all [LineAllowed], fun h => absurd h hblank_ne_vblank⟩
  | hblankLeave hs _ hl => exact ⟨hl, fun h => absurd h hblank_ne_vblank⟩
  | lastLine hs _ hl => exact ⟨le_of_eq_of_le hl (by decide), fun _ => .inl rfl⟩
  | vblankStart h | vblankStay h | vblankLate h | vblankLeave h => exact absurd h hs

theorem cycle_lineInv_vblank (hx : x.LineInv) (hs : x.state = .vblank) (n : Nat) :
    (x.cycle n).1.LineInv := by
  have hh := handle_vblank hs n
  have hline : (x.scan n).line ≤ scanlineMax := by
    have ha : x.line ≤ scanlineMax := by
      have ha := hx.allowed
      unfold LineAllowed at ha
      rwa [hs] at ha
    unfold scan
    split_ifs
    · exact Nat.min_le_right _ _
    · exact ha
  have hscan : (x.scan n).state = .vblank := hs
  by_cases h : (x.scan n).ticks < vblankTicks
  · rw [cycle_stay hh (next_vblank hs) h]
    exact ⟨by rw [LineAllowed, hscan]; exact hline, fun _ => .inl hs⟩
  · rw [cycle_leave hh (next_vblank hs) h]
    by_cases hl : (x.scan n).line = scanlineMax
    · rw [if_pos hl]
      exact ⟨.inr ⟨rfl, hline⟩, fun _ => .inr rfl⟩
    · rw [if_neg hl]
      exact ⟨hline, fun _ => .inl rfl⟩

/-- **A cycle of any length keeps the line consistent.** -/
theorem cycle_lineInv (hx : x.LineInv) (n : Nat) : (x.cycle n).1.LineInv := by
  cases hs : x.state with
  | oam => exact move_lineInv hx (by simp [hs]) (move_oam n hs)
  | vram => exact move_lineInv hx (by simp [hs]) (move_vram n hs)
  | hblank =>
    exact move_lineInv hx (by simp [hs]) (move_hblank n hs (startLine_lt_of_lineInv hx hs))
  | vblank => exact cycle_lineInv_vblank hx hs n

end Cycle

/-! ## Lines that no state can be at -/

/-- LY is a line, and a line of the screen while one is drawn. -/
structure LineConsistent (x : Timing) : Prop where
  le_max : x.line ≤ scanlineMax
  onScreen : x.state = .oam ∨ x.state = .vram → x.line < pixelsPerCol

theorem LineInv.consistent {x : Timing} (hx : x.LineInv) : x.LineConsistent := by
  have ha := hx.allowed
  unfold LineAllowed at ha
  cases hs : x.state <;> rw [hs] at ha
  · refine ⟨?_, by simp [hs]⟩
    rcases ha with hl | ⟨-, hl⟩
    · simp only [pixelsPerCol, scanlineMax] at *
      omega
    · exact hl
  · exact ⟨ha, by simp [hs]⟩
  all_goals
    refine ⟨?_, fun _ => ha⟩
    simp only [pixelsPerCol, scanlineMax] at *
    omega

section Below

variable {x : Timing}

/-- A call in an HBLANK below the screen: it goes on, or OAM starts below the screen. -/
theorem cycle_below (hs : x.state = .hblank) (hm : ¬ x.InVBlankMode)
    (hl : pixelsPerCol ≤ x.line) (hmax : x.line ≤ scanlineMax) (n : Nat) :
    (x.ticks + n < hblankTicks ∧
        (x.cycle n).1 = { x with mode := RenderState.hblank.toByte, ticks := x.ticks + n }) ∨
      ¬ (x.cycle n).1.LineConsistent := by
  have hstart := handle_hblank hs n
  have hline : (if x.mode = RenderState.vblank.toByte then 0 else x.line) = x.line := if_neg hm
  by_cases h : x.ticks + n < hblankTicks
  · have hh : { x with ticks := x.ticks + n }.handleHBlank =
        ({ x with mode := RenderState.hblank.toByte, ticks := x.ticks + n }, []) := by
      unfold handleHBlank
      simp only [hline]
      exact if_pos h
    rw [cycle_stay (hstart.trans hh) (next_hblank hs) h]
    exact .inl ⟨h, rfl⟩
  · have hh : { x with ticks := x.ticks + n }.handleHBlank =
        ({ x with
          mode := RenderState.hblank.toByte
          ticks := x.ticks + n
          line := (x.line + 1) % 256 }, [.updateScreen x.line]) := by
      unfold handleHBlank
      simp only [hline]
      exact if_neg h
    simp only [pixelsPerCol, scanlineMax] at hl hmax
    rw [Nat.mod_eq_of_lt (by omega)] at hh
    have hne : x.line + 1 ≠ pixelsPerCol := by
      simp only [pixelsPerCol]
      omega
    rw [cycle_leave (hstart.trans hh) (next_hblank hs) h, if_neg hne]
    refine .inr fun hc => ?_
    have hlt : x.line + 1 < 144 := hc.onScreen (.inl rfl)
    omega

/-- An HBLANK below the screen ends in OAM below the screen. -/
theorem hblank_inconsistent {m : Nat} (hs : x.state = .hblank) (hm : ¬ x.InVBlankMode)
    (hl : pixelsPerCol ≤ x.line) (hmax : x.line ≤ scanlineMax)
    (ht : hblankTicks ≤ x.ticks + 20 * m) :
    ∃ k, ¬ (x.cycles (List.replicate k 20)).LineConsistent := by
  induction m generalizing x with
  | zero =>
    refine ⟨1, (cycle_below hs hm hl hmax 20).resolve_left fun hstay => ?_⟩
    exact absurd (Nat.le_trans ht (Nat.le_add_right _ 20)) (Nat.not_le.mpr hstay.1)
  | succ m ih =>
    rcases cycle_below hs hm hl hmax 20 with ⟨-, hstay⟩ | hc
    · have hrest : ∃ k, ¬ ((x.cycle 20).1.cycles (List.replicate k 20)).LineConsistent := by
        rw [hstay]
        exact ih hs hblank_ne_vblank hl hmax (by simp only; omega)
      obtain ⟨k, hk⟩ := hrest
      exact ⟨k + 1, hk⟩
    · exact ⟨1, hc⟩

/-- A line that the state cannot be at makes LY inconsistent, at once or later. -/
theorem inconsistent_of_not_allowed (h : ¬ x.LineAllowed x.line) :
    ∃ k, ¬ (x.cycles (List.replicate k 20)).LineConsistent := by
  by_cases hmax : x.line ≤ scanlineMax
  · unfold LineAllowed at h
    cases hs : x.state <;> simp only [hs] at h
    · obtain ⟨hl, hm⟩ := not_or.mp h
      exact hblank_inconsistent (m := 11) hs (fun h => hm ⟨h, hmax⟩) (Nat.not_lt.mp hl) hmax
        (by simp only [hblankTicks]; omega)
    · exact absurd hmax h
    · exact ⟨0, fun hc => h (hc.onScreen (.inl hs))⟩
    · exact ⟨0, fun hc => h (hc.onScreen (.inr hs))⟩
  · exact ⟨0, fun hc => hmax hc.le_max⟩

end Below

end Timing

namespace Bus

/-- LY, as the graphics unit and the program see it, is consistent with the state. -/
structure LineConsistent (s : Bus) : Prop where
  le_max : s.scanline.toNat ≤ scanlineMax
  onScreen : s.gpu.state = .oam ∨ s.gpu.state = .vram → s.scanline.toNat < pixelsPerCol

theorem lineConsistent_iff (s : Bus) : s.LineConsistent ↔ s.timing.LineConsistent :=
  ⟨fun h => ⟨h.le_max, h.onScreen⟩, fun h => ⟨h.le_max, h.onScreen⟩⟩

/-- Stores to LY are of a line that the state can be at. -/
def lineGuard (s : Bus) (address : UInt16) (value : UInt8) : Bool :=
  address != gpuScanlineAddress || decide (s.timing.LineAllowed value.toNat)

/-- The writes of the program, of some kind, among calls of the graphics unit. -/
inductive Interleaved (written : Bus → Bus → Prop) : Bus → Bus → Prop
  | cycle (s : Bus) (ticks : UInt8) (hpos : 1 ≤ ticks.toNat) (hmax : ticks.toNat ≤ 20) :
      Interleaved written s (s.cycle ticks).1
  | write {s s' : Bus} (h : written s s') : Interleaved written s s'

theorem guardedUpdate_lineInv {s s' : Bus} (h : GuardedUpdate lineGuard s s')
    (hs : s.timing.LineInv) : s'.timing.LineInv := by
  cases h with
  | other hu hio =>
    have hline : s'.scanline = s.scanline := congrFun hio _
    rw [update_timing hu, hline]
    exact hs
  | status value =>
    rw [update_timing (.status value), show (s.writeBytes gpuStatusAddress value 0x78).scanline =
      s.scanline from setIo_io_of_ne _ (by decide) _]
    exact hs
  | plain address value hp ha =>
    by_cases hl : address = gpuScanlineAddress
    · subst hl
      have hallowed : s.timing.LineAllowed value.toNat := by simpa [lineGuard] using ha
      have hline : (s.setIo gpuScanlineAddress value).timing =
          { s.timing with line := value.toNat } := s.timing_setScanline value
      rw [hline]
      exact ⟨hallowed, hs.mode⟩
    · have hne : address ≠ gpuStatusAddress := by
        rintro rfl
        exact hp (by decide)
      rw [s.timing_setIo value hne hl]
      exact hs
  | special address stored hp hne =>
    rw [s.timing_setIo stored hne fun e => absurd (e ▸ hp) (by decide)]
    exact hs

theorem interleaved_lineInv {s s' : Bus} (h : Interleaved (GuardedStep lineGuard) s s')
    (hs : s.timing.LineInv) : s'.timing.LineInv := by
  cases h with
  | cycle ticks =>
    by_cases hon : s.isDisplayEnabled = true
    · rw [(s.cycle_timing ticks hon).1]
      exact Timing.cycle_lineInv hs _
    · rw [s.cycle_off ticks (by simpa using hon)]
      exact hs
  | write hw =>
    obtain ⟨depth, address, value, hw⟩ := hw
    have hupdates := guardedWrite_updates hw
    clear hw
    induction hupdates with
    | refl => exact hs
    | tail _ hu ih => exact guardedUpdate_lineInv hu ih

theorem run_lineInv {b s : Bus}
    (h : Relation.ReflTransGen (Interleaved (GuardedStep lineGuard)) b.resetGpu s) :
    s.timing.LineInv := by
  induction h with
  | refl =>
    rw [timing_resetGpu]
    exact Timing.lineInv_reset
  | tail _ hstep ih => exact interleaved_lineInv hstep ih

theorem write_scanline (s : Bus) (depth : Nat) (value : UInt8) :
    write (depth + 1) s gpuScanlineAddress value = .ok (s.setScanline value) := by
  rw [s.write_io depth ((s.find_io_iff _).mpr (by decide)), writeIo_plain (by decide)]
  rfl

/-- **LY and the mode.** In a run that stores to FF44 only lines that the state can be
at, LY is consistent with the state; and with the display on, a store of any other
line makes it inconsistent within a few calls. -/
theorem scanline_consistent (s : Bus) :
    (∀ b : Bus, Relation.ReflTransGen (Interleaved (GuardedStep lineGuard)) b.resetGpu s →
      s.LineConsistent) ∧
    (s.isDisplayEnabled = true → ∀ value : UInt8, ¬ s.timing.LineAllowed value.toNat →
      ∃ s', write 1 s gpuScanlineAddress value = .ok s' ∧
        ∃ k, ¬ (s'.cycles (List.replicate k 20)).LineConsistent) := by
  constructor
  · intro b h
    exact s.lineConsistent_iff.mpr (run_lineInv h).consistent
  · intro hon value hnot
    have hbad : ¬ (s.setScanline value).timing.LineAllowed (s.setScanline value).timing.line := by
      rw [timing_setScanline]
      exact hnot
    obtain ⟨k, hk⟩ := Timing.inconsistent_of_not_allowed hbad
    have hon' : (s.setScanline value).isDisplayEnabled = true := by
      unfold isDisplayEnabled control at hon ⊢
      rwa [setScanline, setIo_io_of_ne _ (by decide)]
    refine ⟨_, s.write_scanline 0 value, k, fun hc => hk ?_⟩
    rw [lineConsistent_iff, cycles_timing hon', List.map_replicate] at hc
    exact hc

/-- After reset, one write of 5 to FF44. -/
theorem scanline_consistent_five : (bareConsole.resetGpu.setScanline 5).LineConsistent := by
  have hallowed : lineGuard bareConsole.resetGpu gpuScanlineAddress 5 = true := by
    rw [lineGuard, timing_resetGpu]
    decide
  have hw : guardedWrite lineGuard 1 bareConsole.resetGpu gpuScanlineAddress 5 =
      .ok (bareConsole.resetGpu.setScanline 5) := by
    rw [guardedWrite, if_pos hallowed, route,
      (bareConsole.resetGpu.find_io_iff gpuScanlineAddress).mpr (by decide)]
    exact writeIo_plain (by decide)
  exact (scanline_consistent _).1 bareConsole (.single (.write ⟨1, _, _, hw⟩))

/-- After reset, one write of 200 to FF44. -/
theorem scanline_overwritten :
    ¬ ∀ b s : Bus, Relation.ReflTransGen
        (Interleaved fun s s' => ∃ depth address value, write depth s address value = .ok s')
        b.resetGpu s → s.LineConsistent := by
  intro hall
  have hline : (bareConsole.resetGpu.setScanline 200).scanline = 200 := setIo_io_self _ _ _
  have hc := hall bareConsole _ (.single (.write ⟨1, _, _, write_scanline _ 0 200⟩))
  exact absurd hc.le_max (by rw [hline]; decide)

end Bus

end GbEmu
