import Mathlib.Algebra.GroupWithZero.Nat
import GbEmu.Gpu.Schedule

/-!
How far a frame is, in ticks: before the vblank a call moves on by as many ticks as
it is given, so the state after a list of calls from reset is known from their sum.
-/

namespace GbEmu

open Gpu

namespace Timing

def lineTicks : Nat := oamTicks + vramTicks + hblankTicks

/-- The ticks of a whole frame up to here; a line takes all of its three periods. -/
def position (x : Timing) : Nat :=
  match x.state with
  | .oam => lineTicks * x.line + x.ticks
  | .vram => lineTicks * x.line + oamTicks + x.ticks
  | .hblank => lineTicks * x.startLine + oamTicks + vramTicks + x.ticks
  | .vblank => lineTicks * pixelsPerCol

section Position

variable {x : Timing}

theorem position_oam (hs : x.state = .oam) : x.position = 456 * x.line + x.ticks := by
  simp only [position, hs]
  rfl

theorem position_vram (hs : x.state = .vram) : x.position = 456 * x.line + 80 + x.ticks := by
  simp only [position, hs]
  rfl

theorem position_hblank (hs : x.state = .hblank) :
    x.position = 456 * x.startLine + 80 + 172 + x.ticks := by
  simp only [position, hs]
  rfl

end Position

theorem position_lt {x : Timing} (hx : x.Inv) (hs : x.state ≠ .vblank) :
    x.position < 456 * (x.startLine + 1) := by
  cases hstate : x.state with
  | vblank => exact absurd hstate hs
  | oam =>
    obtain ⟨-, hm, ht, -⟩ := (inv_oam_iff hstate).mp hx
    rw [position_oam hstate, startLine_eq hm]
    simp only [oamTicks] at ht
    omega
  | vram =>
    obtain ⟨-, hm, ht, -⟩ := (inv_vram_iff hstate).mp hx
    rw [position_vram hstate, startLine_eq hm]
    simp only [vramTicks] at ht
    omega
  | hblank =>
    have ht := ticks_hblank hx hstate
    rw [position_hblank hstate]
    simp only [hblankTicks] at ht
    omega

/-- Until the vblank is due, a move goes on in the frame by its ticks. -/
theorem move_position {x y : Timing} {n : Nat} {es : List Event} (hx : x.Inv)
    (hs : x.state ≠ .vblank) (hn : x.position + n < 456 * 144) (hmove : Move n x es y) :
    y.state ≠ .vblank ∧ y.position = x.position + n ∧ y.vscan = x.vscan := by
  cases hmove with
  | oamStay hs' h =>
    refine ⟨hs, ?_, rfl⟩
    rw [position_oam hs', position_oam (by exact hs')]
    exact (Nat.add_assoc _ _ _).symm
  | oamLeave hs' h =>
    have hlt := ((inv_oam_iff hs').mp hx).2.2.1
    refine ⟨by simp, ?_, rfl⟩
    rw [position_oam hs', position_vram rfl]
    simp only [oamTicks] at h ⊢
    omega
  | vramStay hs' h =>
    refine ⟨hs, ?_, rfl⟩
    rw [position_vram hs', position_vram (by exact hs')]
    exact (Nat.add_assoc _ _ _).symm
  | vramLeave hs' h =>
    refine ⟨by simp, ?_, rfl⟩
    rw [position_vram hs', position_hblank rfl, startLine_eq (by exact vram_ne_vblank)]
    simp only [vramTicks] at h ⊢
    omega
  | hblankStay hs' h =>
    refine ⟨hs, ?_, rfl⟩
    rw [position_hblank hs', position_hblank (by exact hs'),
      startLine_eq (by exact hblank_ne_vblank)]
    exact (Nat.add_assoc _ _ _).symm
  | hblankLeave hs' h hl =>
    refine ⟨by simp, ?_, rfl⟩
    rw [position_hblank hs', position_oam rfl]
    simp only [hblankTicks] at h ⊢
    omega
  | lastLine hs' h hl =>
    rw [position_hblank hs'] at hn
    simp only [hblankTicks, pixelsPerCol] at h hl
    omega
  | vblankStart hs' | vblankStay hs' | vblankLate hs' | vblankLeave hs' => exact absurd hs' hs

/-- The same for cycles: the frame goes on by all of their ticks. -/
theorem cycles_position {x : Timing} (hx : x.Inv) (hs : x.state ≠ .vblank) {ns : List Nat}
    (hns : ∀ n ∈ ns, n ≤ 20) (h : x.position + ns.sum < 456 * 144) :
    (x.cycles ns).Inv ∧ (x.cycles ns).state ≠ .vblank ∧
      (x.cycles ns).position = x.position + ns.sum ∧ (x.cycles ns).vscan = x.vscan := by
  induction ns generalizing x with
  | nil => exact ⟨hx, hs, rfl, rfl⟩
  | cons n ns ih =>
    have hmax := hns n (by simp)
    rw [List.sum_cons] at h ⊢
    have hmove := cycle_move hx hmax
    obtain ⟨hs', hp, hv⟩ := move_position hx hs (by omega) hmove
    obtain ⟨h1, h2, h3, h4⟩ := ih (move_inv hx hmax hmove) hs'
      (fun m hm => hns m (by simp [hm])) (by omega)
    refine ⟨h1, h2, ?_, h4.trans hv⟩
    rw [← Nat.add_assoc, ← hp]
    exact h3

/-- Where the last HBLANK is, in ticks of the frame. -/
theorem state_of_position {x : Timing} (hx : x.Inv) (hs : x.state ≠ .vblank)
    (hp : 456 * 143 + 80 + 172 ≤ x.position) :
    x.state = .hblank ∧ x.line + 1 = pixelsPerCol ∧
      x.position = 456 * 143 + 80 + 172 + x.ticks := by
  cases hstate : x.state with
  | vblank => exact absurd hstate hs
  | oam =>
    obtain ⟨-, -, ht, hl⟩ := (inv_oam_iff hstate).mp hx
    rw [position_oam hstate] at hp
    simp only [oamTicks, pixelsPerCol] at ht hl
    omega
  | vram =>
    obtain ⟨-, -, ht, hl⟩ := (inv_vram_iff hstate).mp hx
    rw [position_vram hstate] at hp
    simp only [vramTicks, pixelsPerCol] at ht hl
    omega
  | hblank =>
    have ht := ticks_hblank hx hstate
    have hl := startLine_lt hx hstate
    rw [position_hblank hstate] at hp ⊢
    simp only [hblankTicks, pixelsPerCol] at ht hl
    have hlast : x.startLine = 143 := by omega
    have hm : ¬ x.InVBlankMode := by
      intro hm
      rw [startLine, if_pos hm] at hlast
      cases hlast
    rw [startLine_eq hm] at hlast ⊢
    exact ⟨rfl, congrArg (· + 1) hlast, by omega⟩

theorem lastLine_mode {x : Timing} (hx : x.Inv) (hs : x.state = .hblank)
    (hline : x.line + 1 = pixelsPerCol) : ¬ x.InVBlankMode := by
  intro hm
  rcases ((inv_hblank_iff hs).mp hx).2 with ⟨hm', -⟩ | ⟨-, -, hl⟩
  · exact hm' hm
  · rw [hl] at hline
    cases hline

/-- The end of the last HBLANK is the entry into the vblank. -/
theorem cycle_enter {x : Timing} {n : Nat} (hx : x.Inv) (hmax : n ≤ 20) (hs : x.state = .hblank)
    (hline : x.line + 1 = pixelsPerCol) (hover : hblankTicks ≤ x.ticks + n) :
    (x.cycle n).1.state = .vblank ∧ (x.cycle n).1.line = pixelsPerCol ∧
      (x.cycle n).1.ticks + hblankTicks = x.ticks + n ∧ (x.cycle n).1.vscan = x.vscan := by
  have hmove := cycle_move hx hmax
  generalize (x.cycle n).1 = y at hmove ⊢
  generalize (x.cycle n).2 = es at hmove
  cases hmove with
  | lastLine _ _ hl => exact ⟨rfl, hl, Nat.sub_add_cancel hover, rfl⟩
  | hblankStay _ hin => exact absurd hin (Nat.not_lt.mpr hover)
  | hblankLeave _ _ hl =>
    rw [startLine_eq (lastLine_mode hx hs hline), hline] at hl
    exact absurd hl (Nat.lt_irrefl _)
  | oamStay hs' | oamLeave hs' | vramStay hs' | vramLeave hs' | vblankStart hs' | vblankStay hs'
  | vblankLate hs' | vblankLeave hs' =>
    rw [hs] at hs'
    cases hs'

end Timing

/-! ## Calls from reset -/

namespace Bus

section Calls

variable {ts : List UInt8}

theorem sum_replicate (k : Nat) (t : UInt8) :
    ((List.replicate k t).map UInt8.toNat).sum = k * t.toNat := by
  simp

theorem mem_replicate {k : Nat} {t : UInt8} (hpos : 1 ≤ t.toNat) (hmax : t.toNat ≤ 20) :
    ∀ u ∈ List.replicate k t, 1 ≤ u.toNat ∧ u.toNat ≤ 20 := by
  intro u hu
  rw [List.eq_of_mem_replicate hu]
  exact ⟨hpos, hmax⟩

theorem nat_le (hts : ∀ t ∈ ts, 1 ≤ t.toNat ∧ t.toNat ≤ 20) :
    ∀ n ∈ ts.map UInt8.toNat, n ≤ 20 := by
  intro n hn
  obtain ⟨t, ht, rfl⟩ := List.mem_map.mp hn
  exact (hts t ht).2

theorem sum_split {before after : List UInt8} {t : UInt8} (h : ts = before ++ t :: after) :
    (before.map UInt8.toNat).sum + t.toNat ≤ (ts.map UInt8.toNat).sum := by
  rw [h, List.map_append, List.sum_append, List.map_cons, List.sum_cons]
  omega

theorem cycles_on (b : Bus) (ts : List UInt8) : (b.resetGpu.cycles ts).isDisplayEnabled = true :=
  (cycles_isDisplayEnabled _ ts).trans b.resetGpu_isDisplayEnabled

/-- The first lines after reset, by the ticks they have taken. -/
theorem reset_cycles (b : Bus) (hts : ∀ t ∈ ts, 1 ≤ t.toNat ∧ t.toNat ≤ 20)
    (h : (ts.map UInt8.toNat).sum < 456 * 144) :
    (b.resetGpu.cycles ts).timing.Inv ∧ (b.resetGpu.cycles ts).timing.state ≠ .vblank ∧
      (b.resetGpu.cycles ts).timing.position = (ts.map UInt8.toNat).sum ∧
      (b.resetGpu.cycles ts).timing.vscan = 0 := by
  rw [cycles_timing b.resetGpu_isDisplayEnabled, timing_resetGpu]
  have hlines := Timing.cycles_position Timing.reset_inv (by decide) (nat_le hts)
    (by simpa [Timing.position, Timing.reset] using h)
  simpa [Timing.position, Timing.reset] using hlines

theorem calls_run (b : Bus) (k m : Nat) :
    ∃ log, Trace.Run (Step fun _ _ => True) b.resetGpu log
      (((b.resetGpu.cycles (List.replicate k 20)).cycle 20).1.cycles (List.replicate m 4)) := by
  have hall := b.resetGpu.cycles_run_any (List.replicate (k + 1) 20 ++ List.replicate m 4)
    fun t ht => (List.mem_append.mp ht).elim (mem_replicate (by decide) (by decide) t)
      (mem_replicate (by decide) (by decide) t)
  rwa [cycles_append, List.replicate_succ', cycles_append] at hall

theorem exists_calls (k : Nat) :
    ∃ ts : List UInt8, (∀ t ∈ ts, 1 ≤ t.toNat ∧ t.toNat ≤ 20) ∧
      (ts.map UInt8.toNat).sum = k * 4 :=
  ⟨List.replicate k 4, mem_replicate (by decide) (by decide), sum_replicate k 4⟩

end Calls

end Bus

end GbEmu
