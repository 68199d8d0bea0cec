import Mathlib.Logic.Function.Iterate
import Mathlib.Logic.Relation
import Mathlib.Tactic.SplitIfs
import GbEmu.Pause

/-!
What a `Halt` object excludes. The paused flag of the CPU thread is set from the
start and stays set until the thread, having found the pause flag clear, comes to
clear it; a constructor that sees it in between does not wait.
-/

namespace GbEmu

namespace Worker

/-- Past the check of the pause flag, and not yet marked as running. -/
def Leaving (w : Worker) : Prop :=
  w.paused = true ∧ (w.pc = .resumed ∨ w.pc = .clearPaused)

instance (w : Worker) : Decidable w.Leaving := by
  unfold Leaving
  infer_instance

/-- Marked as paused, and kept from its work until the pause flag is cleared. -/
structure Parked (w : Worker) : Prop where
  pause : w.pause = true
  paused : w.paused = true
  pc : w.pc ≠ .resumed ∧ w.pc ≠ .clearPaused ∧ w.pc ≠ .working

/-- Only the worker itself writes its paused flag, and it clears it before its work. -/
structure Marked (w : Worker) : Prop where
  working : w.pc = .working → w.paused = false
  setPaused : w.pc = .setPaused → w.paused = false

theorem marked_step {w : Worker} (h : w.Marked) : w.step.Marked := by
  obtain ⟨pc, pause, paused⟩ := w
  cases pc with
  | paused | resumed => cases paused <;> exact ⟨by simp [step], by simp [step]⟩
  | check => cases pause <;> exact ⟨by simp [step], by simp [step]⟩
  | starting | setPaused | sleeping | clearPaused | working =>
    exact ⟨by simp [step], by simp [step]⟩

theorem parked_step {w : Worker} (h : w.Parked) : w.step.Parked := by
  obtain ⟨pc, pause, paused⟩ := w
  obtain ⟨hpause, hpaused, hpc⟩ := h
  subst hpause hpaused
  cases pc with
  | resumed => exact absurd rfl hpc.1
  | clearPaused => exact absurd rfl hpc.2.1
  | working => exact absurd rfl hpc.2.2
  | starting | check | paused | setPaused | sleeping => exact ⟨rfl, rfl, by simp [step]⟩

/-- A worker that is marked as paused and not leaving is parked by the pause flag. -/
theorem parked_of_paused {w : Worker} (hm : w.Marked) (hpause : w.pause = true)
    (hpaused : w.paused = true) (hl : ¬ w.Leaving) : w.Parked := by
  refine ⟨hpause, hpaused, fun h => hl ⟨hpaused, .inl h⟩, fun h => hl ⟨hpaused, .inr h⟩, ?_⟩
  intro h
  exact absurd (hm.working h) (by simp [hpaused])

theorem Marked.setPause {w : Worker} (h : w.Marked) (pause : Bool) :
    { w with pause := pause }.Marked :=
  ⟨h.working, h.setPaused⟩

theorem Parked.setPause {w : Worker} (h : w.Parked) : { w with pause := true }.Parked :=
  ⟨rfl, h.paused, h.pc⟩

/-- Asked to pause, a worker is marked as paused after a few of its steps. -/
theorem paused_soon {w : Worker} (h : w.pause = true) : ∃ k, (step^[k] w).paused = true := by
  obtain ⟨pc, pause, paused⟩ := w
  subst h
  cases paused with
  | true => exact ⟨0, rfl⟩
  | false =>
    cases pc with
    | setPaused => exact ⟨1, rfl⟩
    | paused => exact ⟨2, rfl⟩
    | check => exact ⟨3, rfl⟩
    | starting | sleeping | working => exact ⟨4, rfl⟩
    | resumed | clearPaused => exact ⟨5, rfl⟩

/-- With the pause flag clear, a worker comes to its work after a few steps. -/
theorem working_soon {w : Worker} (h : w.pause = false) : ∃ k, (step^[k] w).pc = .working := by
  obtain ⟨pc, pause, paused⟩ := w
  subst h
  cases paused with
  | false =>
    cases pc with
    | working => exact ⟨0, rfl⟩
    | resumed | clearPaused => exact ⟨1, rfl⟩
    | check => exact ⟨2, rfl⟩
    | starting | sleeping => exact ⟨3, rfl⟩
    | setPaused => exact ⟨5, rfl⟩
    | paused => exact ⟨6, rfl⟩
  | true =>
    cases pc with
    | working => exact ⟨0, rfl⟩
    | clearPaused => exact ⟨1, rfl⟩
    | resumed => exact ⟨2, rfl⟩
    | check => exact ⟨3, rfl⟩
    | starting | sleeping => exact ⟨4, rfl⟩
    | paused | setPaused => exact ⟨5, rfl⟩

/-- A worker that is leaving its pause comes to its work whatever the pause flag says. -/
theorem leaving_works {w : Worker} (h : w.Leaving) : ∃ k, (step^[k] w).pc = .working := by
  obtain ⟨pc, pause, paused⟩ := w
  obtain ⟨hpaused, hpc⟩ := h
  subst hpaused
  rcases hpc with rfl | rfl
  · exact ⟨2, rfl⟩
  · exact ⟨1, rfl⟩

end Worker

namespace GameBoy

/-- The CPU thread is not in `m_cpu.cycle()` while there is a `Halt`. -/
def Excluded (g : GameBoy) : Prop := 0 < g.halts → g.cpu.pc ≠ .working

/-- The steps that keep the exclusion: the constructor stops waiting only when the
CPU thread is not leaving its pause, and a `Halt` that goes is the only one. -/
def Safe (g : GameBoy) : Action → Prop
  | .control => g.control = .waitCpu → ¬ g.cpu.Leaving
  | .destroy => g.halts = 1
  | .cpu | .timer | .construct => True

instance (g : GameBoy) : (a : Action) → Decidable (g.Safe a)
  | .control => inferInstanceAs (Decidable (g.control = .waitCpu → ¬ g.cpu.Leaving))
  | .destroy => inferInstanceAs (Decidable (g.halts = 1))
  | .cpu | .timer | .construct => .isTrue trivial

def SafeStep (g h : GameBoy) : Prop := ∃ a, g.Safe a ∧ g.step a = some h

/-- There is a `Halt`, or a constructor has seen the CPU thread paused. -/
def Holding (g : GameBoy) : Prop :=
  0 < g.halts ∨ g.control = .pauseTimer ∨ g.control = .waitTimer ∨ g.control = .sleepTimer

structure Inv (g : GameBoy) : Prop where
  marked : g.cpu.Marked
  parked : g.Holding → g.cpu.Parked
  waiting : g.control = .waitCpu ∨ g.control = .sleepCpu → g.cpu.pause = true
  resuming : g.control = .resetClock ∨ g.control = .resumeCpu ∨ g.control = .resumeTimer →
    g.halts = 0

theorem started_inv : started.Inv where
  marked := ⟨by decide, by decide⟩
  parked := by simp [Holding, started]
  waiting := by decide
  resuming := by decide

theorem controlStep_inv {g h : GameBoy} (hg : g.Inv)
    (hsafe : g.control = .waitCpu → ¬ g.cpu.Leaving) (hstep : g.controlStep = some h) : h.Inv := by
  obtain ⟨hm, hp, hw, hr⟩ := hg
  unfold controlStep at hstep
  cases hc : g.control with
  | idle => simp [hc] at hstep
  | pauseCpu =>
    obtain rfl : _ = h := by simpa [hc] using hstep
    refine ⟨hm.setPause true, fun hold => ?_, fun _ => rfl, by simp⟩
    have hpos : 0 < g.halts := by simpa [Holding, pauseFlags] using hold
    exact (hp (.inl hpos)).setPause
  | waitCpu =>
    obtain rfl : _ = h := by simpa [hc] using hstep
    have hpause := hw (.inl hc)
    refine ⟨hm, fun hold => ?_, fun _ => hpause, ?_⟩
    · by_cases hpaused : g.cpu.paused = true
      · exact Worker.parked_of_paused hm hpause hpaused (hsafe hc)
      · exact hp (.inl (by simpa [Holding, hpaused] using hold))
    · intro h
      split_ifs at h <;> simp at h
  | sleepCpu =>
    obtain rfl : _ = h := by simpa [hc] using hstep
    refine ⟨hm, fun hold => hp (.inl (by simpa [Holding] using hold)), fun _ => hw (.inr hc), ?_⟩
    simp
  | pauseTimer =>
    obtain rfl : _ = h := by simpa [hc] using hstep
    exact ⟨hm, fun _ => hp (.inr (.inl hc)), by simp, by simp⟩
  | waitTimer =>
    have hpark := hp (.inr (.inr (.inl hc)))
    simp only [hc] at hstep
    split_ifs at hstep
    · obtain rfl : _ = h := by simpa using hstep
      exact ⟨hm, fun _ => hpark, by simp, by simp⟩
    · obtain rfl : _ = h := by simpa using hstep
      exact ⟨hm, fun _ => hpark, by simp, by simp⟩
  | sleepTimer =>
    obtain rfl : _ = h := by simpa [hc] using hstep
    exact ⟨hm, fun _ => hp (.inr (.inr (.inr hc))), by simp, by simp⟩
  | resetClock =>
    obtain rfl : _ = h := by simpa [hc] using hstep
    have hnone := hr (.inl hc)
    exact ⟨hm, by simp [Holding, hnone], by simp, fun _ => hnone⟩
  | resumeCpu =>
    obtain rfl : _ = h := by simpa [hc] using hstep
    have hnone := hr (.inr (.inl hc))
    exact ⟨hm.setPause false, by simp [Holding, pauseFlags, hnone], by simp, fun _ => hnone⟩
  | resumeTimer =>
    obtain rfl : _ = h := by simpa [hc] using hstep
    have hnone := hr (.inr (.inr hc))
    exact ⟨hm, by simp [Holding, pauseFlags, hnone], by simp, by simp⟩

theorem safeStep_inv {g h : GameBoy} (hg : g.Inv) (hstep : g.SafeStep h) : h.Inv := by
  obtain ⟨a, hsafe, hstep⟩ := hstep
  obtain ⟨hm, hp, hw, hr⟩ := hg
  cases a with
  | cpu =>
    obtain rfl : _ = h := by simpa [step] using hstep
    have hpause : g.cpu.step.pause = g.cpu.pause := by
      unfold Worker.step
      cases g.cpu.pc <;> rfl
    refine ⟨Worker.marked_step hm, fun hold => Worker.parked_step (hp hold), ?_, hr⟩
    intro hc
    rw [hpause]
    exact hw hc
  | timer =>
    obtain rfl : _ = h := by simpa [step] using hstep
    exact ⟨hm, hp, hw, hr⟩
  | construct =>
    simp only [step] at hstep
    split_ifs at hstep with hc
    obtain rfl : _ = h := by simpa using hstep
    refine ⟨hm, fun hold => hp (.inl (by simpa [Holding] using hold)), by simp, by simp⟩
  | destroy =>
    simp only [step] at hstep
    split_ifs at hstep with hc
    obtain rfl : _ = h := by simpa using hstep
    have hone : g.halts = 1 := hsafe
    exact ⟨hm, by simp [Holding, hone], by simp, fun _ => by simp [hone]⟩
  | control => exact controlStep_inv ⟨hm, hp, hw, hr⟩ hsafe hstep

theorem run_inv {g : GameBoy} (h : Relation.ReflTransGen SafeStep started g) : g.Inv := by
  induction h with
  | refl => exact started_inv
  | tail _ hstep ih => exact safeStep_inv ih hstep

theorem Inv.excluded {g : GameBoy} (hg : g.Inv) : g.Excluded := by
  intro hpos
  exact (hg.parked (.inl hpos)).pc.2.2

/-! ## The other steps -/

def Step (g h : GameBoy) : Prop := ∃ a, g.step a = some h

theorem cpu_steps (g : GameBoy) (k : Nat) :
    Relation.ReflTransGen Step g { g with cpu := Worker.step^[k] g.cpu } := by
  induction k with
  | zero => exact .refl
  | succ k ih =>
    refine ih.tail ⟨.cpu, ?_⟩
    rw [Function.iterate_succ_apply']
    rfl

theorem timer_steps (g : GameBoy) (k : Nat) :
    Relation.ReflTransGen Step g { g with timer := Worker.step^[k] g.timer } := by
  induction k with
  | zero => exact .refl
  | succ k ih =>
    refine ih.tail ⟨.timer, ?_⟩
    rw [Function.iterate_succ_apply']
    rfl

/-- Where there is a `Halt` and the CPU thread gets to its work, the exclusion is lost. -/
theorem not_excluded_of_works {g : GameBoy} (hpos : 0 < g.halts)
    (h : ∃ k, (Worker.step^[k] g.cpu).pc = .working) :
    ∃ g', Relation.ReflTransGen Step g g' ∧ ¬ g'.Excluded := by
  obtain ⟨k, hk⟩ := h
  exact ⟨_, cpu_steps g k, fun hex => hex hpos hk⟩

theorem not_excluded_after {g h : GameBoy} (hrun : Relation.ReflTransGen Step g h)
    (hpos : 0 < h.halts) (hworks : ∃ k, (Worker.step^[k] h.cpu).pc = .working) :
    ∃ g', Relation.ReflTransGen Step g g' ∧ ¬ g'.Excluded := by
  obtain ⟨g', hrun', hex⟩ := not_excluded_of_works hpos hworks
  exact ⟨g', hrun.trans hrun', hex⟩

/-- The constructor goes on to its end, and the CPU thread to its work. -/
theorem leaving_breaks {g : GameBoy} (hc : g.control = .pauseTimer) (hl : g.cpu.Leaving) :
    ∃ g', Relation.ReflTransGen Step g g' ∧ ¬ g'.Excluded := by
  let asked : GameBoy := { g.pauseFlags g.cpu.pause true with control := .waitTimer }
  have hasked : g.step .control = some asked := by
    simp only [step, controlStep, hc]
    rfl
  obtain ⟨k, hk⟩ := Worker.paused_soon (w := asked.timer) rfl
  let waited : GameBoy := { asked with timer := Worker.step^[k] asked.timer }
  have hdone :
      waited.step .control = some { waited with control := .idle, halts := g.halts + 1 } := by
    have hpaused : waited.timer.paused = true := hk
    simp only [step, controlStep, waited, asked] at hpaused ⊢
    rw [if_pos hpaused]
    rfl
  refine not_excluded_after (.tail (.trans (.single ⟨.control, hasked⟩) (timer_steps asked k))
    ⟨.control, hdone⟩) (Nat.succ_pos _) ?_
  exact Worker.leaving_works hl

/-- One `Halt` goes while another stays: the flags are cleared for both. -/
theorem nested_breaks {g : GameBoy} (hc : g.control = .resetClock) (hpos : 0 < g.halts) :
    ∃ g', Relation.ReflTransGen Step g g' ∧ ¬ g'.Excluded := by
  let reset : GameBoy := { g with control := .resumeCpu }
  have hreset : g.step .control = some reset := by
    simp only [step, controlStep, hc]
    rfl
  let resumed : GameBoy := { reset.pauseFlags false g.timer.pause with control := .resumeTimer }
  have hresumed : reset.step .control = some resumed := rfl
  refine not_excluded_after (.tail (.single ⟨.control, hreset⟩) ⟨.control, hresumed⟩) hpos ?_
  exact Worker.working_soon rfl

theorem unsafe_breaks {g h : GameBoy} {a : Action} (hfree : ¬ g.Safe a)
    (hstep : g.step a = some h) : ∃ g', Relation.ReflTransGen Step h g' ∧ ¬ g'.Excluded := by
  cases a with
  | cpu | timer | construct => exact absurd trivial hfree
  | destroy =>
    simp only [step] at hstep
    split_ifs at hstep with hc
    obtain rfl : _ = h := by simpa using hstep
    have hmany : g.halts ≠ 1 := hfree
    exact nested_breaks rfl (show 0 < g.halts - 1 by omega)
  | control =>
    obtain ⟨hc, hl⟩ := Classical.not_imp.mp hfree
    have hl := Classical.not_not.mp hl
    simp only [step, controlStep, hc, hl.1, if_true] at hstep
    obtain rfl : _ = h := by simpa using hstep
    exact leaving_breaks rfl hl

/-- **A `Halt` excludes the CPU thread** in every state that safe steps reach, and any
other step can be followed by steps into `m_cpu.cycle()` while there is a `Halt`. -/
theorem halt_excludes_cpu (g : GameBoy) :
    (Relation.ReflTransGen SafeStep started g → g.Excluded) ∧
      ∀ a h, ¬ g.Safe a → g.step a = some h →
        ∃ g', Relation.ReflTransGen Step h g' ∧ ¬ g'.Excluded :=
  ⟨fun h => (run_inv h).excluded, fun _ _ => unsafe_breaks⟩

/-- A `Halt` that is made while the CPU thread runs. -/
theorem halt_excludes_cpu_running :
    ∃ g, g.halts = 1 ∧ Relation.ReflTransGen SafeStep started g ∧ g.Excluded := by
  have hrun : Relation.ReflTransGen SafeStep started
      { cpu := ⟨.sleeping, true, true⟩, timer := ⟨.starting, true, true⟩, control := .idle,
        halts := 1 } := by
    -- The CPU thread gets to its work, and has left it when the pause flag is set.
    refine .head ⟨.cpu, trivial, rfl⟩ (.head ⟨.cpu, trivial, rfl⟩ (.head ⟨.cpu, trivial, rfl⟩ ?_))
    refine .head ⟨.cpu, trivial, rfl⟩
      (.head ⟨.cpu, trivial, rfl⟩ (.head ⟨.construct, trivial, rfl⟩ ?_))
    refine .head ⟨.control, by decide, rfl⟩ (.head ⟨.cpu, trivial, rfl⟩ ?_)
    refine .head ⟨.cpu, trivial, rfl⟩ (.head ⟨.cpu, trivial, rfl⟩ ?_)
    refine .head ⟨.control, by decide, rfl⟩ (.head ⟨.control, by decide, rfl⟩ ?_)
    exact .single ⟨.control, by decide, rfl⟩
  exact ⟨_, rfl, hrun, (halt_excludes_cpu _).1 hrun⟩

/-- The CPU thread finds the pause flag clear in its first pass; then a `Halt` is made. -/
theorem halt_in_cycle : ¬ ∀ g, Relation.ReflTransGen Step started g → g.Excluded := by
  intro h
  have hrun : Relation.ReflTransGen Step started
      { cpu := ⟨.working, true, false⟩, timer := ⟨.starting, true, true⟩, control := .idle,
        halts := 1 } := by
    refine .head ⟨.cpu, rfl⟩ (.head ⟨.cpu, rfl⟩ (.head ⟨.construct, rfl⟩ ?_))
    refine .head ⟨.control, rfl⟩ (.head ⟨.control, rfl⟩ (.head ⟨.control, rfl⟩ ?_))
    exact .head ⟨.control, rfl⟩ (.head ⟨.cpu, rfl⟩ (.single ⟨.cpu, rfl⟩))
  exact h _ hrun Nat.one_pos rfl

end GameBoy

end GbEmu
