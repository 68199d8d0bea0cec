import GbEmu.Lib.Run
import GbEmu.Pause.Pacing

/-!
The calls of the controlling thread return. The CPU thread cannot end its pass without
the signals of the timer thread, so that what ends or parks the timer thread has to come
after what the CPU thread still has to do.
-/

namespace GbEmu.Session

abbrev Steps : Session → Session → Prop := Relation.ReflTransGen Step

/-- What neither of the two worker threads changes. -/
structure Same (s s' : Session) : Prop where
  control : s'.threads.control = s.threads.control
  halts : s'.threads.halts = s.threads.halts
  cpuPause : s'.threads.cpu.pause = s.threads.cpu.pause
  timerPause : s'.threads.timer.pause = s.threads.timer.pause
  runCpu : s'.runCpu = s.runCpu
  runTimer : s'.runTimer = s.runTimer
  stop : s'.stop = s.stop

theorem Same.refl (s : Session) : s.Same s := ⟨rfl, rfl, rfl, rfl, rfl, rfl, rfl⟩

theorem Same.trans {s t u : Session} (h : s.Same t) (h' : t.Same u) : s.Same u :=
  ⟨h'.control.trans h.control, h'.halts.trans h.halts, h'.cpuPause.trans h.cpuPause,
    h'.timerPause.trans h.timerPause, h'.runCpu.trans h.runCpu, h'.runTimer.trans h.runTimer,
    h'.stop.trans h.stop⟩

theorem pause_step (w : Worker) : w.step.pause = w.pause := by
  unfold Worker.step
  cases w.pc <;> rfl

/-! ## The timer thread -/

/-- Only the timer thread has run. -/
structure TimerRan (s s' : Session) : Prop extends Same s s' where
  cpu : s'.threads.cpu = s.threads.cpu
  tick : s'.tick = s.tick
  cpuDone : s'.cpuDone = s.cpuDone

theorem TimerRan.refl (s : Session) : s.TimerRan s := ⟨.refl s, rfl, rfl, rfl⟩

theorem TimerRan.trans {s t u : Session} (h : s.TimerRan t) (h' : t.TimerRan u) : s.TimerRan u :=
  ⟨h.toSame.trans h'.toSame, h'.cpu.trans h.cpu, h'.tick.trans h.tick,
    h'.cpuDone.trans h.cpuDone⟩

section Timer

variable {s : Session}

/-- A step of `executeTimer`, behind the signal if there is one. -/
theorem timer_advances (hrun : s.runTimer = true) (hdone : s.timerDone = false) :
    ∃ s', Steps s s' ∧ s.TimerRan s' ∧ s'.threads.timer = s.threads.timer.step ∧
      s'.timerDone = false ∧ s'.signalled = false := by
  have hnext : ∀ t : Session, t.runTimer = true → t.timerDone = false →
      (t.threads.timer.pc = .working → t.signalled = true) → t.Step { t with
        threads := { t.threads with timer := t.threads.timer.step }
        signalled := false } := by
    intro t hrun hdone hsignalled
    refine ⟨.timer, ?_⟩
    have hno : ¬ (t.threads.timer.pc = .working ∧ t.signalled = false) := by
      rintro ⟨hpc, hs⟩
      rw [hsignalled hpc] at hs
      cases hs
    simp [step, timerStep, hdone, hrun, hno]
  have hran : ∀ t : Session, t.TimerRan { t with
      threads := { t.threads with timer := t.threads.timer.step }
      signalled := false } := fun t =>
    ⟨⟨rfl, rfl, rfl, pause_step _, rfl, rfl, rfl⟩, rfl, rfl, rfl⟩
  by_cases hsignal : s.threads.timer.pc = .working ∧ s.signalled = false
  · let t := { s with ready := true, signalled := true, signals := s.signals + 1 }
    have hfirst : s.Step t := ⟨.timer, by simp [step, timerStep, hdone, hsignal, t]⟩
    refine ⟨_, .head hfirst (.single (hnext t hrun hdone fun _ => rfl)), ?_, rfl, hdone, rfl⟩
    have hsignalled : s.TimerRan t := ⟨⟨rfl, rfl, rfl, rfl, rfl, rfl, rfl⟩, rfl, rfl, rfl⟩
    exact hsignalled.trans (hran t)
  · refine ⟨_, .single (hnext s hrun hdone fun hpc => ?_), hran s, rfl, hdone, rfl⟩
    exact Bool.not_eq_false _ ▸ fun hs => hsignal ⟨hpc, hs⟩

theorem timer_iterates (hrun : s.runTimer = true) (hdone : s.timerDone = false)
    (hsignalled : s.signalled = false) (k : Nat) :
    ∃ s', Steps s s' ∧ s.TimerRan s' ∧ s'.threads.timer = Worker.step^[k] s.threads.timer ∧
      s'.timerDone = false ∧ s'.signalled = false := by
  induction k with
  | zero => exact ⟨s, .refl, .refl s, rfl, hdone, hsignalled⟩
  | succ k ih =>
    obtain ⟨t, hsteps, hran, htimer, hdone', -⟩ := ih
    obtain ⟨u, hsteps', hran', htimer', hdone'', hsignalled'⟩ :=
      timer_advances (hran.runTimer.trans hrun) hdone'
    refine ⟨u, hsteps.trans hsteps', hran.trans hran', ?_, hdone'', hsignalled'⟩
    rw [htimer', htimer, Function.iterate_succ_apply']

/-- A timer thread that is not to pause signals. -/
theorem timer_signals (hrun : s.runTimer = true) (hdone : s.timerDone = false)
    (hpause : s.threads.timer.pause = false) :
    ∃ s', Steps s s' ∧ s.TimerRan s' ∧ s'.ready = true ∧ s'.timerDone = false := by
  obtain ⟨t, hsteps, hran, -, hdone', hsignalled⟩ := timer_advances hrun hdone
  obtain ⟨k, hk⟩ := Worker.working_soon (hran.timerPause.trans hpause)
  obtain ⟨u, hsteps', hran', htimer, hdone'', hsignalled'⟩ :=
    timer_iterates (hran.runTimer.trans hrun) hdone' hsignalled k
  have hpc : u.threads.timer.pc = .working := by rw [htimer, hk]
  refine ⟨{ u with ready := true, signalled := true, signals := u.signals + 1 },
    (hsteps.trans hsteps').tail ⟨.timer, ?_⟩, (hran.trans hran').trans ?_, rfl, hdone''⟩
  · simp [step, timerStep, hdone'', hpc, hsignalled']
  · exact ⟨⟨rfl, rfl, rfl, rfl, rfl, rfl, rfl⟩, rfl, rfl, rfl⟩

/-- A timer thread that is to pause does. -/
theorem timer_pauses (hrun : s.runTimer = true) (hdone : s.timerDone = false)
    (hpause : s.threads.timer.pause = true) :
    ∃ s', Steps s s' ∧ s.TimerRan s' ∧ s'.threads.timer.paused = true := by
  obtain ⟨t, hsteps, hran, -, hdone', hsignalled⟩ := timer_advances hrun hdone
  obtain ⟨k, hk⟩ := Worker.paused_soon (hran.timerPause.trans hpause)
  obtain ⟨u, hsteps', hran', htimer, -, -⟩ :=
    timer_iterates (hran.runTimer.trans hrun) hdone' hsignalled k
  exact ⟨u, hsteps.trans hsteps', hran.trans hran', by rw [htimer, hk]⟩

/-- In front of the load of `m_runTimer`, or of the signal before it. -/
theorem timer_ends_here (hrun : s.runTimer = false)
    (hpc : s.threads.timer.pc = .starting ∨ s.threads.timer.pc = .working) :
    ∃ s', Steps s s' ∧ s.TimerRan s' ∧ s'.timerDone = true := by
  have hload : ∀ t : Session, t.runTimer = false → t.timerDone = false →
      t.threads.timer.pc = .starting ∨ t.threads.timer.pc = .working →
        ¬ (t.threads.timer.pc = .working ∧ t.signalled = false) →
          t.Step { t with timerDone := true } := by
    intro t hrun hdone hpc hno
    exact ⟨.timer, by simp [step, timerStep, hdone, hrun, hpc, hno]⟩
  cases hdone : s.timerDone with
  | true => exact ⟨s, .refl, .refl s, hdone⟩
  | false =>
    by_cases hsignal : s.threads.timer.pc = .working ∧ s.signalled = false
    · let t := { s with ready := true, signalled := true, signals := s.signals + 1 }
      have hfirst : s.Step t := ⟨.timer, by simp [step, timerStep, hdone, hsignal, t]⟩
      refine ⟨_, .head hfirst (.single (hload t hrun hdone hpc (by simp [t]))), ?_, rfl⟩
      exact ⟨⟨rfl, rfl, rfl, rfl, rfl, rfl, rfl⟩, rfl, rfl, rfl⟩
    · refine ⟨_, .single (hload s hrun hdone hpc hsignal), ?_, rfl⟩
      exact ⟨⟨rfl, rfl, rfl, rfl, rfl, rfl, rfl⟩, rfl, rfl, rfl⟩

/-- A timer thread that is not to run any more ends. -/
theorem timer_ends (hrun : s.runTimer = false) (hpause : s.threads.timer.pause = false) :
    ∃ s', Steps s s' ∧ s.TimerRan s' ∧ s'.timerDone = true := by
  obtain ⟨k, hk⟩ := Worker.working_soon hpause
  induction k generalizing s with
  | zero => exact timer_ends_here hrun (.inr hk)
  | succ k ih =>
    by_cases hpc : s.threads.timer.pc = .starting ∨ s.threads.timer.pc = .working
    · exact timer_ends_here hrun hpc
    · cases hdone : s.timerDone with
      | true => exact ⟨s, .refl, .refl s, hdone⟩
      | false =>
        let t := { s with
          threads := { s.threads with timer := s.threads.timer.step }
          signalled := false }
        have hfirst : s.Step t := by
          obtain ⟨hstart, hwork⟩ := not_or.mp hpc
          exact ⟨.timer, by simp [step, timerStep, hdone, hstart, hwork, t]⟩
        have hran : s.TimerRan t := ⟨⟨rfl, rfl, rfl, pause_step _, rfl, rfl, rfl⟩, rfl, rfl, rfl⟩
        obtain ⟨u, hsteps, hran', hdone'⟩ := ih (s := t) hrun (hran.timerPause.trans hpause) hk
        exact ⟨u, .head hfirst hsteps, hran.trans hran', hdone'⟩

end Timer

/-! ## The CPU thread -/

/-- Only the CPU thread has run, or the timer thread so that it could go on. -/
structure CpuRan (s s' : Session) : Prop extends Same s s' where
  timerDone : s'.timerDone = s.timerDone

theorem CpuRan.trans {s t u : Session} (h : s.CpuRan t) (h' : t.CpuRan u) : s.CpuRan u :=
  ⟨h.toSame.trans h'.toSame, h'.timerDone.trans h.timerDone⟩

section Cpu

variable {s : Session}

/-- An access of `Clock::tick` leaves the other threads alone. -/
theorem clockStep_kept {s' : Session} (h : s.clockStep = some s') :
    s.Same s' ∧ s'.cpuDone = s.cpuDone ∧ s'.timerDone = s.timerDone ∧ s.tick ≠ .out := by
  unfold clockStep at h
  cases hpc : s.tick with
  | out => simp [hpc] at h
  | testing | waiting =>
    simp only [hpc] at h
    split_ifs at h <;>
    · obtain rfl := Option.some.inj h
      exact ⟨⟨rfl, rfl, rfl, rfl, rfl, rfl, rfl⟩, rfl, rfl, nofun⟩
  | adding | wrapping | storing =>
    simp only [hpc] at h
    obtain rfl := Option.some.inj h
    exact ⟨⟨rfl, rfl, rfl, rfl, rfl, rfl, rfl⟩, rfl, rfl, nofun⟩

/-- The CPU thread runs, and so does the timer thread, which is not to pause. -/
structure Signalled (s : Session) : Prop where
  cpu : s.cpuDone = false
  run : s.runTimer = true
  timer : s.timerDone = false
  pause : s.threads.timer.pause = false

/-- The call of `Clock::tick` that the CPU thread is in comes to its end. -/
def LeavesTick (s : Session) : Prop :=
  ∃ s', Steps s s' ∧ s.CpuRan s' ∧ s'.tick = .out ∧ s'.cpuDone = false

theorem Signalled.steps {s' : Session} (h : s.Signalled) (hran : s.CpuRan s')
    (hdone : s'.cpuDone = false) : s'.Signalled :=
  ⟨hdone, hran.runTimer.trans h.run, hran.timerDone.trans h.timer, hran.timerPause.trans h.pause⟩

/-- The end of a call is that of the call after its next access. -/
theorem LeavesTick.of_clockStep {s' : Session} (h : s.Signalled) (hstep : s.clockStep = some s')
    (hnext : s'.Signalled → s'.LeavesTick) : s.LeavesTick := by
  obtain ⟨hsame, hcpu, htimer, hin⟩ := clockStep_kept hstep
  have hran : s.CpuRan s' := ⟨hsame, htimer⟩
  have hcall : s.Step s' := ⟨.cpu, by simp [step, cpuStep, h.cpu, hin, hstep]⟩
  obtain ⟨t, hsteps, hran', hout, hdone⟩ := hnext (h.steps hran (hcpu.trans h.cpu))
  exact ⟨t, .head hcall hsteps, hran.trans hran', hout, hdone⟩

theorem leaves_out (h : s.Signalled) (hpc : s.tick = .out) : s.LeavesTick :=
  ⟨s, .refl, ⟨.refl s, rfl⟩, hpc, h.cpu⟩

theorem leaves_storing (h : s.Signalled) {ticks : UInt8} {rest : Nat}
    (hpc : s.tick = .storing ticks rest) : s.LeavesTick :=
  .of_clockStep h (by simp only [clockStep, hpc]; rfl) fun h => leaves_out h rfl

theorem leaves_wrapping (h : s.Signalled) {ticks : UInt8} (hpc : s.tick = .wrapping ticks) :
    s.LeavesTick :=
  .of_clockStep h (by simp only [clockStep, hpc]; rfl) fun h => leaves_storing h rfl

/-- The signal comes as long as the timer thread runs. -/
theorem leaves_waiting (h : s.Signalled) {ticks : UInt8} (hpc : s.tick = .waiting ticks) :
    s.LeavesTick := by
  obtain ⟨t, hsteps, hran, hready, htimer⟩ := timer_signals h.run h.timer h.pause
  have hran' : s.CpuRan t := ⟨hran.toSame, htimer.trans h.timer.symm⟩
  have hwaits : t.Signalled := h.steps hran' (hran.cpuDone.trans h.cpu)
  have htake : t.clockStep = some { t with ready := false, tick := .wrapping ticks } := by
    simp only [clockStep, hran.tick, hpc, hready, if_true]
  obtain ⟨u, hrest, hran'', hout, hdone⟩ :=
    LeavesTick.of_clockStep hwaits htake fun h => leaves_wrapping h rfl
  exact ⟨u, hsteps.trans hrest, hran'.trans hran'', hout, hdone⟩

theorem leaves_testing (h : s.Signalled) {ticks : UInt8} (hpc : s.tick = .testing ticks) :
    s.LeavesTick := by
  cases hdue : s.clock.due with
  | true =>
    have htest : s.clockStep = some { s with tick := .waiting ticks } := by
      simp only [clockStep, hpc, hdue, if_true]
    exact .of_clockStep h htest fun h => leaves_waiting h rfl
  | false =>
    have htest : s.clockStep = some (s.forward ticks) := by
      simp only [clockStep, hpc, hdue, Bool.false_eq_true, if_false]
    exact .of_clockStep h htest fun h => leaves_out h rfl

/-- A call comes to its end as long as the timer thread runs. -/
theorem cpu_leaves (h : s.Signalled) : s.LeavesTick := by
  cases hpc : s.tick with
  | out => exact leaves_out h hpc
  | adding ticks sum =>
    exact .of_clockStep h (by simp only [clockStep, hpc]; rfl) fun h => leaves_testing h rfl
  | testing ticks => exact leaves_testing h hpc
  | waiting ticks => exact leaves_waiting h hpc
  | wrapping ticks => exact leaves_wrapping h hpc
  | storing ticks rest => exact leaves_storing h hpc

theorem cpu_iterates (hrun : s.runCpu = true) (hdone : s.cpuDone = false)
    (hout : s.tick = .out) (k : Nat) :
    Steps s { s with threads := { s.threads with cpu := Worker.step^[k] s.threads.cpu } } := by
  induction k with
  | zero => exact .refl
  | succ k ih =>
    refine ih.tail ⟨.cpu, ?_⟩
    simp [step, cpuStep, hdone, hout, hrun, Function.iterate_succ_apply']

theorem pause_iterate (w : Worker) (k : Nat) : (Worker.step^[k] w).pause = w.pause := by
  induction k with
  | zero => rfl
  | succ k ih => rw [Function.iterate_succ_apply', pause_step, ih]

/-- A CPU thread that is to pause does. -/
theorem cpu_pauses (hrun : s.runCpu = true) (hdone : s.cpuDone = false) (hout : s.tick = .out)
    (hpause : s.threads.cpu.pause = true) :
    ∃ s', Steps s s' ∧ s.CpuRan s' ∧ s'.threads.cpu.paused = true := by
  obtain ⟨k, hk⟩ := Worker.paused_soon hpause
  refine ⟨_, cpu_iterates hrun hdone hout k, ⟨⟨rfl, rfl, ?_, rfl, rfl, rfl, rfl⟩, rfl⟩, hk⟩
  exact pause_iterate _ k

/-- A CPU thread that is not to run any more ends. -/
theorem cpu_ends (hrun : s.runCpu = false) (hout : s.tick = .out)
    (hpause : s.threads.cpu.pause = false) :
    ∃ s', Steps s s' ∧ s.CpuRan s' ∧ s'.cpuDone = true := by
  have hhere : ∀ t : Session, t.runCpu = false → t.tick = .out →
      t.threads.cpu.pc = .starting ∨ t.threads.cpu.pc = .working →
        ∃ t', Steps t t' ∧ t.CpuRan t' ∧ t'.cpuDone = true := by
    intro t hrun hout hpc
    cases hdone : t.cpuDone with
    | true => exact ⟨t, .refl, ⟨.refl t, rfl⟩, hdone⟩
    | false =>
      refine ⟨{ t with cpuDone := true }, .single ⟨.cpu, ?_⟩,
        ⟨⟨rfl, rfl, rfl, rfl, rfl, rfl, rfl⟩, rfl⟩, rfl⟩
      simp [step, cpuStep, hdone, hout, hrun, hpc]
  obtain ⟨k, hk⟩ := Worker.working_soon hpause
  induction k generalizing s with
  | zero => exact hhere s hrun hout (.inr hk)
  | succ k ih =>
    by_cases hpc : s.threads.cpu.pc = .starting ∨ s.threads.cpu.pc = .working
    · exact hhere s hrun hout hpc
    · cases hdone : s.cpuDone with
      | true => exact ⟨s, .refl, ⟨.refl s, rfl⟩, hdone⟩
      | false =>
        let t := { s with threads := { s.threads with cpu := s.threads.cpu.step } }
        have hfirst : s.Step t := ⟨.cpu, by simp [step, cpuStep, hdone, hout, hpc, t]⟩
        have hran : s.CpuRan t := ⟨⟨rfl, rfl, pause_step _, rfl, rfl, rfl, rfl⟩, rfl⟩
        obtain ⟨u, hsteps, hran', hdone'⟩ := ih (s := t) hrun hout (hran.cpuPause.trans hpause) hk
        exact ⟨u, .head hfirst hsteps, hran.trans hran', hdone'⟩

end Cpu

/-! ## What the controlling thread has asked for -/

/-- The flags that `stop` has left. -/
def StopInv (s : Session) : Prop :=
  match s.stop with
  | .none => s.runCpu = true ∧ s.runTimer = true
  | .resuming =>
    s.runCpu = true ∧ s.runTimer = true ∧
      match s.threads.control with
      | .resetClock | .resumeCpu => True
      | .resumeTimer => s.threads.cpu.pause = false
      | .idle => s.threads.cpu.pause = false ∧ s.threads.timer.pause = false
      | _ => False
  | .joinCpu | .joinedCpu =>
    s.runCpu = false ∧ s.runTimer = true ∧ s.threads.cpu.pause = false ∧
      s.threads.timer.pause = false
  | .joinTimer =>
    s.runCpu = false ∧ s.runTimer = false ∧ s.threads.cpu.pause = false ∧
      s.threads.timer.pause = false
  | .stopped => True

structure Live (s : Session) : Prop where
  stop : s.StopInv
  cpu : s.cpuDone = true → s.runCpu = false
  timer : s.timerDone = true → s.runTimer = false

theorem StopInv.same {s s' : Session} (h : s.StopInv) (hsame : s.Same s') : s'.StopInv := by
  unfold StopInv at h ⊢
  rw [hsame.stop, hsame.runCpu, hsame.runTimer, hsame.control, hsame.cpuPause, hsame.timerPause]
  exact h

section Inv

variable {s s' : Session}

/-- The steps of the CPU thread and of the timer thread. -/
theorem worker_live (h : s.Live) {a : SessionAction}
    (ha : (∃ ticks, a = .tick ticks) ∨ a = .cpu ∨ a = .timer) (hstep : s.step a = some s') :
    s.Same s' ∧ s'.Live := by
  suffices hboth : s.Same s' ∧ (s'.cpuDone = true → s.runCpu = false) ∧
      (s'.timerDone = true → s.runTimer = false) by
    obtain ⟨hsame, hcpu, htimer⟩ := hboth
    exact ⟨hsame, h.stop.same hsame, fun hd => hsame.runCpu.trans (hcpu hd),
      fun hd => hsame.runTimer.trans (htimer hd)⟩
  rcases ha with ⟨ticks, rfl⟩ | rfl | rfl
  · simp only [step, tickStep] at hstep
    split_ifs at hstep
    obtain rfl := Option.some.inj hstep
    exact ⟨⟨rfl, rfl, rfl, rfl, rfl, rfl, rfl⟩, h.cpu, h.timer⟩
  · simp only [step, cpuStep] at hstep
    split_ifs at hstep with hdone hout hend
    · obtain ⟨hsame, hcpu, htimer, -⟩ := clockStep_kept hstep
      exact ⟨hsame, by rw [hcpu]; exact h.cpu, by rw [htimer]; exact h.timer⟩
    · obtain rfl := Option.some.inj hstep
      exact ⟨⟨rfl, rfl, rfl, rfl, rfl, rfl, rfl⟩, fun _ => hend.2, h.timer⟩
    · obtain rfl := Option.some.inj hstep
      exact ⟨⟨rfl, rfl, pause_step _, rfl, rfl, rfl, rfl⟩, h.cpu, h.timer⟩
  · simp only [step, timerStep] at hstep
    split_ifs at hstep with hdone hsignal hend
    · obtain rfl := Option.some.inj hstep
      exact ⟨⟨rfl, rfl, rfl, rfl, rfl, rfl, rfl⟩, h.cpu, h.timer⟩
    · obtain rfl := Option.some.inj hstep
      exact ⟨⟨rfl, rfl, rfl, rfl, rfl, rfl, rfl⟩, h.cpu, fun _ => hend.2⟩
    · obtain rfl := Option.some.inj hstep
      exact ⟨⟨rfl, rfl, rfl, pause_step _, rfl, rfl, rfl⟩, h.cpu, h.timer⟩

/-- What `pauseStep` leaves to the other threads. -/
theorem pauseStep_kept (hstep : s.pauseStep = some s') :
    s.threads.controlStep = some s'.threads ∧ s'.stop = s.stop ∧ s'.runCpu = s.runCpu ∧
      s'.runTimer = s.runTimer ∧ s'.cpuDone = s.cpuDone ∧ s'.timerDone = s.timerDone := by
  obtain ⟨threads, hthreads, rfl⟩ := Option.map_eq_some_iff.mp hstep
  split_ifs <;> exact ⟨hthreads, rfl, rfl, rfl, rfl, rfl⟩

theorem control_live (h : s.Live) (hstep : s.controlStep = some s') : s'.Live := by
  obtain ⟨hstop, hcpu, htimer⟩ := h
  unfold controlStep at hstep
  unfold StopInv at hstop
  cases hs : s.stop with
  | none =>
    simp only [hs] at hstep hstop
    obtain ⟨-, hs', hrun, hrun', hdone, hdone'⟩ := pauseStep_kept hstep
    refine ⟨?_, by rwa [hdone, hrun], by rwa [hdone', hrun']⟩
    unfold StopInv
    rw [hs', hs, hrun, hrun']
    exact hstop
  | resuming =>
    simp only [hs] at hstep hstop
    split_ifs at hstep with hidle
    · obtain rfl := Option.some.inj hstep
      rw [hidle] at hstop
      exact ⟨⟨rfl, hstop.2.1, hstop.2.2⟩, fun _ => rfl, htimer⟩
    · obtain ⟨hthreads, hs', hrun, hrun', hdone, hdone'⟩ := pauseStep_kept hstep
      refine ⟨?_, by rwa [hdone, hrun], by rwa [hdone', hrun']⟩
      unfold StopInv
      rw [hs', hs, hrun, hrun']
      refine ⟨hstop.1, hstop.2.1, ?_⟩
      have hflags := hstop.2.2
      cases hc : s.threads.control <;> simp only [hc] at hflags <;>
        simp only [GameBoy.controlStep, hc, Option.some.injEq] at hthreads
      · exact absurd hc hidle
      · rw [← hthreads]
        trivial
      · rw [← hthreads]
        rfl
      · rw [← hthreads]
        exact ⟨hflags, rfl⟩
  | joinCpu =>
    simp only [hs] at hstep hstop
    split_ifs at hstep
    obtain rfl := Option.some.inj hstep
    exact ⟨hstop, hcpu, htimer⟩
  | joinedCpu =>
    simp only [hs] at hstep hstop
    obtain rfl := Option.some.inj hstep
    exact ⟨⟨hstop.1, rfl, hstop.2.2⟩, hcpu, fun _ => rfl⟩
  | joinTimer =>
    simp only [hs] at hstep
    split_ifs at hstep
    obtain rfl := Option.some.inj hstep
    exact ⟨trivial, hcpu, htimer⟩
  | stopped => simp [hs] at hstep

theorem live_step (h : s.Live) (hstep : s.Step s') : s'.Live := by
  obtain ⟨a, hstep⟩ := hstep
  have hstop := h.stop
  cases a with
  | tick ticks => exact (worker_live h (.inl ⟨ticks, rfl⟩) hstep).2
  | cpu => exact (worker_live h (.inr (.inl rfl)) hstep).2
  | timer => exact (worker_live h (.inr (.inr rfl)) hstep).2
  | construct | destroy =>
    simp only [step] at hstep
    split_ifs at hstep with hnone
    obtain ⟨threads, -, rfl⟩ := Option.map_eq_some_iff.mp hstep
    simp only [StopInv, hnone] at hstop
    refine ⟨?_, h.cpu, h.timer⟩
    simp only [StopInv, hnone]
    exact hstop
  | stop =>
    simp only [step] at hstep
    split_ifs at hstep with hnone
    obtain rfl := Option.some.inj hstep
    simp only [StopInv, hnone.1] at hstop
    exact ⟨⟨hstop.1, hstop.2, trivial⟩, h.cpu, h.timer⟩
  | control => exact control_live h hstep

theorem started_live (speed : Nat) : (started speed).Live := ⟨⟨rfl, rfl⟩, nofun, nofun⟩

theorem live_steps (h : s.Live) (hsteps : Steps s s') : s'.Live := by
  induction hsteps with
  | refl => exact h
  | tail _ hstep ih => exact live_step ih hstep

end Inv

/-! ## `stop` -/

section Stop

variable {s : Session}

/-- From the wait for the timer thread. -/
theorem stops_from_joinTimer (h : s.Live) (hs : s.stop = .joinTimer) :
    ∃ s', Steps s s' ∧ s'.stop = .stopped := by
  have hstop := h.stop
  simp only [StopInv, hs] at hstop
  obtain ⟨t, hsteps, hran, hdone⟩ := timer_ends hstop.2.1 hstop.2.2.2
  refine ⟨{ t with stop := .stopped }, hsteps.tail ⟨.control, ?_⟩, rfl⟩
  simp [step, controlStep, hran.stop, hs, hdone]

/-- From the wait for the CPU thread, which may still wait for the timer thread. -/
theorem stops_from_joinCpu (h : s.Live) (hs : s.stop = .joinCpu) :
    ∃ s', Steps s s' ∧ s'.stop = .stopped := by
  have hstop := h.stop
  simp only [StopInv, hs] at hstop
  obtain ⟨hrun, hrun', hpause, hpause'⟩ := hstop
  have hended : ∃ t, Steps s t ∧ s.CpuRan t ∧ t.cpuDone = true := by
    cases hdone : s.cpuDone with
    | true => exact ⟨s, .refl, ⟨.refl s, rfl⟩, hdone⟩
    | false =>
      have htimer : s.timerDone = false := by
        refine Bool.eq_false_iff.mpr fun hd => ?_
        rw [h.timer hd] at hrun'
        cases hrun'
      obtain ⟨t, hsteps, hran, hout, hdone'⟩ := cpu_leaves ⟨hdone, hrun', htimer, hpause'⟩
      obtain ⟨u, hsteps', hran', hended⟩ :=
        cpu_ends (hran.runCpu.trans hrun) hout (hran.cpuPause.trans hpause)
      exact ⟨u, hsteps.trans hsteps', hran.trans hran', hended⟩
  obtain ⟨t, hsteps, hran, hended⟩ := hended
  let u := { t with stop := .joinedCpu }
  let v := { u with runTimer := false, stop := .joinTimer }
  have hjoined : t.Step u := ⟨.control, by simp [step, controlStep, hran.stop, hs, hended, u]⟩
  have htimer : u.Step v := ⟨.control, by simp [step, controlStep, u, v]⟩
  have hsteps' : Steps s v := (hsteps.tail hjoined).tail htimer
  obtain ⟨s', hrest, hstopped⟩ := stops_from_joinTimer (live_steps h hsteps') rfl
  exact ⟨s', hsteps'.trans hrest, hstopped⟩

theorem stops_from_resuming (h : s.Live) (hs : s.stop = .resuming) :
    ∃ s', Steps s s' ∧ s'.stop = .stopped := by
  -- The steps of `resume` that are left, and the store to `m_runCpu`.
  have hidle : ∀ t : Session, t.Live → t.stop = .resuming → t.threads.control = .idle →
      ∃ s', Steps t s' ∧ s'.stop = .stopped := by
    intro t ht hs hc
    let u := { t with runCpu := false, stop := .joinCpu }
    have hstore : t.Step u := ⟨.control, by simp [step, controlStep, hs, hc, u]⟩
    obtain ⟨s', hrest, hstopped⟩ := stops_from_joinCpu (live_step ht hstore) rfl
    exact ⟨s', .head hstore hrest, hstopped⟩
  have htimer : ∀ t : Session, t.Live → t.stop = .resuming → t.threads.control = .resumeTimer →
      ∃ s', Steps t s' ∧ s'.stop = .stopped := by
    intro t ht hs hc
    let u := { t with
      threads := { t.threads.pauseFlags t.threads.cpu.pause false with control := .idle } }
    have hstore : t.Step u :=
      ⟨.control, by simp [step, controlStep, pauseStep, GameBoy.controlStep, hs, hc, u]⟩
    obtain ⟨s', hrest, hstopped⟩ := hidle u (live_step ht hstore) hs rfl
    exact ⟨s', .head hstore hrest, hstopped⟩
  have hcpu : ∀ t : Session, t.Live → t.stop = .resuming → t.threads.control = .resumeCpu →
      ∃ s', Steps t s' ∧ s'.stop = .stopped := by
    intro t ht hs hc
    let u := { t with
      threads := { t.threads.pauseFlags false t.threads.timer.pause with control := .resumeTimer } }
    have hstore : t.Step u :=
      ⟨.control, by simp [step, controlStep, pauseStep, GameBoy.controlStep, hs, hc, u]⟩
    obtain ⟨s', hrest, hstopped⟩ := htimer u (live_step ht hstore) hs rfl
    exact ⟨s', .head hstore hrest, hstopped⟩
  have hflags := h.stop
  simp only [StopInv, hs] at hflags
  cases hc : s.threads.control <;> simp only [hc, and_false] at hflags
  · exact hidle s h hs hc
  · let u := { s with
      threads := { s.threads with control := .resumeCpu }
      clock := s.clock.store 0
      resets := s.resets + 1 }
    have hreset : s.Step u :=
      ⟨.control, by simp [step, controlStep, pauseStep, GameBoy.controlStep, hs, hc, u]⟩
    obtain ⟨s', hrest, hstopped⟩ := hcpu u (live_step h hreset) hs rfl
    exact ⟨s', .head hreset hrest, hstopped⟩
  · exact hcpu s h hs hc
  · exact htimer s h hs hc

/-- **`stop` returns.** Whatever the threads were doing when it was called, and wherever it
stands, the run can go on to its end; the timer thread ends only after the CPU thread. -/
theorem stop_returns {speed : Nat} (h : Steps (started speed) s) (hs : s.stop ≠ .none) :
    ∃ s', Steps s s' ∧ s'.stop = .stopped := by
  have hlive := live_steps (started_live speed) h
  cases hpc : s.stop with
  | none => exact absurd hpc hs
  | resuming => exact stops_from_resuming hlive hpc
  | joinCpu => exact stops_from_joinCpu hlive hpc
  | joinedCpu =>
    let u := { s with runTimer := false, stop := .joinTimer }
    have hstore : s.Step u := ⟨.control, by simp [step, controlStep, hpc, u]⟩
    obtain ⟨s', hrest, hstopped⟩ := stops_from_joinTimer (live_step hlive hstore) rfl
    exact ⟨s', .head hstore hrest, hstopped⟩
  | joinTimer => exact stops_from_joinTimer hlive hpc
  | stopped => exact ⟨s, .refl, hpc⟩

/-- `stop` is called while the CPU thread waits for the timer thread, which has not yet
passed its first check. -/
def stoppedInWait : List SessionAction :=
  [.cpu, .cpu, .cpu, .cpu, .tick 200, .cpu, .cpu, .tick 200, .cpu, .cpu, .stop, .control]

theorem stop_returns_waiting : ∃ s s', s.tick = .waiting 200 ∧ s.stop = .resuming ∧
    Steps s s' ∧ s'.stop = .stopped := by
  have hrun : (stoppedInWait.foldlM step (started 256)).map (fun s => (s.tick, s.stop)) =
      some (.waiting 200, .resuming) := by decide
  obtain ⟨s, hs, hstate⟩ := Option.map_eq_some_iff.mp hrun
  obtain ⟨hw, hstop⟩ := Prod.mk.inj hstate
  have hsteps : Steps (started 256) s :=
    Run.reflTransGen_of_foldlM (fun _ a _ h => ⟨a, h⟩) hs
  obtain ⟨s', hrest, hstopped⟩ := stop_returns hsteps (by rw [hstop]; nofun)
  exact ⟨s, s', hw, hstop, hrest, hstopped⟩

end Stop

/-! ## `pause` -/

/-- A constructor of a `Halt` is entered only when there is none. -/
def SingleStep (s s' : Session) : Prop :=
  ∃ a, (a = .construct → s.threads.halts = 0) ∧ s.step a = some s'

/-- The pause flags and the number of `Halt` objects, until `stop` is called. -/
def PauseInv (g : GameBoy) : Prop :=
  match g.control with
  | .idle => g.halts ≤ 1 ∧ (g.halts = 0 → g.cpu.pause = false ∧ g.timer.pause = false)
  | .pauseCpu => g.halts = 0 ∧ g.timer.pause = false
  | .waitCpu | .sleepCpu => g.halts = 0 ∧ g.cpu.pause = true ∧ g.timer.pause = false
  | .pauseTimer => g.halts = 0
  | .waitTimer | .sleepTimer => g.halts = 0 ∧ g.timer.pause = true
  | .resetClock | .resumeCpu => g.halts = 0
  | .resumeTimer => g.halts = 0 ∧ g.cpu.pause = false

section Pause

variable {s s' : Session}

theorem PauseInv.same {g g' : GameBoy} (h : PauseInv g) (hcontrol : g'.control = g.control)
    (hhalts : g'.halts = g.halts) (hcpu : g'.cpu.pause = g.cpu.pause)
    (htimer : g'.timer.pause = g.timer.pause) : PauseInv g' := by
  unfold PauseInv at h ⊢
  rw [hcontrol, hhalts, hcpu, htimer]
  exact h

theorem pauseInv_control {g g' : GameBoy} (h : PauseInv g) (hstep : g.controlStep = some g') :
    PauseInv g' := by
  unfold PauseInv at h
  unfold GameBoy.controlStep at hstep
  cases hc : g.control <;> simp only [hc, reduceCtorEq] at h hstep
  case waitTimer =>
    split_ifs at hstep
    · obtain rfl := Option.some.inj hstep
      exact ⟨Nat.le_of_eq (congrArg (· + 1) h.1), nofun⟩
    · obtain rfl := Option.some.inj hstep
      exact h
  all_goals obtain rfl := Option.some.inj hstep
  case pauseCpu => exact ⟨h.1, rfl, h.2⟩
  case waitCpu =>
    cases hp : g.cpu.paused with
    | false => exact h
    | true => exact h.1
  case sleepCpu => exact h
  case pauseTimer => exact ⟨h, rfl⟩
  case sleepTimer => exact h
  case resetClock => exact h
  case resumeCpu => exact ⟨h, rfl⟩
  case resumeTimer => exact ⟨Nat.le_trans (Nat.le_of_eq h.1) (Nat.zero_le 1), fun _ => ⟨h.2, rfl⟩⟩

theorem pauseInv_step (hlive : s.Live) (h : s.stop = .none → PauseInv s.threads)
    (hstep : s.SingleStep s') : s'.stop = .none → PauseInv s'.threads := by
  obtain ⟨a, hsingle, hstep⟩ := hstep
  have hworker : (∃ ticks, a = .tick ticks) ∨ a = .cpu ∨ a = .timer →
      s'.stop = .none → PauseInv s'.threads := by
    intro ha hs
    obtain ⟨hsame, -⟩ := worker_live hlive ha hstep
    exact (h (hsame.stop.symm.trans hs)).same hsame.control hsame.halts hsame.cpuPause
      hsame.timerPause
  intro hs
  cases a with
  | tick ticks => exact hworker (.inl ⟨ticks, rfl⟩) hs
  | cpu => exact hworker (.inr (.inl rfl)) hs
  | timer => exact hworker (.inr (.inr rfl)) hs
  | construct =>
    simp only [step] at hstep
    split_ifs at hstep with hnone
    obtain ⟨threads, hthreads, rfl⟩ := Option.map_eq_some_iff.mp hstep
    have hinv := h hnone
    simp only [GameBoy.step] at hthreads
    split_ifs at hthreads with hidle
    obtain rfl := Option.some.inj hthreads
    simp only [PauseInv, hidle] at hinv
    exact ⟨hsingle rfl, (hinv.2 (hsingle rfl)).2⟩
  | destroy =>
    simp only [step] at hstep
    split_ifs at hstep with hnone
    obtain ⟨threads, hthreads, rfl⟩ := Option.map_eq_some_iff.mp hstep
    have hinv := h hnone
    simp only [GameBoy.step] at hthreads
    split_ifs at hthreads with hidle
    obtain rfl := Option.some.inj hthreads
    simp only [PauseInv, hidle.1] at hinv
    show s.threads.halts - 1 = 0
    omega
  | stop =>
    simp only [step] at hstep
    split_ifs at hstep with hnone
    obtain rfl := Option.some.inj hstep
    cases hs
  | control =>
    simp only [step, controlStep] at hstep
    cases hpc : s.stop with
    | none =>
      simp only [hpc] at hstep
      obtain ⟨hthreads, -⟩ := pauseStep_kept hstep
      exact pauseInv_control (h hpc) hthreads
    | resuming =>
      simp only [hpc] at hstep
      split_ifs at hstep
      · obtain rfl := Option.some.inj hstep
        cases hs
      · have hstop := (pauseStep_kept hstep).2.1
        rw [hs, hpc] at hstop
        cases hstop
    | joinCpu | joinedCpu | joinTimer | stopped =>
      simp only [hpc] at hstep
      first
      | obtain rfl := Option.some.inj hstep
        cases hs
      | split_ifs at hstep
        obtain rfl := Option.some.inj hstep
        cases hs
      | cases hstep

/-- A call of `pause` or `resume` has returned. -/
def Returns (s : Session) : Prop :=
  ∃ s', Steps s s' ∧ s'.stop = .none ∧ s'.threads.control = .idle

theorem Returns.of_steps (hsteps : Steps s s') (h : s'.Returns) : s.Returns := by
  obtain ⟨t, hrest, hdone⟩ := h
  exact ⟨t, hsteps.trans hrest, hdone⟩

/-- The next step of `pause` or `resume`. -/
theorem control_step (hs : s.stop = .none) {g : GameBoy} (hg : s.threads.controlStep = some g) :
    ∃ s', s.Step s' ∧ s'.threads = g ∧ s'.stop = .none ∧ s'.tick = s.tick ∧
      s'.cpuDone = s.cpuDone ∧ s'.timerDone = s.timerDone ∧ s'.runCpu = s.runCpu ∧
        s'.runTimer = s.runTimer := by
  by_cases hreset : s.threads.control = .resetClock
  · refine ⟨{ s with
        threads := g
        clock := s.clock.store 0
        resets := s.resets + 1 }, ⟨.control, ?_⟩, rfl, hs, rfl, rfl, rfl, rfl, rfl⟩
    simp [step, controlStep, hs, pauseStep, hg, hreset]
  · refine ⟨{ s with threads := g }, ⟨.control, ?_⟩, rfl, hs, rfl, rfl, rfl, rfl, rfl⟩
    simp [step, controlStep, hs, pauseStep, hg, hreset]

theorem Live.running (h : s.Live) (hs : s.stop = .none) : s.runCpu = true ∧ s.runTimer = true ∧
    s.cpuDone = false ∧ s.timerDone = false := by
  have hstop := h.stop
  simp only [StopInv, hs] at hstop
  refine ⟨hstop.1, hstop.2, Bool.eq_false_iff.mpr fun hd => ?_, Bool.eq_false_iff.mpr fun hd => ?_⟩
  · have hrun := h.cpu hd
    rw [hstop.1] at hrun
    cases hrun
  · have hrun := h.timer hd
    rw [hstop.2] at hrun
    cases hrun

theorem returns_from_waitTimer (h : s.Live) (hs : s.stop = .none)
    (hc : s.threads.control = .waitTimer) (hpause : s.threads.timer.pause = true) :
    s.Returns := by
  obtain ⟨-, hrun, -, hdone⟩ := h.running hs
  obtain ⟨t, hsteps, hran, hpaused⟩ := timer_pauses hrun hdone hpause
  have hcontrol : t.threads.controlStep =
      some { t.threads with control := .idle, halts := t.threads.halts + 1 } := by
    simp only [GameBoy.controlStep, hran.control, hc, hpaused, if_true]
  obtain ⟨u, hstep, hu, hs', -⟩ := control_step (hran.stop.trans hs) hcontrol
  exact ⟨u, hsteps.tail hstep, hs', by rw [hu]⟩

theorem returns_from_waitCpu (h : s.Live) (hs : s.stop = .none)
    (hc : s.threads.control = .waitCpu) (hcpu : s.threads.cpu.pause = true)
    (htimer : s.threads.timer.pause = false) : s.Returns := by
  obtain ⟨hrun, hrun', hdone, hdone'⟩ := h.running hs
  -- The timer thread still signals, so that the CPU thread can end its pass.
  obtain ⟨t, hsteps, hran, hout, hcpuDone⟩ := cpu_leaves ⟨hdone, hrun', hdone', htimer⟩
  obtain ⟨u, hsteps', hran', hpaused⟩ :=
    cpu_pauses (hran.runCpu.trans hrun) hcpuDone hout (hran.cpuPause.trans hcpu)
  have hran := hran.trans hran'
  have hseen : u.threads.controlStep = some { u.threads with control := .pauseTimer } := by
    simp only [GameBoy.controlStep, hran.control, hc, hpaused, if_true]
  obtain ⟨v, hstep, hv, hs', -⟩ := control_step (hran.stop.trans hs) hseen
  have hstore : v.threads.controlStep =
      some { v.threads.pauseFlags v.threads.cpu.pause true with control := .waitTimer } := by
    simp only [GameBoy.controlStep, hv]
  obtain ⟨x, hstep', hx, hs'', -⟩ := control_step hs' hstore
  have hsteps := ((hsteps.trans hsteps').tail hstep).tail hstep'
  refine .of_steps hsteps (returns_from_waitTimer (live_steps h hsteps) hs'' ?_ ?_)
  · rw [hx]
  · rw [hx]
    rfl

/-- The steps of a call that wait for nothing. -/
theorem returns_of_control (h : s.Live) (hs : s.stop = .none) {g : GameBoy}
    (hg : s.threads.controlStep = some g)
    (hnext : ∀ t : Session, t.Live → t.stop = .none → t.threads = g → t.Returns) : s.Returns := by
  obtain ⟨t, hstep, ht, hs', -⟩ := control_step hs hg
  exact .of_steps (.single hstep) (hnext t (live_step h hstep) hs' ht)

theorem returns_from_resumeTimer (h : s.Live) (hs : s.stop = .none)
    (hc : s.threads.control = .resumeTimer) : s.Returns := by
  refine returns_of_control h hs (by simp only [GameBoy.controlStep, hc]; rfl) ?_
  exact fun t _ hs ht => ⟨t, .refl, hs, by rw [ht]⟩

theorem returns_from_resumeCpu (h : s.Live) (hs : s.stop = .none)
    (hc : s.threads.control = .resumeCpu) : s.Returns := by
  refine returns_of_control h hs (by simp only [GameBoy.controlStep, hc]; rfl) ?_
  exact fun t ht hs hg => returns_from_resumeTimer ht hs (by rw [hg])

theorem returns_of_pauseInv (h : s.Live) (hs : s.stop = .none) (hp : PauseInv s.threads) :
    s.Returns := by
  have hsleepCpu : ∀ t : Session, t.Live → t.stop = .none →
      t.threads = { s.threads with control := .waitCpu } → s.threads.cpu.pause = true →
        s.threads.timer.pause = false → t.Returns := by
    intro t ht hs hg hcpu htimer
    refine returns_from_waitCpu ht hs ?_ ?_ ?_ <;> rw [hg]
    · exact hcpu
    · exact htimer
  unfold PauseInv at hp
  cases hc : s.threads.control <;> simp only [hc] at hp
  case idle => exact ⟨s, .refl, hs, hc⟩
  case pauseCpu =>
    refine returns_of_control h hs (by simp only [GameBoy.controlStep, hc]; rfl) ?_
    intro t ht hs hg
    refine returns_from_waitCpu ht hs ?_ ?_ ?_ <;> rw [hg]
    · rfl
    · exact hp.2
  case waitCpu => exact returns_from_waitCpu h hs hc hp.2.1 hp.2.2
  case sleepCpu =>
    refine returns_of_control h hs (by simp only [GameBoy.controlStep, hc]; rfl) ?_
    exact fun t ht hs hg => hsleepCpu t ht hs hg hp.2.1 hp.2.2
  case pauseTimer =>
    refine returns_of_control h hs (by simp only [GameBoy.controlStep, hc]; rfl) ?_
    intro t ht hs hg
    refine returns_from_waitTimer ht hs ?_ ?_ <;> rw [hg]
    rfl
  case waitTimer => exact returns_from_waitTimer h hs hc hp.2
  case sleepTimer =>
    refine returns_of_control h hs (by simp only [GameBoy.controlStep, hc]; rfl) ?_
    intro t ht hs hg
    refine returns_from_waitTimer ht hs ?_ ?_ <;> rw [hg]
    exact hp.2
  case resetClock =>
    refine returns_of_control h hs (by simp only [GameBoy.controlStep, hc]; rfl) ?_
    exact fun t ht hs hg => returns_from_resumeCpu ht hs (by rw [hg])
  case resumeCpu => exact returns_from_resumeCpu h hs hc
  case resumeTimer => exact returns_from_resumeTimer h hs hc

/-- **`pause` and `resume` return** as long as there is one `Halt` at a time: in every state
that such a run reaches, the threads can go on until the call is over, even if the CPU thread
waits for the timer thread when the call is made. -/
theorem pause_returns {speed : Nat} (h : Relation.ReflTransGen SingleStep (started speed) s)
    (hs : s.stop = .none) : s.Returns := by
  have hinv : s.Live ∧ (s.stop = .none → PauseInv s.threads) := by
    clear hs
    induction h with
    | refl => exact ⟨started_live speed, fun _ => ⟨Nat.zero_le 1, fun _ => ⟨rfl, rfl⟩⟩⟩
    | tail _ hstep ih =>
      obtain ⟨a, -, ha⟩ := id hstep
      exact ⟨live_step ih.1 ⟨a, ha⟩, pauseInv_step ih.1 ih.2 hstep⟩
  exact returns_of_pauseInv hinv.1 hs (hinv.2 hs)

/-- A `Halt` is made while the CPU thread waits for the timer thread. -/
theorem pause_returns_waiting : ∃ s s' : Session, s.tick = .waiting 200 ∧
    s.threads.control = .waitCpu ∧ Steps s s' ∧ s'.threads.control = .idle := by
  have hrun : (([.cpu, .cpu, .cpu, .cpu, .tick 200, .cpu, .cpu, .tick 200, .cpu, .cpu, .construct,
      .control] : List SessionAction).foldlM
        (fun s a => if a = .construct → s.threads.halts = 0 then s.step a else none)
        (started 256)).map (fun s => (s.tick, s.threads.control, s.stop)) =
      some (.waiting 200, .waitCpu, .none) := by decide
  obtain ⟨s, hs, hstate⟩ := Option.map_eq_some_iff.mp hrun
  obtain ⟨hw, hrest⟩ := Prod.mk.inj hstate
  obtain ⟨hc, hstop⟩ := Prod.mk.inj hrest
  have hsteps : Relation.ReflTransGen SingleStep (started 256) s := by
    refine Run.reflTransGen_of_foldlM (fun t a t' h => ?_) hs
    split_ifs at h with hsingle
    exact ⟨a, hsingle, h⟩
  obtain ⟨s', hreturns, -, hidle⟩ := pause_returns hsteps hstop
  exact ⟨s, s', hw, hc, hreturns, hidle⟩

end Pause

end GbEmu.Session
