/-!
The handshake that pauses the threads of `gameboy.cpp`. Every thread stands in
front of its next access to a shared flag, and a step of the system is one access
of one thread; `m_runCpu` and `m_runTimer` stay set, as nothing calls `stop`.
-/

namespace GbEmu

/-- Where a worker stands in its loop. -/
inductive WorkerPc
  /-- Before its first pass; the CPU thread is in `m_cpu.reset()`. -/
  | starting
  /-- At the condition of the inner loop, which loads the pause flag. -/
  | check
  /-- The flag was set: load the paused flag. -/
  | paused
  | setPaused
  | sleeping
  /-- The flag was clear: load the paused flag. -/
  | resumed
  | clearPaused
  /-- At its work: `m_cpu.cycle()`, or the sleep and signal of the timer. -/
  | working
  deriving DecidableEq, Repr

/-- A thread that pauses at the top of its loop when it is asked to. -/
structure Worker where
  pc : WorkerPc
  /-- `m_pauseCpu`, `m_pauseTimer`. -/
  pause : Bool
  /-- `m_cpuPaused`, `m_timerPaused`. -/
  paused : Bool
  deriving DecidableEq, Repr

namespace Worker

/-- `GameBoy::step`, and the body of the loop of `executeTimer`. -/
def step (w : Worker) : Worker :=
  match w.pc with
  | .starting => { w with pc := .check }
  | .check => { w with pc := if w.pause then .paused else .resumed }
  | .paused => { w with pc := if w.paused then .sleeping else .setPaused }
  | .setPaused => { w with pc := .sleeping, paused := true }
  | .sleeping => { w with pc := .check }
  | .resumed => { w with pc := if w.paused then .clearPaused else .working }
  | .clearPaused => { w with pc := .working, paused := false }
  | .working => { w with pc := .check }

end Worker

/-- Where the controlling thread stands in `pause` or `resume`. -/
inductive ControlPc
  | idle
  | pauseCpu
  | waitCpu
  | sleepCpu
  | pauseTimer
  | waitTimer
  | sleepTimer
  /-- In `m_clock.reset()`. -/
  | resetClock
  | resumeCpu
  | resumeTimer
  deriving DecidableEq, Repr

structure GameBoy where
  cpu : Worker
  timer : Worker
  control : ControlPc
  /-- The number of `Halt` objects between the end of their constructor and the
  start of their destructor. -/
  halts : Nat
  deriving DecidableEq, Repr

inductive Action
  | cpu
  | timer
  /-- The controlling thread enters the constructor of a `Halt`. -/
  | construct
  /-- It enters the destructor of one. -/
  | destroy
  /-- It takes the next step of `pause` or `resume`. -/
  | control
  deriving DecidableEq, Repr

namespace GameBoy

def pauseFlags (g : GameBoy) (cpu timer : Bool) : GameBoy :=
  { g with cpu := { g.cpu with pause := cpu }, timer := { g.timer with pause := timer } }

/-- `GameBoy::pause` and `GameBoy::resume`. -/
def controlStep (g : GameBoy) : Option GameBoy :=
  match g.control with
  | .idle => none
  | .pauseCpu => some { g.pauseFlags true g.timer.pause with control := .waitCpu }
  | .waitCpu => some { g with control := if g.cpu.paused then .pauseTimer else .sleepCpu }
  | .sleepCpu => some { g with control := .waitCpu }
  | .pauseTimer => some { g.pauseFlags g.cpu.pause true with control := .waitTimer }
  | .waitTimer =>
    if g.timer.paused then some { g with control := .idle, halts := g.halts + 1 }
    else some { g with control := .sleepTimer }
  | .sleepTimer => some { g with control := .waitTimer }
  | .resetClock => some { g with control := .resumeCpu }
  | .resumeCpu => some { g.pauseFlags false g.timer.pause with control := .resumeTimer }
  | .resumeTimer => some { g.pauseFlags g.cpu.pause false with control := .idle }

def step (g : GameBoy) (a : Action) : Option GameBoy :=
  match a with
  | .cpu => some { g with cpu := g.cpu.step }
  | .timer => some { g with timer := g.timer.step }
  | .construct => if g.control = .idle then some { g with control := .pauseCpu } else none
  | .destroy =>
    if g.control = .idle ∧ 0 < g.halts then
      some { g with control := .resetClock, halts := g.halts - 1 }
    else none
  | .control => g.controlStep

/-- The flags of the constructor, after `start`. -/
def started : GameBoy where
  cpu := { pc := .starting, pause := false, paused := true }
  timer := { pc := .starting, pause := false, paused := true }
  control := .idle
  halts := 0

end GameBoy

end GbEmu
