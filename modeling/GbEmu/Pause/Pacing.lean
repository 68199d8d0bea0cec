import Mathlib.Logic.Relation
import Mathlib.Tactic.SplitIfs
import GbEmu.Lib.Run
import GbEmu.Pause.Halt

/-!
What the threads of `gameboy.cpp` do beside the handshake of `pause`: the CPU thread
waits in `Clock::tick` for the signals of the timer thread, and `stop` ends both.
-/

namespace GbEmu

/-- `GameBoy::Clock`. -/
structure Clock where
  /-- `m_ticks`. -/
  ticks : Nat
  /-- `m_speed`. -/
  speed : Nat
  deriving DecidableEq, Repr

namespace Clock

def refreshMs : Nat := 20
def ticksNormal : Nat := 4000000 / (1000 / refreshMs)
def ticksDouble : Nat := ticksNormal * 2
def ticksFree : Nat := 0

/-- What `m_ticks += ticks` stores. -/
def sum (c : Clock) (ticks : UInt8) : Nat := (c.ticks + ticks.toNat) % 0x100000000

/-- Whether `tick` waits for the timer thread. -/
def due (c : Clock) : Bool := c.speed != ticksFree && c.speed ≤ c.ticks

/-- What `m_ticks %= m_speed` stores. -/
def rest (c : Clock) : Nat := c.ticks % c.speed

def store (c : Clock) (ticks : Nat) : Clock := { c with ticks := ticks }

end Clock

/-- Where the CPU thread stands in `Clock::tick`. `m_ticks` is no atomic: a reset may fall
between the load and the store of one assignment. -/
inductive TickPc
  /-- In no call of it. -/
  | out
  /-- In `m_ticks += ticks`, before the store. -/
  | adding (ticks : UInt8) (sum : Nat)
  /-- In front of the test of `m_ticks`. -/
  | testing (ticks : UInt8)
  /-- In `wait`. -/
  | waiting (ticks : UInt8)
  /-- In front of `m_ticks %= m_speed`. -/
  | wrapping (ticks : UInt8)
  /-- In that assignment, before the store. -/
  | storing (ticks : UInt8) (rest : Nat)
  deriving DecidableEq, Repr

/-- Where the controlling thread stands in `stop`. -/
inductive StopPc
  | none
  /-- In `resume`, and then in front of the store to `m_runCpu`. -/
  | resuming
  | joinCpu
  /-- In front of the store to `m_runTimer`. -/
  | joinedCpu
  | joinTimer
  | stopped
  deriving DecidableEq, Repr

/-- The threads between `start` and the end of `stop`, of a console without a link: `m_link`
is null, so that `Clock::tick` does not call its `cycle`, nor `stop` its `stop`. A step is
one access to a flag or to `m_ticks`. -/
structure Session where
  threads : GameBoy
  clock : Clock
  /-- `m_ready`. -/
  ready : Bool
  runCpu : Bool
  runTimer : Bool
  tick : TickPc
  /-- Whether the timer thread has signalled in this pass. -/
  signalled : Bool
  cpuDone : Bool
  timerDone : Bool
  stop : StopPc
  /-- The ticks that `tick` has handed on to the devices. -/
  forwarded : Nat
  /-- The signals of the timer thread. -/
  signals : Nat
  /-- The calls of `m_clock.reset`. -/
  resets : Nat

inductive SessionAction
  /-- `m_cpu.cycle()` calls `Clock::tick`. -/
  | tick (ticks : UInt8)
  /-- The next access of the CPU thread. -/
  | cpu
  | timer
  | construct
  | destroy
  /-- A call of `GameBoy::stop`. -/
  | stop
  | control
  deriving DecidableEq, Repr

namespace Session

/-- The call, as far as the load of `m_ticks`. -/
def tickStep (s : Session) (ticks : UInt8) : Option Session :=
  if s.cpuDone = false ∧ s.tick = .out ∧ s.threads.cpu.pc = .working then
    some { s with tick := .adding ticks (s.clock.sum ticks) }
  else none

/-- The end of a call: the devices get the ticks, and there is no link to get them. -/
def forward (s : Session) (ticks : UInt8) : Session :=
  { s with tick := .out, forwarded := s.forwarded + ticks.toNat }

/-- The next access in `Clock::tick`. -/
def clockStep (s : Session) : Option Session :=
  match s.tick with
  | .out => none
  | .adding ticks sum => some { s with clock := s.clock.store sum, tick := .testing ticks }
  | .testing ticks =>
    if s.clock.due then some { s with tick := .waiting ticks } else some (s.forward ticks)
  | .waiting ticks =>
    if s.ready then some { s with ready := false, tick := .wrapping ticks } else none
  | .wrapping ticks => some { s with tick := .storing ticks s.clock.rest }
  | .storing ticks rest => some ({ s with clock := s.clock.store rest }.forward ticks)

/-- In `Clock::tick`; or the load of `m_runCpu` before a pass, or a step of `GameBoy::step`. -/
def cpuStep (s : Session) : Option Session :=
  if s.cpuDone then none
  else if s.tick ≠ .out then s.clockStep
  else if (s.threads.cpu.pc = .starting ∨ s.threads.cpu.pc = .working) ∧ s.runCpu = false then
    some { s with cpuDone := true }
  else some { s with threads := { s.threads with cpu := s.threads.cpu.step } }

/-- The next access in `executeTimer`. -/
def timerStep (s : Session) : Option Session :=
  if s.timerDone then none
  else if s.threads.timer.pc = .working ∧ s.signalled = false then
    some { s with ready := true, signalled := true, signals := s.signals + 1 }
  else if (s.threads.timer.pc = .starting ∨ s.threads.timer.pc = .working) ∧ s.runTimer = false then
    some { s with timerDone := true }
  else
    some { s with
      threads := { s.threads with timer := s.threads.timer.step }
      signalled := false }

/-- A step of `pause` or `resume`. -/
def pauseStep (s : Session) : Option Session :=
  s.threads.controlStep.map fun threads =>
    if s.threads.control = .resetClock then
      { s with
        threads := threads
        clock := s.clock.store 0
        resets := s.resets + 1 }
    else { s with threads := threads }

/-- A step of `pause`, `resume` or `stop`; there is no link to stop. -/
def controlStep (s : Session) : Option Session :=
  match s.stop with
  | .none => s.pauseStep
  | .resuming =>
    if s.threads.control = .idle then some { s with runCpu := false, stop := .joinCpu }
    else s.pauseStep
  | .joinCpu => if s.cpuDone then some { s with stop := .joinedCpu } else none
  | .joinedCpu => some { s with runTimer := false, stop := .joinTimer }
  | .joinTimer => if s.timerDone then some { s with stop := .stopped } else none
  | .stopped => none

/-- The constructor or the destructor of a `Halt` is entered. -/
def call (s : Session) (a : Action) : Option Session :=
  (s.threads.step a).map fun threads => { s with threads := threads }

def step (s : Session) (a : SessionAction) : Option Session :=
  match a with
  | .tick ticks => s.tickStep ticks
  | .cpu => s.cpuStep
  | .timer => s.timerStep
  | .construct =>
    if s.stop = .none then s.call .construct else none
  | .destroy =>
    if s.stop = .none then s.call .destroy else none
  | .stop =>
    if s.stop = .none ∧ s.threads.control = .idle then
      some { s with threads := { s.threads with control := .resetClock }, stop := .resuming }
    else none
  | .control => s.controlStep

def Step (s s' : Session) : Prop := ∃ a, s.step a = some s'

/-- After `start`. -/
def started (speed : Nat) : Session where
  threads := .started
  clock := { ticks := 0, speed := speed }
  ready := false
  runCpu := true
  runTimer := true
  tick := .out
  signalled := false
  cpuDone := false
  timerDone := false
  stop := .none
  forwarded := 0
  signals := 0
  resets := 0

end Session

/-! ## Pacing -/

namespace TickPc

/-- The ticks that the devices have not got yet. -/
def owed : TickPc → Nat
  | .out => 0
  | .adding ticks _ | .testing ticks | .waiting ticks | .wrapping ticks | .storing ticks _ =>
    ticks.toNat

/-- How far the count may be beyond the interval: a call adds its ticks, and `%=` takes the
interval away. -/
def excess : TickPc → Nat
  | .out | .storing _ _ => 0
  | .adding ticks _ | .testing ticks | .waiting ticks | .wrapping ticks => ticks.toNat

/-- The signals that a call has taken, and that `%=` has not yet counted. -/
def taken : TickPc → Nat
  | .wrapping _ => 1
  | .out | .adding _ _ | .testing _ | .waiting _ | .storing _ _ => 0

theorem excess_le (pc : TickPc) : pc.excess ≤ 255 := by
  cases pc with
  | out | storing => exact Nat.zero_le 255
  | adding ticks | testing ticks | waiting ticks | wrapping ticks =>
    exact Nat.le_of_lt_succ ticks.toNat_lt

end TickPc

namespace Session

/-- The count that the CPU thread goes on with: `m_ticks`, or what it is about to store. -/
def level (s : Session) : Nat :=
  match s.tick with
  | .adding _ sum => sum
  | .storing _ rest => rest
  | .out | .testing _ | .waiting _ | .wrapping _ => s.clock.ticks

/-- The signals that the count does not show. -/
def unspent (s : Session) : Nat := (if s.ready then 1 else 0) + s.tick.taken

/-- The ticks for which there was a signal or a reset. A reset that falls between the
addition and the test makes the ticks of that call free. -/
def allowed (speed : Nat) (s : Session) : Nat :=
  speed * (s.signals + s.resets) + 255 * s.resets

/-- Each interval of `speed` ticks has taken a signal, or a reset of the count. -/
structure Paced (speed : Nat) (s : Session) : Prop where
  speed_eq : s.clock.speed = speed
  level_lt : s.level < speed + s.tick.excess
  count : s.forwarded + s.tick.owed + speed * s.unspent ≤ s.allowed speed + s.level

section Pacing

variable {speed : Nat} {s s' : Session}

theorem paced_tick (hlow : 255 < speed) (hhigh : speed ≤ 0xFFFFFF00) (h : s.Paced speed)
    {ticks : UInt8} (hstep : s.tickStep ticks = some s') : s'.Paced speed := by
  obtain ⟨hspeed, hlevel, hcount⟩ := h
  unfold tickStep at hstep
  split_ifs at hstep with hfree
  obtain rfl := Option.some.inj hstep
  have ht := ticks.toNat_lt
  simp only [level, unspent, hfree.2.1, TickPc.excess, TickPc.owed, TickPc.taken] at hlevel hcount
  have hsum : s.clock.sum ticks = s.clock.ticks + ticks.toNat := Nat.mod_eq_of_lt (by omega)
  refine ⟨hspeed, ?_, ?_⟩
  · simp only [level, TickPc.excess, hsum]
    omega
  · simp only [level, unspent, allowed, TickPc.owed, TickPc.taken, hsum] at hcount ⊢
    omega

/-- The accesses of one call. -/
theorem paced_clock (hlow : 255 < speed) (h : s.Paced speed) (hstep : s.clockStep = some s') :
    s'.Paced speed := by
  obtain ⟨hspeed, hlevel, hcount⟩ := h
  unfold clockStep at hstep
  simp only [level, unspent, allowed] at hlevel hcount
  cases hpc : s.tick with
  | out => simp [hpc] at hstep
  | adding ticks sum =>
    simp only [hpc] at hstep hlevel hcount
    obtain rfl := Option.some.inj hstep
    exact ⟨hspeed, hlevel, hcount⟩
  | testing ticks =>
    simp only [hpc, TickPc.excess, TickPc.owed, TickPc.taken] at hstep hlevel hcount
    split_ifs at hstep with hdue
    · obtain rfl := Option.some.inj hstep
      exact ⟨hspeed, hlevel, hcount⟩
    · obtain rfl := Option.some.inj hstep
      have hlt : s.clock.ticks < speed := by
        simp only [Clock.due, hspeed, Clock.ticksFree, Bool.and_eq_true, bne_iff_ne,
          decide_eq_true_eq, not_and] at hdue
        exact Nat.lt_of_not_le (hdue (by omega))
      exact ⟨hspeed, hlt, hcount⟩
  | waiting ticks =>
    simp only [hpc, TickPc.excess, TickPc.owed, TickPc.taken] at hstep hlevel hcount
    split_ifs at hstep with hready
    obtain rfl := Option.some.inj hstep
    rw [if_pos hready] at hcount
    exact ⟨hspeed, hlevel, hcount⟩
  | wrapping ticks =>
    simp only [hpc, TickPc.excess, TickPc.owed, TickPc.taken, Nat.mul_succ] at hstep hlevel hcount
    obtain rfl := Option.some.inj hstep
    have ht := ticks.toNat_lt
    have hrest : s.clock.ticks ≤ s.clock.rest + speed := by
      have hdiv := Nat.div_add_mod s.clock.ticks speed
      have hone : s.clock.ticks / speed ≤ 1 :=
        Nat.le_of_lt_succ ((Nat.div_lt_iff_lt_mul (by omega)).mpr (by omega))
      have hmul : speed * (s.clock.ticks / speed) ≤ speed * 1 := Nat.mul_le_mul_left _ hone
      simp only [Clock.rest, hspeed]
      omega
    refine ⟨hspeed, ?_, ?_⟩
    · simp only [level, Clock.rest, hspeed]
      exact Nat.mod_lt _ (by omega)
    · simp only [level, unspent, allowed, TickPc.owed, TickPc.taken, Nat.add_zero]
      omega
  | storing ticks rest =>
    simp only [hpc] at hstep hlevel hcount
    obtain rfl := Option.some.inj hstep
    exact ⟨hspeed, hlevel, hcount⟩

theorem paced_cpu (hlow : 255 < speed) (h : s.Paced speed) (hstep : s.cpuStep = some s') :
    s'.Paced speed := by
  unfold cpuStep at hstep
  split_ifs at hstep
  · exact paced_clock hlow h hstep
  · obtain rfl := Option.some.inj hstep
    exact ⟨h.speed_eq, h.level_lt, h.count⟩
  · obtain rfl := Option.some.inj hstep
    exact ⟨h.speed_eq, h.level_lt, h.count⟩

theorem paced_timer (h : s.Paced speed) (hstep : s.timerStep = some s') : s'.Paced speed := by
  unfold timerStep at hstep
  split_ifs at hstep with hdone hsignal hexit
  · obtain rfl := Option.some.inj hstep
    refine ⟨h.speed_eq, h.level_lt, ?_⟩
    have hcount := h.count
    -- At most one signal is there to be taken, so that the new one covers it.
    have hunspent : s.tick.taken ≤ s.unspent := Nat.le_add_left _ _
    have hmul := Nat.mul_le_mul_left speed hunspent
    simp only [level, unspent, allowed, if_true] at hcount ⊢
    simp only [Nat.mul_add, Nat.mul_one] at hcount hmul ⊢
    omega
  · obtain rfl := Option.some.inj hstep
    exact ⟨h.speed_eq, h.level_lt, h.count⟩
  · obtain rfl := Option.some.inj hstep
    exact ⟨h.speed_eq, h.level_lt, h.count⟩

/-- `m_clock.reset()`, wherever the CPU thread stands. -/
theorem paced_reset (h : s.Paced speed) :
    { s with clock := s.clock.store 0, resets := s.resets + 1 }.Paced speed := by
  obtain ⟨hspeed, hlevel, hcount⟩ := h
  have hexcess := s.tick.excess_le
  have hmore : speed * (s.signals + (s.resets + 1)) = speed * (s.signals + s.resets) + speed :=
    Nat.mul_succ _ _
  refine ⟨hspeed, ?_, ?_⟩
  · cases hpc : s.tick <;> simp only [level, hpc, Clock.store] at hlevel ⊢ <;> omega
  · simp only [level, unspent, allowed, hmore] at hlevel hcount ⊢
    cases hpc : s.tick <;> simp only [hpc, Clock.store] at hexcess hlevel hcount ⊢ <;> omega

theorem paced_pause (h : s.Paced speed) (hstep : s.pauseStep = some s') : s'.Paced speed := by
  obtain ⟨threads, -, rfl⟩ := Option.map_eq_some_iff.mp hstep
  split_ifs
  · have hreset := paced_reset h
    exact ⟨hreset.speed_eq, hreset.level_lt, hreset.count⟩
  · exact ⟨h.speed_eq, h.level_lt, h.count⟩

theorem paced_step (hlow : 255 < speed) (hhigh : speed ≤ 0xFFFFFF00) (h : s.Paced speed)
    (hstep : s.Step s') : s'.Paced speed := by
  obtain ⟨a, hstep⟩ := hstep
  cases a with
  | tick ticks => exact paced_tick hlow hhigh h hstep
  | cpu => exact paced_cpu hlow h hstep
  | timer => exact paced_timer h hstep
  | construct | destroy =>
    simp only [step] at hstep
    split_ifs at hstep
    obtain ⟨threads, -, rfl⟩ := Option.map_eq_some_iff.mp hstep
    exact ⟨h.speed_eq, h.level_lt, h.count⟩
  | stop =>
    simp only [step] at hstep
    split_ifs at hstep
    obtain rfl := Option.some.inj hstep
    exact ⟨h.speed_eq, h.level_lt, h.count⟩
  | control =>
    simp only [step, controlStep] at hstep
    cases hs : s.stop with
    | none =>
      simp only [hs] at hstep
      exact paced_pause h hstep
    | resuming =>
      simp only [hs] at hstep
      split_ifs at hstep
      · obtain rfl := Option.some.inj hstep
        exact ⟨h.speed_eq, h.level_lt, h.count⟩
      · exact paced_pause h hstep
    | joinCpu | joinedCpu | joinTimer =>
      simp only [hs] at hstep
      first
      | obtain rfl := Option.some.inj hstep
        exact ⟨h.speed_eq, h.level_lt, h.count⟩
      | split_ifs at hstep
        obtain rfl := Option.some.inj hstep
        exact ⟨h.speed_eq, h.level_lt, h.count⟩
    | stopped => simp [hs] at hstep

theorem paced_steps (hlow : 255 < speed) (hhigh : speed ≤ 0xFFFFFF00)
    (h : Relation.ReflTransGen Step (started speed) s) : s.Paced speed := by
  induction h with
  | refl => exact ⟨rfl, Nat.lt_add_right _ (by simp only [level, started]; omega), Nat.le_refl 0⟩
  | tail _ hstep ih => exact paced_step hlow hhigh ih hstep

/-- **The emulation does not outrun the timer thread**: at a fixed speed, fewer ticks than
those of one interval more than there were signals and resets reach the devices, and with
each reset the ticks of one call, in every interleaving of the threads with any use of
`pause`, `resume` and `stop`. -/
theorem forwarded_lt (hlow : 255 < speed) (hhigh : speed ≤ 0xFFFFFF00)
    (h : Relation.ReflTransGen Step (started speed) s) :
    s.forwarded < speed * (s.signals + s.resets + 1) + 255 * s.resets := by
  obtain ⟨-, hlevel, hcount⟩ := paced_steps hlow hhigh h
  have howed : s.tick.excess ≤ s.tick.owed := by
    cases s.tick with
    | storing => exact Nat.zero_le _
    | out | adding | testing | waiting | wrapping => exact Nat.le_refl _
  rw [Nat.mul_succ]
  simp only [allowed] at hcount
  omega

/-- A call of `tick` that does not wait. -/
def called (ticks : UInt8) : List SessionAction := [.tick ticks, .cpu, .cpu]

/-- One call waits for a signal, and the `resume` of `stop` falls between the addition and
the test of another. -/
def outrun : List SessionAction :=
  [.cpu, .cpu, .cpu, .cpu] ++ (List.replicate 400 (called 200)).flatten ++
    [.timer, .timer, .timer, .timer, .timer, .cpu, .cpu, .cpu] ++
      (List.replicate 333 (called 240)).flatten ++ [.tick 240, .cpu, .stop, .control, .cpu] ++
        (List.replicate 333 (called 240)).flatten

/-- The ticks of the call that a reset makes free are more than an interval for each signal
and each reset, and one, gives. -/
theorem forwarded_lt_outrun : ∃ s, Relation.ReflTransGen Step (started Clock.ticksNormal) s ∧
    s.signals = 1 ∧ s.resets = 1 ∧ Clock.ticksNormal * 3 < s.forwarded ∧
      s.forwarded < Clock.ticksNormal * (s.signals + s.resets + 1) + 255 * s.resets := by
  have hrun : (outrun.foldlM step (started Clock.ticksNormal)).map
      (fun s => (s.forwarded, s.signals, s.resets)) = some (240080, 1, 1) := by decide +kernel
  obtain ⟨s, hs, hstate⟩ := Option.map_eq_some_iff.mp hrun
  obtain ⟨hforwarded, hrest⟩ := Prod.mk.inj hstate
  obtain ⟨hsignals, hresets⟩ := Prod.mk.inj hrest
  have hsteps : Relation.ReflTransGen Step (started Clock.ticksNormal) s :=
    Run.reflTransGen_of_foldlM (fun _ a _ h => ⟨a, h⟩) hs
  refine ⟨s, hsteps, hsignals, hresets, ?_, forwarded_lt (by decide) (by decide) hsteps⟩
  rw [hforwarded]
  decide

end Pacing

end Session

end GbEmu
