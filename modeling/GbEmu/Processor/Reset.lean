import GbEmu.Processor.Halt
import GbEmu.Processor.Speed

/-!
What `Processor::reset` forgets. It leaves the halted state and the clock speed as they
are, which the constructors set; the operands are stale as well, but no instruction
sees them.
-/

namespace GbEmu

open Run

/-- The constructor of the timer, in the place of `t`. -/
def TimerModule.construct (t : TimerModule) (s : Bus) : TimerModule × Bus :=
  { t with speed := .normal }.reset s

namespace Machine

/-- The constructor of the processor. Every field that it leaves alone holds what was in
the place of it before. -/
def construct (m : Machine) (place : Processor) : Machine :=
  let (timer, s) := place.timer.construct m.bus
  let cpu := { place with enable := true, halted := false, timer := timer }
  { m with cpu := cpu, bus := s }.reset

/-- What can be seen of a processor from outside. -/
structure Seen where
  registers : List UInt8
  pc : UInt16
  sp : UInt16
  bus : Bus
  ticks : List UInt8

def seen (m : Machine) : Seen :=
  ⟨[m.cpu.a, m.cpu.f, m.cpu.b, m.cpu.c, m.cpu.d, m.cpu.e, m.cpu.h, m.cpu.l], m.cpu.pc, m.cpu.sp,
    m.bus, m.ticks⟩

/-- Two processors that cannot be told apart, however long they run. -/
def SameBehaviour (w : World) (m m' : Machine) : Prop :=
  ∀ n, (m.cycles w n).map seen = (m'.cycles w n).map seen

variable {w : World} {m : Machine}

theorem cycle_stopped (h : m.running = false) : m.cycle w = .ok m := by
  refine if_pos ?_
  rw [← Bool.not_or]
  exact congrArg Bool.not h

theorem cycles_stopped (h : m.running = false) (n : Nat) : m.cycles w n = .ok m :=
  run_fixed fun _ _ => cycle_stopped h

/-! ## After a reset -/

/-- The registers after `reset` of the timer. -/
def clearTimer (io : UInt16 → UInt8) : UInt16 → UInt8 :=
  Function.update (Function.update (Function.update (Function.update io cpuTimerDivAddress 0)
    cpuTimerCounterAddress 0) cpuTimerModuloAddress 0) cpuTimerControlAddress 0

/-- The bus after a reset. -/
def resetBus (s : Bus) : Bus :=
  { s with
    io := clearTimer (Function.update s.io interruptFlagsAddress 0)
    zero := Function.update s.zero interruptMaskAddress 0 }

/-- The processor after a reset that does not reach these three fields. -/
def resetWith (m : Machine) (halted : Bool) (speed : ClockSpeed) (operands : UInt8 × UInt8) :
    Machine :=
  { m with
    cpu := { resetProcessor with halted := halted, operands := operands, timer := ⟨0, 0, speed⟩ }
    bus := resetBus m.bus }

theorem clearTimer_apply (io : UInt16 → UInt8) (address : UInt16) :
    clearTimer io address =
      if address ∈ [cpuTimerDivAddress, cpuTimerCounterAddress, cpuTimerModuloAddress,
        cpuTimerControlAddress] then 0 else io address := by
  simp only [clearTimer, Function.update_apply, List.mem_cons, List.not_mem_nil, or_false]
  split_ifs <;> simp_all

/-- What a reset clears is cleared by a second one again. -/
theorem clearTimer_again (io : UInt16 → UInt8) :
    clearTimer (Function.update (clearTimer (Function.update (clearTimer io)
      interruptFlagsAddress 0)) interruptFlagsAddress 0) =
      clearTimer (Function.update io interruptFlagsAddress 0) := by
  funext address
  simp only [clearTimer_apply, Function.update_apply]
  split_ifs <;> rfl

theorem timer_reset (t : TimerModule) (s : Bus) :
    t.reset s = (⟨0, 0, t.speed⟩, { s with io := clearTimer s.io }) := by
  simp only [TimerModule.reset, Bus.setIo, clearTimer]

theorem reset_eq (m : Machine) :
    m.reset = m.resetWith m.cpu.halted m.cpu.timer.speed m.cpu.operands := by
  simp only [reset, timer_reset, resetWith, resetBus, resetProcessor, Bus.setIo]

theorem construct_reset (m : Machine) (place : Processor) :
    (m.construct place).reset = m.resetWith false .normal place.operands := by
  simp only [construct, TimerModule.construct, timer_reset, reset_eq, resetWith, resetBus,
    clearTimer_again, Function.update_idem]

section Reset

variable (halted : Bool) (speed : ClockSpeed) (operands : UInt8 × UInt8)

theorem resetWith_requested : (m.resetWith halted speed operands).requested = 0 := by
  have hmask : (m.resetWith halted speed operands).bus.zero interruptMaskAddress = 0 :=
    Function.update_self interruptMaskAddress 0 m.bus.zero
  rw [requested, hmask, UInt8.zero_and, UInt8.zero_and]

theorem running_resetWith : (m.resetWith halted speed operands).running = m.running := rfl

/-- The first call runs an instruction, which does not see the old operands. -/
theorem cycle_resetWith (hrunning : m.running = true) :
    (m.resetWith false speed operands).cycle w =
      (m.resetWith false speed (0, 0)).awake.runInstruction w := by
  have hnone := pending_of_none (m.resetWith_requested false speed operands)
  rw [cycle_running w ((running_resetWith false speed operands).trans hrunning),
    interrupt_none w hnone]
  exact execute_awake w rfl

end Reset

/-- Calls that agree once agree from there on. -/
theorem cycles_congr {m' : Machine} (h : m.cycle w = m'.cycle w) (n : Nat) :
    m.cycles w (n + 1) = m'.cycles w (n + 1) := by
  induction n with
  | zero =>
    rw [cycles_succ, cycles_succ]
    exact h
  | succ n ih => rw [cycles_succ, cycles_succ w m', ih]

/-- Nothing runs, or what the reset leaves alone is as the constructors set it. -/
def ResetComplete (m : Machine) : Prop :=
  m.running = false ∨ (m.cpu.halted = false ∧ m.cpu.timer.speed = .normal)

/-- **What a reset forgets.** Behind it the processor behaves, however long it runs, as a
new one in its place does behind a reset, if it was not halted and at normal speed. -/
theorem reset_forgets (h : m.ResetComplete) (w : World) (place : Processor) :
    SameBehaviour w m.reset (m.construct place).reset := by
  intro n
  rw [construct_reset, reset_eq]
  cases hrunning : m.running with
  | false =>
    have hstays : ∀ halted speed operands, (m.resetWith halted speed operands).cycles w n =
        .ok (m.resetWith halted speed operands) := fun halted speed operands =>
      cycles_stopped ((running_resetWith halted speed operands).trans hrunning) n
    rw [hstays, hstays]
    rfl
  | true =>
    rcases h with hstopped | ⟨hhalted, hspeed⟩
    · exact absurd (hrunning.symm.trans hstopped) (by decide)
    · rw [hhalted, hspeed]
      cases n with
      | zero => rfl
      | succ n =>
        have hfirst := (cycle_resetWith (w := w) .normal m.cpu.operands hrunning).trans
          (cycle_resetWith .normal place.operands hrunning).symm
        rw [cycles_congr hfirst]

/-- A processor that was halted waits behind a reset for ever: nothing is enabled in IE. -/
theorem reset_waits {depth : Nat} (hwrite : w.write = Bus.write (depth + 1))
    (hhalted : m.cpu.halted = true) (hrunning : m.running = true) (n : Nat) :
    ∃ t, m.reset.cycles w n = .ok t ∧ m.reset.Waited n t := by
  rw [reset_eq]
  induction n using Nat.strong_induction_on with
  | _ n ih =>
    refine cycles_wait (m := m.resetWith _ _ _) hwrite hhalted
      ((running_resetWith _ _ _).trans hrunning) n ?_
    intro k hk t ht
    obtain ⟨t', ht', hwaited⟩ := ih k hk
    obtain rfl : t = t' := Except.ok.inj (ht.symm.trans ht')
    have hmask : t.bus.zero interruptMaskAddress = 0 := by
      rw [hwaited.bus.zero]
      exact Function.update_self interruptMaskAddress 0 m.bus.zero
    rw [requested, hmask, UInt8.zero_and, UInt8.zero_and]

/-- A console that is at normal speed and not halted. -/
theorem reset_forgets_timerPending :
    SameBehaviour (quietWorld 1) timerPending.reset (timerPending.construct resetProcessor).reset :=
  reset_forgets (.inr ⟨rfl, rfl⟩) _ _

/-- A console whose BIOS starts with HALT. -/
def haltingConsole : Machine := powerOn true ⟨[0x76], by decide⟩ none none

/-- After the HALT a reset does not get the processor going again. -/
theorem reset_keeps_halted :
    ¬ ∀ m, Steps haltingConsole m → ∀ (w : World) (place : Processor),
      SameBehaviour w m.reset (m.construct place).reset := by
  intro hall
  cases h : haltingConsole.cycle (quietWorld 1) with
  | error e =>
    have hok : (haltingConsole.cycle (quietWorld 1)).isOk = true := by decide
    rw [h] at hok
    cases hok
  | ok m =>
    have hreset : ((haltingConsole.cycle (quietWorld 1)).bind fun m =>
        (m.reset.cycles (quietWorld 1) 1).map fun t => t.cpu.pc) = .ok 0 := by decide
    have hnew : ((haltingConsole.cycle (quietWorld 1)).bind fun m =>
        ((m.construct resetProcessor).reset.cycles (quietWorld 1) 1).map fun t => t.cpu.pc) =
          .ok 1 := by
      decide
    rw [h] at hreset hnew
    have hpc : ∀ x : Except Fault Machine,
        (x.map seen).map Seen.pc = x.map fun t => t.cpu.pc := by
      intro x
      cases x <;> rfl
    have hsame := congrArg (Except.map Seen.pc)
      (hall m (.single (.cycle (quietWorld 1) 1 rfl h)) (quietWorld 1) resetProcessor 1)
    rw [hpc, hpc] at hsame
    exact absurd (hreset.symm.trans (hsame.trans hnew)) (by decide)

end Machine

end GbEmu
