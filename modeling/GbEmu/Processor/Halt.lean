import GbEmu.Machine.Tick
import GbEmu.Processor.Interrupts

/-!
HALT over consecutive cycles: how long the processor waits and how it goes on.
-/

namespace GbEmu

open Run

namespace Machine

variable (w : World)

/-- `n` calls of `cycle`. -/
def cycles (m : Machine) (n : Nat) : Except Fault Machine :=
  run (fun m _ => m.cycle w) m (List.range n)

theorem cycles_succ (m : Machine) (n : Nat) :
    m.cycles w (n + 1) = (m.cycles w n).bind fun t => t.cycle w := by
  have hlast : (fun t : Machine => run (fun m _ => m.cycle w) t [n]) = fun t => t.cycle w := by
    funext t
    rw [run_cons]
    cases t.cycle w <;> rfl
  rw [cycles, List.range_succ, run_append, hlast]
  rfl

/-- `execute` from the fetch of the opcode on. -/
def runInstruction (m : Machine) : Except Fault Machine :=
  m.fetch.bind fun (opcode, m) =>
    (m.lookup opcode).bind fun (operation, m) =>
      (run readOperand m (List.range (operation.length.toNat - 1))).bind fun m =>
        m.perform w operation

theorem execute_awake {m : Machine} {interrupted : Bool}
    (h : (m.cpu.halted && !interrupted) = false) :
    m.execute w interrupted = m.awake.runInstruction w := by
  unfold execute
  rw [h]
  rfl

theorem awake_halted (m : Machine) : m.awake.cpu.halted = false := by
  simp only [awake]
  split_ifs <;> rfl

theorem awake_pc (m : Machine) : m.awake.cpu.pc = m.cpu.pc := by
  simp only [awake]
  split_ifs <;> rfl

theorem awake_sp (m : Machine) : m.awake.cpu.sp = m.cpu.sp := by
  simp only [awake]
  split_ifs <;> rfl

theorem awake_bus (m : Machine) : ∃ inBios, m.awake.bus = { m.bus with inBios := inBios } := by
  simp only [awake]
  split_ifs
  · exact ⟨false, rfl⟩
  · exact ⟨m.bus.inBios, rfl⟩

variable {w} {m : Machine}

/-! ## Waiting -/

section Waiting

variable (hhalted : m.cpu.halted = true)

include hhalted

/-- A call without a pending interrupt is a tick of one M-cycle. -/
theorem cycle_waits (hrunning : m.running = true) (h : m.requested = 0) :
    m.cycle w = m.clockTick w (adjustment m.cpu.timer.speed) := by
  rw [cycle_running w hrunning, interrupt_none w (pending_of_none h)]
  show m.execute w false = _
  rw [execute, hhalted, Bool.not_false, Bool.and_true, if_pos rfl, tick, UInt8.one_mul]

/-- A call with one leaves the halted state, whatever IME is. -/
theorem cycle_wakes (hrunning : m.running = true) (h : m.requested ≠ 0) :
    ∃ i : Interrupt, IsLowest m.requested i.bit ∧
      (m.cpu.enable = true → m.cycle w =
        (m.push w m.cpu.pc).bind fun n => (n.served i).awake.runInstruction w) ∧
      (m.cpu.enable = false → m.cycle w = m.awake.runInstruction w) := by
  cases hp : m.pending with
  | none => exact absurd (pending_none hp) h
  | some i =>
    refine ⟨i, (pending_some hp).2, fun henable => ?_, fun henable => ?_⟩
    · rw [cycle_running w hrunning, interrupt_enabled w henable hp]
      cases m.push w m.cpu.pc with
      | error e => rfl
      | ok n => exact execute_awake w (Bool.and_false _)
    · rw [cycle_running w hrunning, interrupt_disabled w henable hhalted hp]
      exact execute_awake w (Bool.and_false _)

end Waiting

/-- Since `m` there have been `n` calls that only waited. -/
structure Waited (m : Machine) (n : Nat) (t : Machine) : Prop where
  cpu : ∃ timer, timer.speed = m.cpu.timer.speed ∧ t.cpu = { m.cpu with timer := timer }
  bus : m.bus.Kept t.bus
  ticks : t.ticks = m.ticks ++ List.replicate n (adjustment m.cpu.timer.speed)

theorem Waited.refl (m : Machine) : m.Waited 0 m :=
  ⟨⟨m.cpu.timer, rfl, rfl⟩, .refl m.bus, (List.append_nil _).symm⟩

theorem Waited.succ {n : Nat} {t t' : Machine} (h : m.Waited n t)
    (h' : t.Ticked (adjustment t.cpu.timer.speed) t') : m.Waited (n + 1) t' := by
  obtain ⟨timer, hspeed, hcpu⟩ := h.cpu
  obtain ⟨timer', hspeed', hcpu'⟩ := h'.cpu
  have hsame : t.cpu.timer.speed = m.cpu.timer.speed := by
    rw [hcpu]
    exact hspeed
  refine ⟨⟨timer', hspeed'.trans hsame, by rw [hcpu', hcpu]⟩, h.bus.trans h'.bus, ?_⟩
  rw [h'.ticks, h.ticks, hsame, List.replicate_succ', List.append_assoc]

theorem Waited.halted {n : Nat} {t : Machine} (h : m.Waited n t) :
    t.cpu.halted = m.cpu.halted := by
  obtain ⟨timer, -, hcpu⟩ := h.cpu
  rw [hcpu]

theorem Waited.running {n : Nat} {t : Machine} (h : m.Waited n t) : t.running = m.running := by
  unfold Machine.running Bus.isCartridgeValid
  rw [h.bus.cartridge, h.bus.inBios]

/-- A halted processor waits as long as nothing is pending. -/
theorem cycles_wait {depth : Nat} (hwrite : w.write = Bus.write (depth + 1))
    (hhalted : m.cpu.halted = true) (hrunning : m.running = true) (n : Nat)
    (hquiet : ∀ k < n, ∀ t, m.cycles w k = .ok t → t.requested = 0) :
    ∃ t, m.cycles w n = .ok t ∧ m.Waited n t := by
  induction n with
  | zero => exact ⟨m, rfl, .refl m⟩
  | succ n ih =>
    obtain ⟨t, ht, hwaited⟩ := ih fun k hk => hquiet k (Nat.lt_succ_of_lt hk)
    have hnone := hquiet n (Nat.lt_succ_self n) t ht
    obtain ⟨t', ht', hticked⟩ := clockTick_total hwrite t (adjustment t.cpu.timer.speed)
    refine ⟨t', ?_, hwaited.succ hticked⟩
    rw [cycles_succ, ht]
    show t.cycle w = _
    rw [cycle_waits (hwaited.halted.trans hhalted) (hwaited.running.trans hrunning) hnone, ht']

/-- Ready to fetch at `pc`, out of the halted state. -/
def ReadyAt (m : Machine) (pc : UInt16) : Prop := m.cpu.halted = false ∧ m.cpu.pc = pc

theorem ready_awake (m : Machine) : m.awake.ReadyAt m.cpu.pc := ⟨m.awake_halted, m.awake_pc⟩

/-- **HALT.** As long as every call starts without a pending interrupt, the processor
changes nothing of its own and each call is one M-cycle. The first call that starts with
one runs an instruction: at the vector, behind a push of the old PC, if IME is set; else
at the old PC, with stack and IF as they are. -/
theorem halt_waits {depth : Nat} (hwrite : w.write = Bus.write (depth + 1))
    (hhalted : m.cpu.halted = true) (hvalid : m.bus.isCartridgeValid = true) (n : Nat)
    (hquiet : ∀ k < n, ∀ t, m.cycles w k = .ok t → t.requested = 0) :
    ∃ t, m.cycles w n = .ok t ∧ m.Waited n t ∧
      (t.requested ≠ 0 → ∃ i : Interrupt, IsLowest t.requested i.bit ∧
        (m.cpu.enable = true →
          t.cycle w = (t.push w m.cpu.pc).bind (fun d => (d.served i).awake.runInstruction w) ∧
            ∀ d : Machine, (d.served i).awake.ReadyAt i.vector) ∧
        (m.cpu.enable = false →
          t.cycle w = t.awake.runInstruction w ∧ t.awake.ReadyAt m.cpu.pc ∧
            t.awake.cpu.sp = m.cpu.sp ∧
              ∃ inBios, t.awake.bus = { t.bus with inBios := inBios })) := by
  have hrunning := running_of_valid hvalid
  obtain ⟨t, ht, hwaited⟩ := cycles_wait hwrite hhalted hrunning n hquiet
  refine ⟨t, ht, hwaited, fun hrequested => ?_⟩
  obtain ⟨i, hlowest, hset, hclear⟩ := cycle_wakes (w := w) (hwaited.halted.trans hhalted)
    (hwaited.running.trans hrunning) hrequested
  obtain ⟨timer, -, hcpu⟩ := hwaited.cpu
  have hpc : t.cpu.pc = m.cpu.pc := by rw [hcpu]
  have henable : t.cpu.enable = m.cpu.enable := by rw [hcpu]
  rw [hpc, henable] at hset
  rw [henable] at hclear
  refine ⟨i, hlowest, fun h => ⟨hset h, fun d => (d.served i).ready_awake⟩, fun h => ?_⟩
  exact ⟨hclear h, hpc ▸ t.ready_awake, t.awake_sp.trans (by rw [hcpu]), t.awake_bus⟩

/-- A halted processor whose timer is about to overflow. -/
def waiting : Machine where
  cpu := { resetProcessor with pc := 0x0150, halted := true, timer := ⟨12, 0, .normal⟩ }
  bus :=
    { ((Bus.bareConsole.setIo cpuTimerControlAddress 0x05).setIo cpuTimerCounterAddress 0xFF) with
      cartridge := some { Cartridge.empty with valid := true }
      zero := fun address => if address = interruptMaskAddress then 0x04 else 0 }
  ticks := []
  requests := []

/-- After one M-cycle the timer wakes it up. -/
theorem halt_waits_timer : ∃ t, waiting.cycles (quietWorld 1) 1 = .ok t ∧ t.ticks = [4] ∧
    t.cycle (quietWorld 1) = (t.push (quietWorld 1) 0x0150).bind fun d =>
      (d.served .timer).awake.runInstruction (quietWorld 1) := by
  obtain ⟨t, ht, hwaited, hwakes⟩ := halt_waits (w := quietWorld 1) (m := waiting) rfl rfl rfl 1
    fun k hk t ht => by
      obtain rfl : k = 0 := by omega
      exact Except.ok.inj ht ▸ rfl
  have hrequested : t.requested = 0x04 := by
    have h : (waiting.cycles (quietWorld 1) 1).map requested = .ok 0x04 := by decide
    rw [ht] at h
    exact Except.ok.inj h
  obtain ⟨i, hlowest, hset, -⟩ := hwakes (by rw [hrequested]; decide)
  obtain rfl : i = .timer := by
    rw [hrequested] at hlowest
    revert hlowest
    cases i <;> decide
  exact ⟨t, ht, hwaited.ticks, (hset rfl).1⟩

end Machine

end GbEmu
