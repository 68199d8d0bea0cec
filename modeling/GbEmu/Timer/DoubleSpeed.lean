import GbEmu.Machine
import GbEmu.Timer.Counting

/-!
The timer at the two clock speeds. At double speed an M-cycle has half the ticks and
every period is halved, so a timer whose residues are halved as well does the same to
its registers.
-/

namespace GbEmu

namespace TimerModule

inductive TimerRegister
  | divider
  | counter
  | modulo
  | control
  deriving DecidableEq, Repr

def TimerRegister.address : TimerRegister → UInt16
  | divider => cpuTimerDivAddress
  | counter => cpuTimerCounterAddress
  | modulo => cpuTimerModuloAddress
  | control => cpuTimerControlAddress

/-- What happens to the timer: M-cycles of the processor, or a store of the program. -/
inductive TimerAction
  | tick (count : UInt8)
  | write (r : TimerRegister) (value : UInt8)
  deriving DecidableEq, Repr

def act (depth : Nat) (x : TimerModule × Bus) : TimerAction → Except Fault (TimerModule × Bus)
  | .tick count =>
    let y := x.1.cycle x.2 (count * Machine.adjustment x.1.speed)
    .ok (y.1, y.2.1)
  | .write r value => (Bus.write depth x.2 r.address value).map fun s => (x.1, s)

/-- Memories with the same timer registers, interrupt flags and pending reset. -/
structure SameTimer (s u : Bus) : Prop where
  registers : ∀ r : TimerRegister, s.io r.address = u.io r.address
  flags : s.io interruptFlagsAddress = u.io interruptFlagsAddress
  reset : s.rtcReset = u.rtcReset

/-- A timer at normal speed, and one at double speed with half its residues. -/
structure Halved (x y : TimerModule × Bus) : Prop where
  normal : x.1.speed = .normal
  double : y.1.speed = .double
  rtc : x.1.rtc = 2 * y.1.rtc
  ticks : x.1.ticks = 2 * y.1.ticks
  same : SameTimer x.2 y.2

/-! ## Memories -/

theorem SameTimer.setIo {s u : Bus} (h : SameTimer s u) (address : UInt16) (value : UInt8) :
    SameTimer (s.setIo address value) (u.setIo address value) := by
  have hio : ∀ port : UInt16, s.io port = u.io port →
      (s.setIo address value).io port = (u.setIo address value).io port := by
    intro port hport
    by_cases he : port = address
    · subst he
      rw [Bus.setIo_io_self, Bus.setIo_io_self]
    · rw [Bus.setIo_io_of_ne _ he, Bus.setIo_io_of_ne _ he, hport]
  exact ⟨fun r => hio _ (h.registers r), hio _ h.flags, h.reset⟩

theorem SameTimer.clearReset {s u : Bus} (h : SameTimer s u) :
    SameTimer { s with rtcReset := false } { u with rtcReset := false } :=
  ⟨h.registers, h.flags, rfl⟩

theorem SameTimer.request {s u : Bus} (h : SameTimer s u) (i : Interrupt) :
    SameTimer (s.request i) (u.request i) := by
  unfold Bus.request
  rw [h.flags]
  exact h.setIo _ _

theorem sameTimer_incrementDivider {s u : Bus} (h : SameTimer s u) :
    SameTimer (incrementDivider s) (incrementDivider u) := by
  have hdivider : s.io cpuTimerDivAddress = u.io cpuTimerDivAddress := h.registers .divider
  unfold incrementDivider
  rw [hdivider]
  exact h.setIo _ _

theorem sameTimer_incrementCounter (x y : Bus × List Interrupt) (h : SameTimer x.1 y.1) :
    SameTimer (incrementCounter x).1 (incrementCounter y).1 := by
  have hcounter : x.1.io cpuTimerCounterAddress = y.1.io cpuTimerCounterAddress :=
    h.registers .counter
  have hcounted := h.setIo cpuTimerCounterAddress (y.1.io cpuTimerCounterAddress + 1)
  simp only [incrementCounter, hcounter]
  split_ifs with hmax
  · have hrequested := hcounted.request .timer
    have hmodulo := hrequested.registers .modulo
    simp only [TimerRegister.address] at hmodulo
    rw [hmodulo]
    exact hrequested.setIo _ _
  · exact hcounted

/-! ## A cycle in three parts -/

def runDivider (x : TimerModule × Bus) (ticks : Nat) : TimerModule × Bus :=
  let y := Drain.drain x.1.period incrementDivider ((x.1.rtc + ticks) % 2 ^ 16) x.2
  ({ x.1 with rtc := y.1 }, y.2)

def runCounter (x : TimerModule × Bus) (ticks : Nat) : TimerModule × Bus :=
  if !isEnabled x.2 then x
  else
    let y := Drain.drain (x.1.timeout x.2) incrementCounter ((x.1.ticks + ticks) % 2 ^ 16) (x.2, [])
    ({ x.1 with ticks := y.1 }, y.2.1)

theorem cycle_parts (t : TimerModule) (s : Bus) (ticks : UInt8) :
    ((t.cycle s ticks).1, (t.cycle s ticks).2.1) =
      runCounter (runDivider (t.resetDivider s) ticks.toNat) ticks.toNat := by
  cases hen : isEnabled (runDivider (t.resetDivider s) ticks.toNat).2 with
  | false =>
    simp only [runDivider] at hen
    simp only [cycle, runCounter, runDivider, hen, Bool.not_false, if_true]
  | true =>
    simp only [runDivider] at hen
    simp only [cycle, runCounter, runDivider, hen, Bool.not_true, Bool.false_eq_true, if_false]

/-- Residues that a tick of five M-cycles does not carry past sixteen bits. -/
def Fits (t : TimerModule) : Prop := t.rtc ≤ 65515 ∧ t.ticks ≤ 65515

theorem halved_resetDivider {x y : TimerModule × Bus} (h : Halved x y) (hx : Fits x.1) :
    Halved (x.1.resetDivider x.2) (y.1.resetDivider y.2) ∧ Fits (x.1.resetDivider x.2).1 := by
  unfold resetDivider
  rw [h.same.reset]
  split_ifs
  · refine ⟨⟨h.normal, h.double, rfl, h.ticks, ?_⟩, Nat.zero_le _, hx.2⟩
    exact (h.same.setIo cpuTimerDivAddress 0).clearReset
  · exact ⟨h, hx⟩

theorem halved_runDivider {x y : TimerModule × Bus} (h : Halved x y) (hx : Fits x.1) {n : Nat}
    (hn : n ≤ 10) :
    Halved (runDivider x (2 * n)) (runDivider y n) ∧ Fits (runDivider x (2 * n)).1 := by
  have hrtc := h.rtc
  have hfit := hx.1
  have hwide : (x.1.rtc + 2 * n) % 2 ^ 16 = 2 * ((y.1.rtc + n) % 2 ^ 16) := by omega
  have hperiod : x.1.period = 2 * y.1.period := by
    unfold period
    rw [h.normal, h.double]
    rfl
  obtain ⟨hleft, hsame⟩ := Drain.drain_scaled (R := SameTimer)
    (fun _ _ => sameTimer_incrementDivider) h.same y.1.period_pos 2 (by decide)
    ((y.1.rtc + n) % 2 ^ 16)
  unfold runDivider
  rw [hwide, hperiod]
  refine ⟨⟨h.normal, h.double, hleft, h.ticks, hsame⟩, ?_, hx.2⟩
  rw [← hperiod, Drain.drain_eq x.1.period_pos]
  have hlt := Nat.mod_lt (2 * ((y.1.rtc + n) % 2 ^ 16)) x.1.period_pos
  have hle := x.1.period_le
  simp only
  omega

theorem timeout_halved {x y : TimerModule × Bus} (h : Halved x y) :
    x.1.timeout x.2 = 2 * y.1.timeout y.2 := by
  have hcontrol : x.2.io cpuTimerControlAddress = y.2.io cpuTimerControlAddress :=
    h.same.registers .control
  have hsel : (y.2.io cpuTimerControlAddress &&& timerFrequency).toNat < 4 := by
    rw [UInt8.toNat_and]
    exact Nat.lt_succ_of_le Nat.and_le_right
  unfold timeout
  rw [h.normal, h.double, hcontrol]
  revert hsel
  generalize (y.2.io cpuTimerControlAddress &&& timerFrequency).toNat = k
  intro hsel
  interval_cases k <;> rfl

theorem halved_runCounter {x y : TimerModule × Bus} (h : Halved x y) (hx : Fits x.1) {n : Nat}
    (hn : n ≤ 10) :
    Halved (runCounter x (2 * n)) (runCounter y n) ∧ Fits (runCounter x (2 * n)).1 := by
  have hticks := h.ticks
  have hfit := hx.2
  have hwide : (x.1.ticks + 2 * n) % 2 ^ 16 = 2 * ((y.1.ticks + n) % 2 ^ 16) := by omega
  have henabled : isEnabled x.2 = isEnabled y.2 := by
    have hcontrol : x.2.io cpuTimerControlAddress = y.2.io cpuTimerControlAddress :=
      h.same.registers .control
    unfold isEnabled
    rw [hcontrol]
  have htimeout := timeout_halved h
  obtain ⟨hpos, hle⟩ := x.1.timeout_cases x.2
  obtain ⟨hleft, hsame⟩ := Drain.drain_scaled
    (R := fun a b : Bus × List Interrupt => SameTimer a.1 b.1) sameTimer_incrementCounter
    (s := (x.2, [])) (t := (y.2, [])) h.same (y.1.timeout_cases y.2).1 2 (by decide)
    ((y.1.ticks + n) % 2 ^ 16)
  unfold runCounter
  rw [henabled]
  split_ifs
  · exact ⟨h, hx⟩
  · rw [hwide, htimeout]
    refine ⟨⟨h.normal, h.double, h.rtc, hleft, hsame⟩, hx.1, ?_⟩
    rw [← htimeout, Drain.drain_eq hpos]
    have hlt := Nat.mod_lt (2 * ((y.1.ticks + n) % 2 ^ 16)) hpos
    simp only
    omega

/-! ## Runs -/

theorem ticks_halved {count : UInt8} (hcount : count.toNat ≤ 5) :
    (count * Machine.adjustment .normal).toNat = 2 * (2 * count.toNat) ∧
      (count * Machine.adjustment .double).toNat = 2 * count.toNat := by
  have hn : (Machine.adjustment .normal).toNat = 4 := by decide
  have hd : (Machine.adjustment .double).toNat = 2 := by decide
  rw [UInt8.toNat_mul, UInt8.toNat_mul, hn, hd]
  omega

theorem halved_tick {x y : TimerModule × Bus} (h : Halved x y) (hx : Fits x.1) (depth : Nat)
    {count : UInt8} (hcount : count.toNat ≤ 5) :
    ∃ x' y', act depth x (.tick count) = .ok x' ∧ act depth y (.tick count) = .ok y' ∧
      Halved x' y' ∧ Fits x'.1 := by
  obtain ⟨hn, hd⟩ := ticks_halved hcount
  obtain ⟨hreset, hfits⟩ := halved_resetDivider h hx
  obtain ⟨hdivider, hfits⟩ := halved_runDivider hreset hfits (n := 2 * count.toNat) (by omega)
  have hcounter := halved_runCounter hdivider hfits (n := 2 * count.toNat) (by omega)
  refine ⟨_, _, rfl, rfl, ?_⟩
  rw [cycle_parts, cycle_parts, h.normal, h.double, hn, hd]
  exact hcounter

theorem SameTimer.withReset {s u : Bus} (h : SameTimer s u) :
    SameTimer { s with rtcReset := true } { u with rtcReset := true } :=
  ⟨h.registers, h.flags, rfl⟩

/-- A store to a register of the timer, as one update of the bus. -/
def stored (s : Bus) (value : UInt8) : TimerRegister → Bus
  | .divider => { s with rtcReset := true }
  | .control => s.writeBytes cpuTimerControlAddress value 0x07
  | .counter => s.setIo cpuTimerCounterAddress value
  | .modulo => s.setIo cpuTimerModuloAddress value

theorem write_register (depth : Nat) (s : Bus) (r : TimerRegister) (value : UInt8) :
    Bus.write (depth + 1) s r.address value = .ok (stored s value r) := by
  have hport : s.find r.address = some .io := (s.find_io_iff _).mpr (by cases r <;> decide)
  rw [Bus.write_io s depth hport]
  cases r <;> rfl

theorem halved_write {x y : TimerModule × Bus} (h : Halved x y) (depth : Nat) (r : TimerRegister)
    (value : UInt8) : ∃ x' y', act (depth + 1) x (.write r value) = .ok x' ∧
      act (depth + 1) y (.write r value) = .ok y' ∧ Halved x' y' ∧ x'.1 = x.1 := by
  have hsame : SameTimer (stored x.2 value r) (stored y.2 value r) := by
    have hcontrol : x.2.io cpuTimerControlAddress = y.2.io cpuTimerControlAddress :=
      h.same.registers .control
    cases r with
    | divider => exact h.same.withReset
    | control =>
      unfold stored Bus.writeBytes
      rw [hcontrol]
      exact h.same.setIo _ _
    | counter => exact h.same.setIo _ _
    | modulo => exact h.same.setIo _ _
  refine ⟨(x.1, stored x.2 value r), (y.1, stored y.2 value r), ?_, ?_, ?_, rfl⟩
  · rw [act, write_register]
    rfl
  · rw [act, write_register]
    rfl
  · exact ⟨h.normal, h.double, h.rtc, h.ticks, hsame⟩

/-- **Double speed preserves the timer**: the same M-cycles and the same stores leave
the same registers and flags, from residues that five M-cycles do not carry past
sixteen bits. -/
theorem doubleSpeed_preserves (depth : Nat) {x y : TimerModule × Bus} (h : Halved x y)
    (hx : Fits x.1) {actions : List TimerAction}
    (hcount : ∀ count, .tick count ∈ actions → count.toNat ≤ 5) :
    ∃ x' y', Run.run (act (depth + 1)) x actions = .ok x' ∧
      Run.run (act (depth + 1)) y actions = .ok y' ∧ SameTimer x'.2 y'.2 := by
  have hstep : ∀ a ∈ actions, ∀ x y : TimerModule × Bus, Halved x y ∧ Fits x.1 →
      ∃ x' y', act (depth + 1) x a = .ok x' ∧ act (depth + 1) y a = .ok y' ∧
        Halved x' y' ∧ Fits x'.1 := by
    rintro a ha x y ⟨h, hx⟩
    cases a with
    | tick count => exact halved_tick h hx (depth + 1) (hcount count ha)
    | write r value =>
      obtain ⟨x', y', hx', hy', h', hkept⟩ := halved_write h depth r value
      exact ⟨x', y', hx', hy', h', hkept ▸ hx⟩
  obtain ⟨x', y', hx', hy', h', -⟩ := Run.run_simulates hstep ⟨h, hx⟩
  exact ⟨x', y', hx', hy', h'.same⟩

/-- A change of frequency and a disable in the middle of a period. -/
theorem doubleSpeed_preserves_fastTimer : ∃ x' y',
    Run.run (act 1) (⟨10, 500, .normal⟩, fastTimer)
        [.tick 3, .write .control 0x06, .tick 5, .write .divider 0, .tick 1] = .ok x' ∧
      Run.run (act 1) (⟨5, 250, .double⟩, fastTimer)
        [.tick 3, .write .control 0x06, .tick 5, .write .divider 0, .tick 1] = .ok y' ∧
      SameTimer x'.2 y'.2 := by
  have hhalved : Halved (⟨10, 500, .normal⟩, fastTimer) (⟨5, 250, .double⟩, fastTimer) :=
    ⟨rfl, rfl, rfl, rfl, ⟨fun _ => rfl, rfl, rfl⟩⟩
  exact doubleSpeed_preserves 0 hhalved ⟨by decide, by decide⟩ (by simp)

/-- The divider after one cycle of a timer that does not count. -/
theorem divider_cycle (t : TimerModule) {s : Bus} (henabled : isEnabled s = false)
    (hreset : s.rtcReset = false) (ticks : UInt8) :
    (t.cycle s ticks).2.1.io cpuTimerDivAddress =
      s.io cpuTimerDivAddress + UInt8.ofNat ((t.rtc + ticks.toNat) % 2 ^ 16 / t.period) := by
  have hstart : t.resetDivider s = (t, s) := by simp [resetDivider, hreset]
  have hcount := incrementDivider_iterate s (s.io cpuTimerDivAddress)
    (s.io cpuTimerCounterAddress, s.io interruptFlagsAddress)
    ((t.rtc + ticks.toNat) % 2 ^ 16 / t.period)
  rw [store_self] at hcount
  simp only [cycle, hstart, Drain.drain_eq t.period_pos, hcount, isEnabled_store, henabled,
    Bool.not_false, if_true, store_divider]

/-- Residues of 65516 and 32758: five M-cycles carry the first past sixteen bits, and
the other timer counts 128 more. -/
theorem doubleSpeed_overflow :
    ¬ ∀ (x y : TimerModule × Bus), x.1.rtc < 2 ^ 16 → x.1.ticks < 2 ^ 16 → Halved x y →
      ∀ (depth : Nat) (actions : List TimerAction) (x' y' : TimerModule × Bus),
        (∀ count, .tick count ∈ actions → 1 ≤ count.toNat ∧ count.toNat ≤ 5) →
        Run.run (act depth) x actions = .ok x' → Run.run (act depth) y actions = .ok y' →
          SameTimer x'.2 y'.2 := by
  intro hall
  have hsame := hall (⟨0, 65516, .normal⟩, Bus.bareConsole) (⟨0, 32758, .double⟩, Bus.bareConsole)
    (by decide) (by decide) ⟨rfl, rfl, rfl, rfl, ⟨fun _ => rfl, rfl, rfl⟩⟩ 1 [.tick 5] _ _
    (by simp) rfl rfl
  have hdivider := hsame.registers .divider
  simp only [TimerRegister.address] at hdivider
  rw [divider_cycle _ rfl rfl, divider_cycle _ rfl rfl] at hdivider
  exact absurd hdivider (by decide)

end TimerModule

end GbEmu
