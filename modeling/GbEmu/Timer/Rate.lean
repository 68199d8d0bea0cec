import GbEmu.Timer.DoubleSpeed

/-!
The rates of the two counters. The ticks left over from one call are counted under the
frequency of the next one, so a change to a shorter timeout makes the counter catch up
at once; and the period of the divider is twice the timeout of 16384 Hz.
-/

namespace GbEmu

namespace TimerModule

/-! ## The divider and the counter at 16384 Hz -/

/-- A pending reset of the divider means nothing while it is zero. -/
theorem cycle_clearReset {t : TimerModule} {s : Bus} (hrtc : t.rtc = 0)
    (hdivider : s.io cpuTimerDivAddress = 0) (ticks : UInt8) :
    t.cycle s ticks = t.cycle { s with rtcReset := false } ticks := by
  have hreset : t.resetDivider s = t.resetDivider { s with rtcReset := false } := by
    have hsame : s.setIo cpuTimerDivAddress 0 = s := by
      rw [← hdivider, Bus.setIo_self]
    have ht : { t with rtc := 0 } = t := by
      rw [← hrtc]
    cases hr : s.rtcReset with
    | false => rw [← hr]
    | true =>
      simp only [resetDivider, hr, hsame, ht]
      rfl
  simp only [cycle, hreset]

theorem cycles_clearReset {t : TimerModule} {s : Bus} (hrtc : t.rtc = 0)
    (hdivider : s.io cpuTimerDivAddress = 0) (ts : List UInt8) :
    (cycles (t, s) ts).2.io = (cycles (t, { s with rtcReset := false }) ts).2.io := by
  cases ts with
  | nil => rfl
  | cons k ts =>
    simp only [cycles, List.foldl_cons]
    rw [cycle_clearReset hrtc hdivider]

/-- All zero, with the counter enabled at 16384 Hz. -/
structure Aligned (t : TimerModule) (s : Bus) : Prop where
  divider : s.io cpuTimerDivAddress = 0
  counter : s.io cpuTimerCounterAddress = 0
  modulo : s.io cpuTimerModuloAddress = 0
  control : s.io cpuTimerControlAddress = 0x07
  rtc : t.rtc = 0
  ticks : t.ticks = 0

/-- `TIMEOUT_16K` at the clock speed. -/
def timeout16K (t : TimerModule) : Nat := 256 >>> t.speed.toNat

theorem period_eq (t : TimerModule) : t.period = t.timeout16K * 2 := by
  unfold period timeout16K
  cases t.speed <;> rfl

theorem Aligned.timeout {t : TimerModule} {s : Bus} (h : Aligned t s) :
    t.timeout s = t.timeout16K := by
  unfold TimerModule.timeout timeout16K
  rw [h.control]
  rfl

theorem counted_zero (n : Nat) : counted 0 0 n = n % 256 := by
  unfold counted
  split_ifs <;> omega

theorem aligned_cycles {t : TimerModule} {s : Bus} (h : Aligned t s) (ts : List UInt8) :
    let q := (ts.map UInt8.toNat).sum / t.timeout16K
    let x := cycles (t, s) ts
    (x.2.io cpuTimerDivAddress).toNat = q / 2 % 256 ∧
      (x.2.io cpuTimerCounterAddress).toNat = q % 256 := by
  intro q x
  let s' := { s with rtcReset := false }
  have hrtc : t.rtc < t.period := h.rtc ▸ t.period_pos
  have hticks : t.ticks < t.timeout s' := h.ticks ▸ (t.timeout_cases s').1
  have hen : isEnabled s' = true := by
    show (s.io cpuTimerControlAddress &&& timerEnable != 0) = true
    rw [h.control]
    decide
  obtain ⟨-, hdivider, hcounter⟩ := (timer_closed_form hrtc hticks rfl).1 ts
  obtain ⟨-, hcounter, -⟩ := hcounter hen
  have hx : x.2.io = (cycles (t, s') ts).2.io := cycles_clearReset h.rtc h.divider ts
  have htimeout : t.timeout s' = t.timeout16K := h.timeout
  have hzero : (0 : UInt8).toNat = 0 := rfl
  rw [hx]
  constructor
  · rw [hdivider, h.rtc, period_eq, ← Nat.div_div_eq_div_mul, Nat.zero_add]
    show ((s.io cpuTimerDivAddress).toNat + _) % 256 = _
    rw [h.divider, hzero, Nat.zero_add]
  · rw [hcounter, htimeout, h.ticks, Nat.zero_add]
    show counted (s.io cpuTimerModuloAddress).toNat (s.io cpuTimerCounterAddress).toNat q = q % 256
    rw [h.counter, h.modulo, hzero, counted_zero]

/-- **Divider and counter at 16384 Hz.** They agree after every call exactly if the ticks
up to each call make less than one timeout more, or less, than a multiple of 512. -/
theorem divider_agrees_iff {t : TimerModule} {s : Bus} (h : Aligned t s) (ts : List UInt8) :
    (∀ us, us <+: ts →
        (cycles (t, s) us).2.io cpuTimerDivAddress =
          (cycles (t, s) us).2.io cpuTimerCounterAddress) ↔
      ∀ us, us <+: ts →
        let timeouts := (us.map UInt8.toNat).sum / t.timeout16K
        timeouts % 512 = 0 ∨ timeouts % 512 = 511 := by
  have hcall : ∀ us : List UInt8, (cycles (t, s) us).2.io cpuTimerDivAddress =
      (cycles (t, s) us).2.io cpuTimerCounterAddress ↔
        let timeouts := (us.map UInt8.toNat).sum / t.timeout16K
        timeouts % 512 = 0 ∨ timeouts % 512 = 511 := by
    intro us
    obtain ⟨hdivider, hcounter⟩ := aligned_cycles h us
    rw [← UInt8.toNat_inj, hdivider, hcounter]
    omega
  simp only [hcall]

/-- A console whose timer counts at 16384 Hz. -/
def slowTimer : Bus := Bus.bareConsole.setIo cpuTimerControlAddress 0x07

theorem aligned_slowTimer (speed : ClockSpeed) : Aligned ⟨0, 0, speed⟩ slowTimer :=
  ⟨rfl, rfl, rfl, rfl, rfl, rfl⟩

/-- A call with 255 ticks makes no timeout. -/
theorem divider_agrees_iff_short :
    (cycles (⟨0, 0, .normal⟩, slowTimer) [255]).2.io cpuTimerDivAddress =
      (cycles (⟨0, 0, .normal⟩, slowTimer) [255]).2.io cpuTimerCounterAddress := by
  refine (divider_agrees_iff (aligned_slowTimer .normal) [255]).mpr (fun us hus => .inl ?_) [255]
    List.prefix_rfl
  rcases List.prefix_cons_iff.mp hus with rfl | ⟨vs, rfl, hvs⟩
  · rfl
  · rw [List.prefix_nil.mp hvs]
    rfl

/-- After 256 ticks the counter is at 1 and the divider at 0. -/
theorem divider_lags :
    ¬ ∀ (t : TimerModule) (s : Bus), Aligned t s → ∀ ts us, us <+: ts →
      (cycles (t, s) us).2.io cpuTimerDivAddress =
        (cycles (t, s) us).2.io cpuTimerCounterAddress := by
  intro hall
  have hsame := hall _ _ (aligned_slowTimer .normal) [255, 1] [255, 1] List.prefix_rfl
  obtain ⟨hdivider, hcounter⟩ := aligned_cycles (aligned_slowTimer .normal) [255, 1]
  rw [← UInt8.toNat_inj, hdivider, hcounter] at hsame
  exact absurd hsame (by decide)

/-! ## The counter after a change of frequency -/

/-- A call of `cycle`, or a store of the program to a register of the timer. -/
inductive TimerCall
  | cycle (ticks : UInt8)
  | write (r : TimerRegister) (value : UInt8)
  deriving DecidableEq, Repr

def call (depth : Nat) (x : TimerModule × Bus) : TimerCall → Except Fault (TimerModule × Bus)
  | .cycle ticks => let y := x.1.cycle x.2 ticks; .ok (y.1, y.2.1)
  | .write r value => (Bus.write depth x.2 r.address value).map fun s => (x.1, s)

/-- The passes of the second loop of `cycle`. -/
def passes (t : TimerModule) (s : Bus) (ticks : UInt8) : Nat :=
  if isEnabled s then
    (Drain.drain (t.timeout s) (· + 1) ((t.ticks + ticks.toNat) % 2 ^ 16) 0).2
  else 0

theorem iterate_succ (n k : Nat) : (· + 1)^[n] k = k + n := by
  induction n generalizing k with
  | zero => rfl
  | succ n ih =>
    rw [Function.iterate_succ_apply, ih, Nat.add_assoc, Nat.add_comm 1]

/-- The loop in numbers, while the residue does not overflow. -/
theorem passes_eq {t : TimerModule} (hticks : t.ticks < 1024) (s : Bus) (ticks : UInt8) :
    t.passes s ticks = t.increments s ticks.toNat := by
  have hlt := ticks.toNat_lt
  have hwide : (t.ticks + ticks.toNat) % 2 ^ 16 = t.ticks + ticks.toNat :=
    Nat.mod_eq_of_lt (by omega)
  unfold passes increments
  rw [hwide, Drain.drain_eq (t.timeout_cases s).1, iterate_succ, Nat.zero_add]

/-- The divider has nothing to do with the rate of the counter. -/
theorem runDivider_frame (t : TimerModule) (s : Bus) (ticks : Nat) :
    let x := runDivider (t.resetDivider s) ticks
    x.1.ticks = t.ticks ∧ x.1.speed = t.speed ∧
      x.2.io cpuTimerControlAddress = s.io cpuTimerControlAddress := by
  intro x
  have hreset : (t.resetDivider s).1.ticks = t.ticks ∧ (t.resetDivider s).1.speed = t.speed ∧
      (t.resetDivider s).2.io cpuTimerControlAddress = s.io cpuTimerControlAddress := by
    unfold resetDivider
    have hport : cpuTimerControlAddress ≠ cpuTimerDivAddress := by decide
    split_ifs
    · exact ⟨rfl, rfl, Bus.setIo_io_of_ne s hport 0⟩
    · exact ⟨rfl, rfl, rfl⟩
  obtain ⟨hticks, hspeed, hcontrol⟩ := hreset
  refine ⟨hticks, hspeed, Eq.trans ?_ hcontrol⟩
  simp only [x, runDivider, Drain.drain_eq (t.resetDivider s).1.period_pos]
  refine Function.Iterate.rec (fun u : Bus =>
    u.io cpuTimerControlAddress = (t.resetDivider s).2.io cpuTimerControlAddress) rfl
    (fun u hu => ?_) _
  exact (Bus.setIo_io_of_ne u (by decide) _).trans hu

/-- Each pass increments the counter, and nothing else in `cycle` does. -/
theorem cycle_passes (t : TimerModule) (s : Bus) (ticks : UInt8) :
    (t.cycle s ticks).2.1 =
      (incrementCounter^[t.passes s ticks]
        ((runDivider (t.resetDivider s) ticks.toNat).2, [])).1 := by
  have hparts := congrArg Prod.snd (t.cycle_parts s ticks)
  obtain ⟨hticks, hspeed, hcontrol⟩ := t.runDivider_frame s ticks.toNat
  generalize runDivider (t.resetDivider s) ticks.toNat = x at hparts hticks hspeed hcontrol ⊢
  have henabled : isEnabled x.2 = isEnabled s := by
    unfold isEnabled
    rw [hcontrol]
  have htimeout : x.1.timeout x.2 = t.timeout s := by
    unfold timeout
    rw [hcontrol, hspeed]
  refine hparts.trans ?_
  unfold runCounter passes
  rw [henabled, htimeout, hticks]
  cases isEnabled s with
  | false => rfl
  | true =>
    simp only [Bool.not_true, Bool.false_eq_true, if_false, if_true]
    rw [Drain.drain_eq (t.timeout_cases s).1, Drain.drain_eq (t.timeout_cases s).1, iterate_succ,
      Nat.zero_add]

theorem call_ok (depth : Nat) (x : TimerModule × Bus) (a : TimerCall) :
    ∃ y, call (depth + 1) x a = .ok y := by
  cases a with
  | cycle ticks => exact ⟨_, rfl⟩
  | write r value =>
    rw [call, write_register]
    exact ⟨_, rfl⟩

theorem ticks_cycle (t : TimerModule) (s : Bus) (ticks : UInt8) :
    (t.cycle s ticks).1.ticks < t.timeout s ∨ (t.cycle s ticks).1.ticks = t.ticks := by
  have hparts := congrArg Prod.fst (t.cycle_parts s ticks)
  obtain ⟨hticks, hspeed, hcontrol⟩ := t.runDivider_frame s ticks.toNat
  generalize runDivider (t.resetDivider s) ticks.toNat = x at hparts hticks hspeed hcontrol
  have htimeout : x.1.timeout x.2 = t.timeout s := by
    unfold timeout
    rw [hcontrol, hspeed]
  have hcycle : (t.cycle s ticks).1 = (runCounter x ticks.toNat).1 := hparts
  rw [hcycle]
  unfold runCounter
  rw [htimeout, Drain.drain_eq (t.timeout_cases s).1]
  split_ifs
  · exact .inr hticks
  · exact .inl (Nat.mod_lt _ (t.timeout_cases s).1)

/-- The residue stays below the longest timeout. -/
theorem ticks_call {depth : Nat} {x y : TimerModule × Bus} {a : TimerCall}
    (hx : x.1.ticks < 1024) (h : call depth x a = .ok y) : y.1.ticks < 1024 := by
  cases a with
  | cycle ticks =>
    obtain rfl := Except.ok.inj h
    have hle := (x.1.timeout_cases x.2).2
    rcases x.1.ticks_cycle x.2 ticks with hlt | heq
    · exact Nat.lt_of_lt_of_le hlt hle
    · exact heq ▸ hx
  | write r value =>
    obtain ⟨s, -, rfl⟩ := Run.map_eq_ok.mp h
    exact hx

/-- The bound on one call, by what is left over from the calls before. -/
theorem increments_le_iff (t : TimerModule) (s : Bus) (n : Nat) :
    t.increments s n ≤ n / t.timeout s + 1 ↔
      (isEnabled s = true → t.ticks + n % t.timeout s < 2 * t.timeout s) := by
  have hpos := (t.timeout_cases s).1
  unfold increments
  generalize t.timeout s = timeout at hpos
  cases isEnabled s with
  | false => simp
  | true =>
    have hn := Nat.div_add_mod n timeout
    have hle : (t.ticks + n) / timeout ≤ n / timeout + 1 ↔
        t.ticks + n < (n / timeout + 2) * timeout := by
      rw [← Nat.div_lt_iff_lt_mul hpos]
      exact Nat.lt_succ_iff.symm
    simp only [if_true, true_implies, hle, Nat.add_mul, Nat.mul_comm (n / timeout)]
    omega

/-- **The rate of the counter.** From reset, whatever is called and stored, a call makes at
most one increment more than its ticks have timeouts exactly if what the calls before have
left over, with what its own ticks leave over, makes less than two timeouts. An increment
is a pass of the second loop, which comes last in the call. -/
theorem rate_iff (depth : Nat) (t : TimerModule) (s : Bus) (calls : List TimerCall) :
    (∃ x, Run.run (call (depth + 1)) (t.reset s) calls = .ok x) ∧
      (∀ (u : TimerModule) (v : Bus) (ticks : UInt8), (u.cycle v ticks).2.1 =
        (incrementCounter^[u.passes v ticks]
          ((runDivider (u.resetDivider v) ticks.toNat).2, [])).1) ∧
      ((∀ before ticks after x, calls = before ++ .cycle ticks :: after →
          Run.run (call (depth + 1)) (t.reset s) before = .ok x →
            x.1.passes x.2 ticks ≤ ticks.toNat / x.1.timeout x.2 + 1) ↔
        ∀ before ticks after x, calls = before ++ .cycle ticks :: after →
          Run.run (call (depth + 1)) (t.reset s) before = .ok x → isEnabled x.2 = true →
            x.1.ticks + ticks.toNat % x.1.timeout x.2 < 2 * x.1.timeout x.2) := by
  have hpasses : ∀ before x, Run.run (call (depth + 1)) (t.reset s) before = .ok x →
      ∀ ticks : UInt8, x.1.passes x.2 ticks ≤ ticks.toNat / x.1.timeout x.2 + 1 ↔
        (isEnabled x.2 = true →
          x.1.ticks + ticks.toNat % x.1.timeout x.2 < 2 * x.1.timeout x.2) := by
    intro before x hrun ticks
    have hticks : x.1.ticks < 1024 :=
      Run.run_invariant (P := fun x : TimerModule × Bus => x.1.ticks < 1024)
        (fun _ _ _ hx h => ticks_call hx h) hrun (show 0 < 1024 by decide)
    rw [passes_eq hticks, increments_le_iff]
  refine ⟨?_, cycle_passes, ?_⟩
  · have hrun : ∃ x, Run.run (call (depth + 1)) (t.reset s) calls = .ok x ∧ True :=
      Run.run_total (P := fun _ => True)
        (fun y a _ => (call_ok depth y a).imp fun _ h => ⟨h, trivial⟩) calls trivial
    exact hrun.imp fun _ h => h.1
  · constructor
    · intro hbound before ticks after x hcalls hrun
      exact (hpasses before x hrun ticks).mp (hbound before ticks after x hcalls hrun)
    · intro hleft before ticks after x hcalls hrun
      exact (hpasses before x hrun ticks).mpr (hleft before ticks after x hcalls hrun)

/-- 1020 ticks towards a timeout of 1024, before the timeout becomes 16. -/
def beforeChange : List TimerCall :=
  [.write .control 0x04, .cycle 255, .cycle 255, .cycle 255, .cycle 255, .write .control 0x05]

/-- The next four ticks make 64 increments. -/
theorem rate_after_change :
    ¬ ∀ (depth : Nat) (t : TimerModule) (s : Bus) (calls before after : List TimerCall)
      (ticks : UInt8) (x : TimerModule × Bus), calls = before ++ .cycle ticks :: after →
        Run.run (call (depth + 1)) (t.reset s) before = .ok x →
          x.1.passes x.2 ticks ≤ ticks.toNat / x.1.timeout x.2 + 1 := by
  intro hall
  have hbound := hall 0 ⟨0, 0, .normal⟩ Bus.bareConsole _ beforeChange [] 4 _ rfl rfl
  exact absurd hbound (by decide +kernel)

end TimerModule

end GbEmu
