import GbEmu.Bus.Frame
import GbEmu.Timer
import Mathlib.Data.List.Induction
import Mathlib.Tactic.IntervalCases
import Mathlib.Tactic.SplitIfs

/-!
The timer in closed form. Divider, counter and residues after any calls depend on
the sum of their ticks only; the counter climbs to its overflow once and then goes
round from the modulo register.
-/

namespace GbEmu

namespace TimerModule

/-! ## The registers that a call changes -/

/-- Counter and interrupt flags after one increment of the counter. -/
def tick (modulo : UInt8) (x : UInt8 × UInt8) : UInt8 × UInt8 :=
  if x.1 = 0xFF then (modulo, x.2 ||| Interrupt.timer.mask) else (x.1 + 1, x.2)

/-- The divider, and the counter with the interrupt flags. -/
def store (s : Bus) (divider : UInt8) (x : UInt8 × UInt8) : Bus :=
  ((s.setIo cpuTimerDivAddress divider).setIo cpuTimerCounterAddress x.1).setIo
    interruptFlagsAddress x.2

section Store

variable (s : Bus) (d : UInt8) (x : UInt8 × UInt8)

theorem store_self : store s (s.io cpuTimerDivAddress)
    (s.io cpuTimerCounterAddress, s.io interruptFlagsAddress) = s := by
  simp only [store, Bus.setIo_self]

@[simp] theorem store_divider : (store s d x).io cpuTimerDivAddress = d := by
  simp [store, Bus.setIo]

@[simp] theorem store_counter : (store s d x).io cpuTimerCounterAddress = x.1 := by
  simp [store, Bus.setIo]

@[simp] theorem store_flags : (store s d x).io interruptFlagsAddress = x.2 := by
  simp [store, Bus.setIo]

@[simp] theorem store_modulo :
    (store s d x).io cpuTimerModuloAddress = s.io cpuTimerModuloAddress := by
  simp [store, Bus.setIo]

@[simp] theorem store_control :
    (store s d x).io cpuTimerControlAddress = s.io cpuTimerControlAddress := by
  simp [store, Bus.setIo]

@[simp] theorem store_rtcReset : (store s d x).rtcReset = s.rtcReset := rfl

@[simp] theorem isEnabled_store : isEnabled (store s d x) = isEnabled s := by
  unfold isEnabled
  rw [store_control]

@[simp] theorem timeout_store (t : TimerModule) : t.timeout (store s d x) = t.timeout s := by
  unfold timeout
  rw [store_control]

theorem store_setDivider (v : UInt8) :
    (store s d x).setIo cpuTimerDivAddress v = store s v x := by
  simp only [store]
  rw [Bus.setIo_comm _ (a := interruptFlagsAddress) (by decide),
    Bus.setIo_comm _ (a := cpuTimerCounterAddress) (by decide), Bus.setIo_setIo]

theorem store_setCounter (v : UInt8) :
    (store s d x).setIo cpuTimerCounterAddress v = store s d (v, x.2) := by
  simp only [store]
  rw [Bus.setIo_comm _ (a := interruptFlagsAddress) (by decide), Bus.setIo_setIo]

theorem store_request :
    (store s d x).request .timer = store s d (x.1, x.2 ||| Interrupt.timer.mask) := by
  rw [Bus.request, store_flags, store, Bus.setIo_setIo]
  rfl

theorem incrementDivider_store : incrementDivider (store s d x) = store s (d + 1) x := by
  rw [incrementDivider, store_divider, store_setDivider]

theorem incrementDivider_iterate (k : Nat) :
    incrementDivider^[k] (store s d x) = store s (d + UInt8.ofNat k) x := by
  induction k generalizing d with
  | zero => simp
  | succ k ih =>
    rw [Function.iterate_succ_apply, incrementDivider_store, ih, UInt8.ofNat_add, UInt8.add_assoc,
      UInt8.add_comm 1]
    rfl

theorem incrementCounter_store (es : List Interrupt) :
    (incrementCounter (store s d x, es)).1 =
      store s d (tick (s.io cpuTimerModuloAddress) x) := by
  simp only [incrementCounter, tick, store_counter, store_setCounter, store_request, store_modulo]
  split_ifs <;> rfl

theorem incrementCounter_iterate (k : Nat) (es : List Interrupt) :
    (incrementCounter^[k] (store s d x, es)).1 =
      store s d ((tick (s.io cpuTimerModuloAddress))^[k] x) := by
  induction k generalizing x es with
  | zero => rfl
  | succ k ih =>
    have hfst := incrementCounter_store s d x es
    rw [Function.iterate_succ_apply, Function.iterate_succ_apply, ← ih]
    exact congrArg (fun y => (incrementCounter^[k] y).1) (Prod.ext hfst rfl)

end Store

/-! ## Any calls -/

theorem period_pos (t : TimerModule) : 0 < t.period := by
  unfold period
  cases t.speed <;> decide

theorem period_le (t : TimerModule) : t.period ≤ 512 := by
  unfold period
  cases t.speed <;> decide

theorem timeout_cases (t : TimerModule) (s : Bus) : 0 < t.timeout s ∧ t.timeout s ≤ 1024 := by
  have hsel : (s.io cpuTimerControlAddress &&& timerFrequency).toNat < 4 := by
    rw [UInt8.toNat_and]
    exact Nat.lt_succ_of_le Nat.and_le_right
  unfold timeout
  revert hsel
  generalize (s.io cpuTimerControlAddress &&& timerFrequency).toNat = k
  intro hsel
  cases t.speed <;> interval_cases k <;> decide

/-- A call does not touch the other registers. -/
theorem io_cycle (t : TimerModule) (s : Bus) (ticks : UInt8) (port : UInt16)
    (hdivider : port ≠ cpuTimerDivAddress) (hcounter : port ≠ cpuTimerCounterAddress)
    (hflags : port ≠ interruptFlagsAddress) : (t.cycle s ticks).2.1.io port = s.io port := by
  have hreset : (t.resetDivider s).2.io port = s.io port := by
    unfold resetDivider
    split_ifs
    · exact Bus.setIo_io_of_ne s hdivider 0
    · rfl
  have hdiv : ∀ (k : Nat) (u : Bus), u.io port = s.io port →
      (incrementDivider^[k] u).io port = s.io port := by
    intro k u hu
    refine Function.Iterate.rec (fun u : Bus => u.io port = s.io port) hu (fun u hu => ?_) k
    exact (Bus.setIo_io_of_ne u hdivider _).trans hu
  have hcount : ∀ (k : Nat) (x : Bus × List Interrupt), x.1.io port = s.io port →
      (incrementCounter^[k] x).1.io port = s.io port := by
    intro k x hx
    refine Function.Iterate.rec (fun x : Bus × List Interrupt => x.1.io port = s.io port) hx
      (fun x hx => ?_) k
    simp only [incrementCounter, Bus.request]
    split_ifs <;> simp only [Bus.setIo_io_of_ne _ hcounter, Bus.setIo_io_of_ne _ hflags, hx]
  simp only [cycle, Drain.drain_eq (period_pos _)]
  split_ifs
  · exact hdiv _ _ hreset
  · rw [Drain.drain_eq (timeout_cases _ _).1]
    exact hcount _ _ (hdiv _ _ hreset)

theorem speed_cycle (t : TimerModule) (s : Bus) (ticks : UInt8) :
    (t.cycle s ticks).1.speed = t.speed := by
  simp only [cycle, resetDivider]
  split_ifs <;> rfl

/-- The residues after ticks with the sum `n`. -/
def residues (t : TimerModule) (s : Bus) (n : Nat) : TimerModule :=
  { t with
    rtc := (t.rtc + n) % t.period
    ticks := if isEnabled s then (t.ticks + n) % t.timeout s else t.ticks }

/-- The number of increments of the counter in ticks with the sum `n`. -/
def increments (t : TimerModule) (s : Bus) (n : Nat) : Nat :=
  if isEnabled s then (t.ticks + n) / t.timeout s else 0

/-- The memory after ticks with the sum `n`, from these values of the registers. -/
def registers (t : TimerModule) (s : Bus) (d : UInt8) (x : UInt8 × UInt8) (n : Nat) : Bus :=
  store s (d + UInt8.ofNat ((t.rtc + n) / t.period))
    ((tick (s.io cpuTimerModuloAddress))^[t.increments s n] x)

section Calls

variable {t : TimerModule} {s : Bus}

theorem residues_period (n : Nat) : (t.residues s n).period = t.period := rfl

theorem residues_timeout (n : Nat) : (t.residues s n).timeout s = t.timeout s := rfl

/-! Portions of ticks add up. -/

theorem residues_residues (a b : Nat) :
    (t.residues s a).residues s b = t.residues s (a + b) := by
  cases hen : isEnabled s with
  | false => simp [residues, hen, period, Nat.add_assoc]
  | true =>
    simp only [residues, hen, if_true, TimerModule.mk.injEq, and_true]
    exact ⟨Drain.mod_portion t.ticks a b, Drain.mod_portion t.rtc a b⟩

theorem increments_residues (a b : Nat) :
    t.increments s a + (t.residues s a).increments s b = t.increments s (a + b) := by
  unfold increments
  cases hen : isEnabled s with
  | false => rfl
  | true =>
    simp only [if_true, residues_timeout]
    simp only [residues, hen, if_true]
    exact Drain.div_portion (t.timeout_cases s).1 t.ticks a b

theorem registers_residues (d : UInt8) (x : UInt8 × UInt8) (a b : Nat) :
    (t.residues s a).registers s (d + UInt8.ofNat ((t.rtc + a) / t.period))
      ((tick (s.io cpuTimerModuloAddress))^[t.increments s a] x) b = t.registers s d x (a + b) := by
  have hdivider : (t.rtc + a) / t.period + ((t.residues s a).rtc + b) / t.period =
      (t.rtc + (a + b)) / t.period := Drain.div_portion t.period_pos t.rtc a b
  unfold registers
  rw [residues_period, UInt8.add_assoc, ← UInt8.ofNat_add, hdivider,
    ← Function.iterate_add_apply, Nat.add_comm (increments _ _ b), increments_residues]

/-- One call, from residues below their periods. -/
theorem cycle_store (hrtc : t.rtc < t.period) (hticks : t.ticks < t.timeout s)
    (hreset : s.rtcReset = false) (d : UInt8) (x : UInt8 × UInt8) (k : UInt8) :
    (t.cycle (store s d x) k).1 = t.residues s k.toNat ∧
      (t.cycle (store s d x) k).2.1 = t.registers s d x k.toNat := by
  have hk := k.toNat_lt
  have hP := t.period_le
  have hT := (t.timeout_cases s).2
  have hr : (t.rtc + k.toNat) % 2 ^ 16 = t.rtc + k.toNat := Nat.mod_eq_of_lt (by omega)
  have ht : (t.ticks + k.toNat) % 2 ^ 16 = t.ticks + k.toNat := Nat.mod_eq_of_lt (by omega)
  have hstart : t.resetDivider (store s d x) = (t, store s d x) := by
    simp [resetDivider, hreset]
  have htimeout : ∀ r, ({ t with rtc := r } : TimerModule).timeout s = t.timeout s := fun _ => rfl
  simp only [cycle, hstart, hr, ht, Drain.drain_eq t.period_pos, incrementDivider_iterate,
    isEnabled_store, timeout_store]
  cases hen : isEnabled s with
  | false => simp [residues, registers, increments, hen]
  | true =>
    simp only [Bool.not_true, Bool.false_eq_true, if_false]
    rw [htimeout, Drain.drain_eq (t.timeout_cases s).1]
    simp [residues, registers, increments, hen, incrementCounter_iterate]

theorem cycles_store (hrtc : t.rtc < t.period) (hticks : t.ticks < t.timeout s)
    (hreset : s.rtcReset = false) (d : UInt8) (x : UInt8 × UInt8) (ts : List UInt8) :
    cycles (t, store s d x) ts =
      (t.residues s (ts.map UInt8.toNat).sum, t.registers s d x (ts.map UInt8.toNat).sum) := by
  induction ts using List.reverseRecOn with
  | nil =>
    simp [cycles, residues, registers, increments, Nat.mod_eq_of_lt, Nat.div_eq_of_lt, hrtc, hticks]
  | append_singleton ts k ih =>
    have hcall := cycle_store (t := t.residues s (ts.map UInt8.toNat).sum) (s := s)
      (Nat.mod_lt _ t.period_pos) ?_ hreset
    rotate_left
    · rw [residues_timeout]
      unfold residues
      split_ifs
      · exact Nat.mod_lt _ (t.timeout_cases s).1
      · exact hticks
    unfold cycles at ih ⊢
    rw [List.foldl_append, ih, List.foldl_cons, List.foldl_nil, List.map_append, List.sum_append,
      List.map_singleton, List.sum_singleton]
    exact Prod.ext ((hcall _ _ k).1.trans (residues_residues _ _))
      ((hcall _ _ k).2.trans (registers_residues d x _ _))

end Calls

/-! ## The counter in closed form -/

theorem toNat_add_one {c : UInt8} (h : c ≠ 0xFF) : (c + 1).toNat = c.toNat + 1 := by
  have hne : c.toNat ≠ 255 := fun e => h (UInt8.toNat_inj.mp e)
  have hlt := c.toNat_lt
  rw [UInt8.toNat_add]
  exact Nat.mod_eq_of_lt (by simp; omega)

/-- The counter after `n` increments: past its overflow it goes round from `modulo`. -/
def counted (modulo counter n : Nat) : Nat :=
  if n < 256 - counter then counter + n else modulo + (n - (256 - counter)) % (256 - modulo)

theorem counted_succ {modulo counter : Nat} (hm : modulo < 256) (hc : counter < 256) (n : Nat) :
    counted modulo counter (n + 1) =
      if counted modulo counter n = 255 then modulo else counted modulo counter n + 1 := by
  by_cases hlast : n + 1 < 256 - counter
  · have hn : n < 256 - counter := by omega
    have hne : counter + n ≠ 255 := by omega
    rw [counted, if_pos hlast, counted, if_pos hn, if_neg hne, Nat.add_assoc]
  by_cases hfirst : n < 256 - counter
  · have hn : n + 1 - (256 - counter) = 0 := by omega
    have he : counter + n = 255 := by omega
    rw [counted, if_neg hlast, hn, Nat.zero_mod, Nat.add_zero, counted, if_pos hfirst, if_pos he]
  -- Past the overflow one round has 256 - modulo increments.
  · have hn : n + 1 - (256 - counter) = n - (256 - counter) + 1 := by omega
    have hmod := Nat.mod_lt (n - (256 - counter)) (show 0 < 256 - modulo by omega)
    rw [counted, if_neg hlast, hn, counted, if_neg hfirst, ← Nat.mod_add_mod]
    by_cases hround : (n - (256 - counter)) % (256 - modulo) + 1 = 256 - modulo
    · rw [hround, Nat.mod_self, Nat.add_zero, if_pos (by omega)]
    · rw [Nat.mod_eq_of_lt (by omega), if_neg (by omega), Nat.add_assoc]

theorem counted_max {modulo counter n : Nat} (h : counted modulo counter n = 255)
    (hc : counter < 256) : 256 - counter ≤ n + 1 := by
  unfold counted at h
  split_ifs at h <;> omega

theorem tick_iterate (modulo c f : UInt8) (n : Nat) :
    ((tick modulo)^[n] (c, f)).1.toNat = counted modulo.toNat c.toNat n ∧
      ((tick modulo)^[n] (c, f)).2 =
        f ||| if 256 - c.toNat ≤ n then Interrupt.timer.mask else 0 := by
  have hm := modulo.toNat_lt
  have hc := c.toNat_lt
  induction n with
  | zero =>
    rw [counted, if_pos (by omega), if_neg (by omega), UInt8.or_zero]
    exact ⟨rfl, rfl⟩
  | succ n ih =>
    obtain ⟨ih1, ih2⟩ := ih
    rw [Function.iterate_succ_apply', tick, counted_succ hm hc, ← ih1]
    by_cases h : ((tick modulo)^[n] (c, f)).1 = 0xFF
    · have hmax : counted modulo.toNat c.toNat n = 255 := by rw [← ih1, h]; rfl
      rw [if_pos h, h, if_pos (show (0xFF : UInt8).toNat = 255 from rfl), ih2,
        if_pos (counted_max hmax hc), UInt8.or_assoc]
      refine ⟨rfl, ?_⟩
      split_ifs <;> rfl
    · have hne : ((tick modulo)^[n] (c, f)).1.toNat ≠ 255 := fun e => h (UInt8.toNat_inj.mp e)
      have hsame : 256 - c.toNat ≤ n ↔ 256 - c.toNat ≤ n + 1 := by
        constructor
        · omega
        · intro hle
          by_contra hlt
          have he : n + 1 = 256 - c.toNat := by omega
          rw [ih1, counted, if_pos (by omega)] at hne
          omega
      rw [if_neg h, if_neg hne, toNat_add_one h, ih2]
      simp only [hsame, true_and]

/-- **The timer in closed form**, for calls with any amounts. -/
theorem timer_closed_form {t : TimerModule} {s : Bus} (hrtc : t.rtc < t.period)
    (hticks : t.ticks < t.timeout s) (hreset : s.rtcReset = false) :
    (∀ ts : List UInt8,
      let n := (ts.map UInt8.toNat).sum
      let x := cycles (t, s) ts
      x.1.rtc = (t.rtc + n) % t.period ∧
        (x.2.io cpuTimerDivAddress).toNat =
          ((s.io cpuTimerDivAddress).toNat + (t.rtc + n) / t.period) % 256 ∧
        (isEnabled s = true →
          let k := (t.ticks + n) / t.timeout s
          let counter := (s.io cpuTimerCounterAddress).toNat
          let modulo := (s.io cpuTimerModuloAddress).toNat
          x.1.ticks = (t.ticks + n) % t.timeout s ∧
            (x.2.io cpuTimerCounterAddress).toNat =
              (if k < 256 - counter then counter + k
               else modulo + (k - (256 - counter)) % (256 - modulo)) ∧
            x.2.io interruptFlagsAddress = s.io interruptFlagsAddress |||
              if 256 - counter ≤ k then Interrupt.timer.mask else 0)) ∧
      ∀ ts us : List UInt8, (ts.map UInt8.toNat).sum = (us.map UInt8.toNat).sum →
        cycles (t, s) ts = cycles (t, s) us := by
  have hall := cycles_store hrtc hticks hreset (s.io cpuTimerDivAddress)
    (s.io cpuTimerCounterAddress, s.io interruptFlagsAddress)
  rw [store_self] at hall
  refine ⟨fun ts => ?_, fun ts us h => by rw [hall ts, hall us, h]⟩
  simp only [hall ts]
  refine ⟨rfl, ?_, fun hen => ?_⟩
  · rw [registers, store_divider, UInt8.toNat_add, UInt8.toNat_ofNat', Nat.add_mod_mod]
  · have htick := tick_iterate (s.io cpuTimerModuloAddress) (s.io cpuTimerCounterAddress)
      (s.io interruptFlagsAddress) (t.increments s (ts.map UInt8.toNat).sum)
    have hk : t.increments s (ts.map UInt8.toNat).sum =
        (t.ticks + (ts.map UInt8.toNat).sum) / t.timeout s := if_pos hen
    rw [hk] at htick
    rw [registers, store_counter, store_flags, hk]
    exact ⟨if_pos hen, htick⟩

/-- A console whose timer runs at its highest rate. -/
def fastTimer : Bus := Bus.bareConsole.setIo cpuTimerControlAddress 0x05

/-- 256 ticks from a reset timer, in two portions, are 16 increments. -/
theorem timer_closed_form_fastTimer :
    cycles (⟨0, 0, .normal⟩, fastTimer) [200, 56] = cycles (⟨0, 0, .normal⟩, fastTimer) [1, 255] ∧
      ((cycles (⟨0, 0, .normal⟩, fastTimer) [200, 56]).2.io cpuTimerCounterAddress).toNat = 16 := by
  have h := timer_closed_form (t := ⟨0, 0, .normal⟩) (s := fastTimer) (by decide) (by decide) rfl
  exact ⟨h.2 _ _ rfl, ((h.1 [200, 56]).2.2 (by decide)).2.1.trans (by decide)⟩

end TimerModule

end GbEmu
