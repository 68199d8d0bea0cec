import GbEmu.Interrupt.Requests
import GbEmu.Processor.Follows

/-!
No interrupt is lost: what one cycle of the processor does to IF. Each of its parts
adds to IF the requests that the devices make and keeps the bits that are set, as
long as no bus write names the register; only the dispatch clears a bit, before the
first tick.
-/

namespace GbEmu

open Run

namespace Machine

/-- The requests since `m` are those that IF has gained. -/
def Raises (m m' : Machine) : Prop :=
  ∃ new, m'.requests = m.requests ++ new ∧ m.bus.Requested m'.bus new

theorem Raises.refl (m : Machine) : Raises m m :=
  ⟨[], (List.append_nil _).symm, Bus.requested_of_eq rfl⟩

theorem Raises.trans {m n k : Machine} (h : Raises m n) (h' : Raises n k) : Raises m k := by
  obtain ⟨is, hm, his⟩ := h
  obtain ⟨js, hn, hjs⟩ := h'
  exact ⟨is ++ js, by rw [hn, hm, List.append_assoc], his.trans hjs⟩

section Rules

-- Every rule carries on from a machine `m` that `start` has reached already.
variable {w : World} {guarded : Bus → UInt16 → UInt8 → Except Fault Bus} {start m : Machine}
  (hw : ∀ s a v, Follows (fun s' => s.Requested s' []) (guarded s a v) (w.write s a v))

include hw

theorem follows_write (address : UInt16) (value : UInt8) (h : Raises start m) :
    Follows (Raises start) (m.write (w.withWrite guarded) address value)
      (m.write w address value) :=
  (hw m.bus address value).map fun _ hs => h.trans ⟨[], (List.append_nil _).symm, hs⟩

theorem follows_clockTick (ticks : UInt8) (h : Raises start m) :
    Follows (Raises start) (m.clockTick (w.withWrite guarded) ticks) (m.clockTick w ticks) := by
  have htimer := Bus.requested_timer m.cpu.timer m.bus ticks
  unfold clockTick
  generalize m.cpu.timer.cycle m.bus ticks = x at htimer ⊢
  obtain ⟨timer, s, raised⟩ := x
  have hgpu := s.requested_gpu ticks
  generalize hy : s.cycle ticks = y at hgpu
  obtain ⟨s', events⟩ := y
  simp only [hy, World.withWrite]
  have hjoypad := (htimer.trans hgpu).quiet (Bus.requested_joypad (w.joypad m.ticks.length) s')
  refine (Bus.follows_cycleLink_requested hw (w.answer m.ticks.length) ticks _).bind fun z hz => ?_
  exact follows_ok (h.trans ⟨_, rfl, hjoypad.trans hz⟩)

theorem follows_stop (h : Raises start m) :
    Follows (Raises start) (m.stop (w.withWrite guarded)) (m.stop w) := by
  refine .ite (fun _ => follows_ok h) fun _ => ?_
  refine (follows_refl _).bind fun current _ => ?_
  refine .ite (fun _ => follows_ok h) fun _ => ?_
  exact (follows_write hw _ _ h).bind fun _ ht => follows_ok ht

/-- What the parts of a cycle raise, the cycle raises. -/
theorem raises_rules (start : Machine) : CycleRules (Raises start) (w.withWrite guarded) w where
  cpu _ _ _ h := h
  unlock _ h := h
  clockTick _ ticks h := follows_clockTick hw ticks h
  write _ address value h := follows_write hw address value h
  stop _ h := follows_stop hw h

end Rules

/-! ## The dispatch -/

/-- The interrupts that are both enabled and requested. -/
def requested (m : Machine) : UInt8 :=
  m.bus.zero interruptMaskAddress &&& m.bus.io interruptFlagsAddress &&& 0x1F

/-- Bit `k` of IF. -/
def flag (m : Machine) (k : Nat) : Bool := BitField.bit (m.bus.io interruptFlagsAddress) k

/-- The lowest bit of `p` that is set. -/
def IsLowest (p : UInt8) (k : Nat) : Prop :=
  BitField.bit p k = true ∧ ∀ j < k, BitField.bit p j = false

instance (p : UInt8) (k : Nat) : Decidable (IsLowest p k) := by
  unfold IsLowest
  infer_instance

/-- The order of priority is that of the bits. -/
theorem find_priority : ∀ status : UInt8,
    (Interrupt.priority.find? (fun i => status &&& i.mask != 0) = none → status &&& 0x1F = 0) ∧
      ∀ i ∈ Interrupt.priority,
        Interrupt.priority.find? (fun i => status &&& i.mask != 0) = some i →
          status &&& 0x1F ≠ 0 ∧ IsLowest (status &&& 0x1F) i.bit :=
  BitField.forall_byte (by decide +kernel)

theorem pending_some {m : Machine} {i : Interrupt} (h : m.pending = some i) :
    m.requested ≠ 0 ∧ IsLowest m.requested i.bit := by
  unfold pending at h
  exact (find_priority _).2 i (List.mem_of_find?_eq_some h) h

theorem pending_none {m : Machine} (h : m.pending = none) : m.requested = 0 :=
  (find_priority _).1 h

theorem pending_of_none {m : Machine} (h : m.requested = 0) : m.pending = none := by
  cases hp : m.pending with
  | none => rfl
  | some i => exact absurd h (pending_some hp).1

/-- The dispatch of `i` behind its push. -/
def served (m : Machine) (i : Interrupt) : Machine :=
  ((m.setPc i.vector).acknowledge i).setEnable false

/-- Whether `cycle` does anything. -/
def running (m : Machine) : Bool := m.bus.inBios || m.bus.isCartridgeValid

theorem running_of_valid {m : Machine} (h : m.bus.isCartridgeValid = true) :
    m.running = true := by
  rw [running, h, Bool.or_true]

section Cycle

variable {m : Machine} (w : World)

theorem cycle_running (h : m.running = true) :
    m.cycle w = (m.interrupt w).bind fun x => x.1.execute w x.2 := by
  refine if_neg ?_
  rw [← Bool.not_or]
  show ¬ (!m.running) = true
  rw [h]
  exact Bool.false_ne_true

theorem interrupt_none (hp : m.pending = none) : m.interrupt w = .ok (m, false) := by
  rw [interrupt, hp]
  exact ite_self _

/-- With IME, the pending interrupt is served. -/
theorem interrupt_enabled {i : Interrupt} (henable : m.cpu.enable = true)
    (hp : m.pending = some i) :
    m.interrupt w = (m.push w m.cpu.pc).map fun n => (n.served i, true) := by
  have hon : ¬ (!m.cpu.enable && !m.cpu.halted) = true := by simp [henable]
  rw [interrupt, if_neg hon, hp]
  exact if_pos henable

/-- Without IME, it only wakes the processor up. -/
theorem interrupt_disabled {i : Interrupt} (henable : m.cpu.enable = false)
    (hhalted : m.cpu.halted = true) (hp : m.pending = some i) :
    m.interrupt w = .ok (m, true) := by
  have hon : ¬ (!m.cpu.enable && !m.cpu.halted) = true := by simp [hhalted]
  rw [interrupt, if_neg hon, hp, henable]
  rfl

end Cycle

variable {w : World} {m m' : Machine}

theorem write_ok {address : UInt16} {value : UInt8} (h : m.write w address value = .ok m') :
    ∃ s, w.write m.bus address value = .ok s ∧ m' = { m with bus := s } := by
  obtain ⟨s, hs, rfl⟩ := map_eq_ok.mp h
  exact ⟨s, hs, rfl⟩

theorem push_ok {value : UInt16} (h : m.push w value = .ok m') :
    ∃ s t, w.write m.bus (m.cpu.sp - 1) (Processor.upper value) = .ok s ∧
      w.write s (m.cpu.sp - 2) (Processor.lower value) = .ok t ∧
      m' = { m.setSp (m.cpu.sp - 2) with bus := t } := by
  have hsp : m.cpu.sp - 1 - 1 = m.cpu.sp - 2 := by grind
  obtain ⟨n, hn, hm'⟩ := bind_eq_ok.mp h
  obtain ⟨s, hs, rfl⟩ := write_ok hn
  obtain ⟨t, ht, rfl⟩ := write_ok hm'
  simp only [setSp, onCpu, hsp] at ht ⊢
  exact ⟨s, t, hs, ht, rfl⟩

/-- Interrupt `i` is acknowledged: the old PC is on the stack, PC is at the vector,
and in IF and IME only what the dispatch clears has changed. -/
def Dispatched (w : World) (i : Nat) (m d : Machine) : Prop :=
  ∃ s t, w.write m.bus (m.cpu.sp - 1) (Processor.upper m.cpu.pc) = .ok s ∧
    w.write s (m.cpu.sp - 2) (Processor.lower m.cpu.pc) = .ok t ∧
    d =
      { m with
        cpu :=
          { m.cpu with
            pc := UInt16.ofNat (0x40 + 8 * i)
            sp := m.cpu.sp - 2
            enable := false }
        bus := t.setIo interruptFlagsAddress
          (m.bus.io interruptFlagsAddress &&& ~~~UInt8.ofNat (2 ^ i)) }

/-- What the requests since `m` have left in IF. -/
theorem Raises.flag (h : Raises m m') {k : Nat} (hk : m.flag k = true) : m'.flag k = true := by
  obtain ⟨new, -, hnew⟩ := h
  unfold Machine.flag at hk ⊢
  rw [hnew, BitField.bit_or, hk, Bool.true_or]

theorem Raises.requests (h : Raises m m') :
    ∃ new, m'.requests = m.requests ++ new ∧ ∀ i ∈ new, m'.flag i.bit = true := by
  obtain ⟨new, hrequests, hnew⟩ := h
  refine ⟨new, hrequests, fun i hi => ?_⟩
  have hmask : i.mask ||| Interrupt.masks new = Interrupt.masks new :=
    BitField.mem_or_orAll (List.mem_map_of_mem hi)
  unfold Machine.flag
  rw [hnew, BitField.bit_or, ← hmask, BitField.bit_or, i.bit_mask, Bool.true_or, Bool.or_true]

section Interrupt

variable {guarded : Bus → UInt16 → UInt8 → Except Fault Bus}
  (hw : ∀ s a v, Follows (fun s' => s.Requested s' []) (guarded s a v) (w.write s a v))

/-- Without a dispatch, `interrupt` leaves the machine as it is. -/
theorem interrupt_idle (h : ¬ (m.cpu.enable = true ∧ m.requested ≠ 0)) :
    ∃ interrupted, ∀ w, m.interrupt w = .ok (m, interrupted) := by
  cases hp : m.pending with
  | none => exact ⟨false, fun w => interrupt_none w hp⟩
  | some i =>
    have hdisabled : m.cpu.enable = false := by
      rw [← Bool.not_eq_true]
      exact fun henable => h ⟨henable, (pending_some hp).1⟩
    cases hhalted : m.cpu.halted with
    | false => exact ⟨false, fun w => by rw [interrupt, hdisabled, hhalted]; rfl⟩
    | true => exact ⟨true, fun w => interrupt_disabled w hdisabled hhalted hp⟩

include hw

theorem interrupt_dispatch (he : m.cpu.enable = true) (hreq : m.requested ≠ 0)
    {x : Machine × Bool} (h : m.interrupt (w.withWrite guarded) = .ok x) :
    ∃ i : Interrupt, IsLowest m.requested i.bit ∧ Dispatched w i.bit m x.1 ∧
      m.interrupt w = .ok x ∧ x.2 = true := by
  cases hp : m.pending with
  | none => exact absurd (pending_none hp) hreq
  | some i =>
    rw [interrupt_enabled _ he hp] at h
    obtain ⟨n, hpush, rfl⟩ := map_eq_ok.mp h
    obtain ⟨hreal, new, hnew, hflags⟩ := follows_push (raises_rules hw m) m.cpu.pc (.refl m) n hpush
    obtain ⟨s, t, hs, ht, rfl⟩ := push_ok hreal
    refine ⟨i, (pending_some hp).2, ⟨s, t, hs, ht, ?_⟩, ?_, rfl⟩
    · have hnil : new = [] := by simpa [setSp, onCpu] using hnew
      rw [hnil] at hflags
      have hkept : t.io interruptFlagsAddress = m.bus.io interruptFlagsAddress := by
        simpa [Bus.Requested] using hflags
      simp only [served, setPc, setSp, setEnable, acknowledge, onCpu, hkept, i.vector_eq, i.mask_eq]
    · rw [interrupt_enabled w he hp]
      exact map_eq_ok.mpr ⟨_, hreal, rfl⟩

end Interrupt

end Machine

namespace Bus

/-- The guard under which no write names IF. -/
def sparesFlags (_ : Bus) (address : UInt16) (_ : UInt8) : Bool :=
  address != interruptFlagsAddress

theorem follows_guardedWrite (depth : Nat) (s : Bus) (address : UInt16) (value : UInt8) :
    Follows (fun s' => s.Requested s' []) (guardedWrite sparesFlags depth s address value)
      (write depth s address value) := by
  intro s' h
  refine ⟨write_of_guardedWrite h, requested_of_eq ?_⟩
  exact guardedUpdates_io (fun _ _ => by simp [sparesFlags]) (by decide) (guardedWrite_updates h)

end Bus

namespace Machine

/-- **No interrupt is lost.** -/
theorem interrupts_kept {w : World} {depth : Nat} (hwrite : w.write = Bus.write depth)
    {m m' : Machine} (hrun : m.bus.inBios = true ∨ m.bus.isCartridgeValid = true)
    (h : m.cycle (w.withWrite (Bus.guardedWrite Bus.sparesFlags depth)) = .ok m') :
    m.cycle w = .ok m' ∧
      (m.cpu.enable = true → m.requested ≠ 0 →
        ∃ i d, IsLowest m.requested i ∧ Dispatched w i m d ∧ m.interrupt w = .ok (d, true) ∧
          d.execute w true = .ok m' ∧ ∀ k, k ≠ i → m.flag k = true → m'.flag k = true) ∧
      (¬ (m.cpu.enable = true ∧ m.requested ≠ 0) →
        ∀ k, m.flag k = true → m'.flag k = true) ∧
      ∃ new, m'.requests = m.requests ++ new ∧ ∀ i ∈ new, m'.flag i.bit = true := by
  have hw : ∀ s a v, Follows (fun s' => s.Requested s' [])
      (Bus.guardedWrite Bus.sparesFlags depth s a v) (w.write s a v) := by
    rw [hwrite]
    exact Bus.follows_guardedWrite depth
  have hcycle := fun w => m.cycle_running w (Bool.or_eq_true_iff.mpr hrun)
  rw [hcycle] at h
  obtain ⟨x, hx, hguarded⟩ := bind_eq_ok.mp h
  obtain ⟨hexecute, hraises⟩ := follows_execute (raises_rules hw x.1) x.2 (.refl x.1) m' hguarded
  by_cases hd : m.cpu.enable = true ∧ m.requested ≠ 0
  · obtain ⟨i, hlowest, hdispatched, hreal, hinterrupted⟩ := interrupt_dispatch hw hd.1 hd.2 hx
    obtain ⟨s, t, -, -, hbus⟩ := id hdispatched
    have hrequests := hraises.requests
    rw [hbus] at hrequests
    refine ⟨?_, fun _ _ => ⟨i.bit, x.1, hlowest, hdispatched, ?_, ?_, ?_⟩, fun hn => absurd hd hn,
      hrequests⟩
    · rw [hcycle]
      exact bind_eq_ok.mpr ⟨x, hreal, hexecute⟩
    · rw [hreal, ← hinterrupted]
    · exact hinterrupted ▸ hexecute
    · intro k hk hflag
      refine hraises.flag ?_
      rw [hbus, Machine.flag, Bus.setIo_io_self, ← i.mask_eq, i.bit_clear _ hk]
      exact hflag
  · obtain ⟨interrupted, hidle⟩ := interrupt_idle hd
    obtain rfl : (m, interrupted) = x := Except.ok.inj ((hidle _).symm.trans hx)
    refine ⟨?_, fun he hr => absurd ⟨he, hr⟩ hd, fun _ _ hk => hraises.flag hk, hraises.requests⟩
    rw [hcycle]
    exact bind_eq_ok.mpr ⟨_, hidle w, hexecute⟩

/-- A console without a link on which no button is pressed. -/
def quietWorld (depth : Nat) : World where
  write := Bus.write depth
  joypad := fun _ => ⟨JoyPad.buttonsIdle, JoyPad.buttonsIdle⟩
  link := fun _ => ⟨false, false, false, 0⟩
  answer := fun _ => ⟨false, false, false, 0⟩

/-- The processor after `reset`. -/
def resetProcessor : Processor where
  a := 0
  f := 0
  b := 0
  c := 0
  d := 0
  e := 0
  h := 0
  l := 0
  pc := 0x0000
  sp := 0xFFFE
  enable := true
  halted := false
  operands := (0, 0)
  timer := ⟨0, 0, .normal⟩

/-- The timer interrupt is enabled; it and that of the display are requested. -/
def timerPending : Machine where
  cpu := resetProcessor
  bus :=
    { Bus.bareConsole.setIo interruptFlagsAddress 0x06 with
      zero := fun address => if address = interruptMaskAddress then 0x04 else 0 }
  ticks := []
  requests := []

theorem interrupts_kept_timer : ∃ d m', Dispatched (quietWorld 1) 2 timerPending d ∧
    d.execute (quietWorld 1) true = .ok m' ∧ m'.flag 1 = true := by
  set guarded := (quietWorld 1).withWrite (Bus.guardedWrite Bus.sparesFlags 1)
  have hok : (timerPending.cycle guarded).isOk = true := by decide
  cases h : timerPending.cycle guarded with
  | error e =>
    rw [h] at hok
    cases hok
  | ok m' =>
    obtain ⟨-, hdispatch, -⟩ :=
      interrupts_kept (w := quietWorld 1) (m := timerPending) rfl (.inl rfl) h
    obtain ⟨i, d, hlowest, hdispatched, -, hexecute, hkept⟩ := hdispatch rfl (by decide)
    have hi : i = 2 := by
      have htwo : IsLowest timerPending.requested 2 := by decide
      rcases Nat.lt_trichotomy i 2 with hlt | heq | hgt
      · exact absurd (hlowest.1.symm.trans (htwo.2 i hlt)) (by decide)
      · exact heq
      · exact absurd (htwo.1.symm.trans (hlowest.2 2 hgt)) (by decide)
    subst hi
    exact ⟨d, m', hdispatched, hexecute, hkept 1 (by decide) (by decide)⟩

end Machine

end GbEmu
