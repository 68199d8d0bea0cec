import GbEmu.Bus.Guard
import GbEmu.Cartridge.Bounds
import GbEmu.Processor.Interrupts
import GbEmu.Timer.Counting

/-!
Bit 7 of KEY1 and the clock speed of the timer. STOP sets both; a store of the
program sets the bit to whatever it likes.
-/

namespace GbEmu

open Run

namespace Bus

def speedBit (s : Bus) : UInt8 := s.io cgbSpeedSwitchAddress &&& 0x80

/-- A store to KEY1 leaves bit 7 as it is. -/
def speedGuard (s : Bus) (address : UInt16) (value : UInt8) : Bool :=
  address != cgbSpeedSwitchAddress || value &&& 0x80 == s.speedBit

theorem speedBit_guardedWrite {depth : Nat} {s s' : Bus} {address : UInt16} {value : UInt8}
    (h : guardedWrite speedGuard depth s address value = .ok s') : s'.speedBit = s.speedBit := by
  refine guardedUpdates_register (P := fun v => v &&& 0x80 = s.speedBit) (by decide) ?_
    (guardedWrite_updates h) rfl
  intro t v ha ht
  have hsame : v &&& 0x80 = t.speedBit := by simpa [speedGuard] using ha
  rw [hsame]
  exact ht

end Bus

namespace Machine

/-- Bit 7 of KEY1 says whether the timer runs at double speed. -/
def SpeedAgrees (m : Machine) : Prop := m.bus.speedBit ≠ 0 ↔ m.cpu.timer.speed = .double

instance (m : Machine) : Decidable m.SpeedAgrees := inferInstanceAs (Decidable (_ ↔ _))

theorem SpeedAgrees.of_eq {m m' : Machine} (h : m.SpeedAgrees)
    (hbit : m'.bus.speedBit = m.bus.speedBit)
    (hspeed : m'.cpu.timer.speed = m.cpu.timer.speed) : m'.SpeedAgrees := by
  unfold SpeedAgrees at h ⊢
  rwa [hbit, hspeed]

/-! ## A tick -/

section Tick

variable {w : World} {depth : Nat} (hwrite : w.write = Bus.write depth)
  {guarded : Bus → UInt16 → UInt8 → Except Fault Bus}
  (hg : ∀ s a v s', guarded s a v = .ok s' → w.write s a v = .ok s')

include hwrite hg

theorem follows_finishTransfer_speed {bit : UInt8} (data : UInt8) {x : Bus × List Interrupt}
    (hx : x.1.speedBit = bit) :
    Follows (fun y => y.1.speedBit = bit) (Bus.finishTransfer guarded data x)
      (Bus.finishTransfer w.write data x) := by
  refine Follows.map (P := fun s => s.speedBit = bit) (fun s hs => ?_) fun s hs => ?_
  · have hreal := hg _ _ _ _ hs
    refine ⟨hreal, ?_⟩
    rw [hwrite] at hreal
    cases depth with
    | zero => cases hreal
    | succ depth =>
      have hport : x.1.find serialDataAddress = some .io := (x.1.find_io_iff _).mpr (by decide)
      rw [Bus.write_io x.1 depth hport, Bus.writeIo_plain (by decide), Except.ok.injEq] at hreal
      rw [← hreal, Bus.speedBit, Bus.setIo_io_of_ne _ (by decide)]
      exact hx
  · simp only [Bus.speedBit, Bus.request]
    rw [Bus.setIo_io_of_ne _ (by decide), Bus.setIo_io_of_ne _ (by decide)]
    exact hs

theorem follows_clockTick_speed (ticks : UInt8) {m : Machine} (h : m.SpeedAgrees) :
    Follows SpeedAgrees (m.clockTick (w.withWrite guarded) ticks) (m.clockTick w ticks) := by
  have htimer := m.cpu.timer.io_cycle m.bus ticks cgbSpeedSwitchAddress (by decide)
    (by decide) (by decide)
  have hspeed := m.cpu.timer.speed_cycle m.bus ticks
  unfold clockTick
  generalize m.cpu.timer.cycle m.bus ticks = x at htimer hspeed ⊢
  obtain ⟨timer, s, raised⟩ := x
  have hgpu := s.cycle_same ticks cgbSpeedSwitchAddress (by decide) (by decide) (by decide)
  generalize hy : s.cycle ticks = y at hgpu
  obtain ⟨s', events⟩ := y
  have hbit : ((w.joypad m.ticks.length).cycle s').speedBit = m.bus.speedBit := by
    unfold Bus.speedBit JoyPad.cycle
    rw [Bus.setIo_io_of_ne _ (by decide), hgpu, htimer]
  simp only [hy, World.withWrite]
  have hlink := Bus.follows_cycleLink (P := fun x => x.1.speedBit = m.bus.speedBit)
    (fun _ _ hx => hx) (fun data _ hx => follows_finishTransfer_speed hwrite hg data hx)
    (w.answer m.ticks.length) ticks (s :=
      { (w.joypad m.ticks.length).cycle s' with
        link := ((w.joypad m.ticks.length).cycle s').link.map
          (ConsoleLink.update · (w.link m.ticks.length)) }) hbit
  exact hlink.bind fun z hz => follows_ok (h.of_eq hz hspeed)

theorem speed_tickRules : TickRules SpeedAgrees (w.withWrite guarded) w where
  cpu _ _ htimer h := h.of_eq rfl (congrArg TimerModule.speed htimer)
  unlock _ h := h
  clockTick _ ticks h := follows_clockTick_speed hwrite hg ticks h

end Tick

/-! ## STOP -/

theorem write_speed (depth : Nat) (s : Bus) (value : UInt8) :
    Bus.write (depth + 1) s cgbSpeedSwitchAddress value =
      .ok (s.setIo cgbSpeedSwitchAddress value) := by
  have hport : s.find cgbSpeedSwitchAddress = some .io := (s.find_io_iff _).mpr (by decide)
  rw [Bus.write_io s depth hport, Bus.writeIo_plain (by decide)]

/-- Bit 7 of the byte that STOP stores. -/
theorem speedBit_switched (s : Bus) (speed : ClockSpeed) :
    (s.setIo cgbSpeedSwitchAddress (UInt8.ofNat speed.toNat <<< 7)).speedBit ≠ 0 ↔
      speed = .double := by
  unfold Bus.speedBit
  rw [Bus.setIo_io_self]
  cases speed <;> decide

section Stop

variable {w : World} {depth : Nat} (hwrite : w.write = Bus.write depth)

include hwrite

theorem speedAgrees_stop {m m' : Machine} (hm : m.SpeedAgrees) (h : m.stop w = .ok m') :
    m'.SpeedAgrees := by
  unfold stop at h
  by_cases hcgb : (!m.bus.isCGB) = true
  · rw [if_pos hcgb] at h
    exact Except.ok.inj h ▸ hm
  · rw [if_neg hcgb] at h
    obtain ⟨current, -, h⟩ := bind_eq_ok.mp h
    by_cases hswitch : current &&& 0x01 = 0
    · rw [if_pos hswitch] at h
      exact Except.ok.inj h ▸ hm
    · rw [if_neg hswitch] at h
      obtain ⟨n, hn, h⟩ := bind_eq_ok.mp h
      obtain ⟨s, hs, rfl⟩ := write_ok hn
      rw [hwrite] at hs
      cases depth with
      | zero => cases hs
      | succ depth =>
        rw [write_speed, Except.ok.injEq] at hs
        rw [← Except.ok.inj h, ← hs]
        exact speedBit_switched m.bus _

/-- Under the guard STOP does not get to switch. -/
theorem follows_stop_speed {m : Machine} (hm : m.SpeedAgrees) :
    Follows SpeedAgrees (m.stop (w.withWrite (Bus.guardedWrite Bus.speedGuard depth)))
      (m.stop w) := by
  refine .ite (fun _ => follows_ok hm) fun _ => ?_
  refine (follows_refl _).bind fun current _ => ?_
  refine .ite (fun _ => follows_ok hm) fun _ => ?_
  have hrefused : ∀ speed : ClockSpeed, speed ≠ m.cpu.timer.speed → ∀ s,
      Bus.guardedWrite Bus.speedGuard depth m.bus cgbSpeedSwitchAddress
        (UInt8.ofNat speed.toNat <<< 7) ≠ .ok s := by
    intro speed hne s hs
    have hkept := Bus.speedBit_guardedWrite hs
    have hreal := Bus.write_of_guardedWrite hs
    cases depth with
    | zero => cases hreal
    | succ depth =>
      rw [write_speed, Except.ok.injEq] at hreal
      have hswitched := speedBit_switched m.bus speed
      rw [hreal, hkept] at hswitched
      have hboth : m.cpu.timer.speed = .double ↔ speed = .double := hm.symm.trans hswitched
      cases hspeed : m.cpu.timer.speed <;> cases speed <;> simp_all
  intro m' hm'
  obtain ⟨n, hn, -⟩ := bind_eq_ok.mp hm'
  obtain ⟨s, hs, -⟩ := write_ok hn
  refine absurd hs (hrefused _ ?_ s)
  cases m.cpu.timer.speed <;> decide

theorem speed_cycleRules :
    CycleRules SpeedAgrees (w.withWrite (Bus.guardedWrite Bus.speedGuard depth)) w where
  toTickRules := by
    refine speed_tickRules hwrite fun s a v s' h => ?_
    rw [hwrite]
    exact Bus.write_of_guardedWrite h
  write m address value hm := by
    refine Follows.map (P := fun s => s.speedBit = m.bus.speedBit) (fun s hs => ?_)
      fun s hs => hm.of_eq hs rfl
    rw [hwrite]
    exact ⟨Bus.write_of_guardedWrite hs, Bus.speedBit_guardedWrite hs⟩
  stop _ hm := follows_stop_speed hwrite hm

end Stop

/-! ## A cycle -/

def stopOpcode : UInt8 := 0x10

/-- The next instruction is STOP. -/
def atStop (m : Machine) (interrupted : Bool) : Bool :=
  !(m.cpu.halted && !interrupted) &&
    match m.awake.peek m.awake.cpu.pc with
    | .ok opcode => opcode == stopOpcode
    | .error _ => false

/-- A cycle in which every store but that of STOP is made under the guard. -/
def guardedCycle (w : World) (depth : Nat) (m : Machine) : Except Fault Machine :=
  let guarded := w.withWrite (Bus.guardedWrite Bus.speedGuard depth)
  if !m.bus.inBios && !m.bus.isCartridgeValid then .ok m
  else do
    let (m, interrupted) ← m.interrupt guarded
    if m.atStop interrupted then m.execute w interrupted else m.execute guarded interrupted

section Cycle

variable {w : World} {depth : Nat} (hwrite : w.write = Bus.write depth)

include hwrite

theorem follows_interrupt_speed {m : Machine} (hm : m.SpeedAgrees) :
    Follows (fun x => x.1.SpeedAgrees)
      (m.interrupt (w.withWrite (Bus.guardedWrite Bus.speedGuard depth))) (m.interrupt w) := by
  refine .ite (fun _ => follows_ok hm) fun _ => ?_
  cases m.pending with
  | none => exact follows_ok hm
  | some i =>
    refine .ite (fun _ => ?_) fun _ => follows_ok hm
    refine (follows_push (speed_cycleRules hwrite) m.cpu.pc hm).map fun t ht => ?_
    refine ht.of_eq ?_ rfl
    exact congrArg (· &&& 0x80) (Bus.setIo_io_of_ne _ (by decide) _)

theorem speedAgrees_execute_stop {m m' : Machine} {interrupted : Bool} (hm : m.SpeedAgrees)
    (hstop : m.atStop interrupted = true) (h : m.execute w interrupted = .ok m') :
    m'.SpeedAgrees := by
  have hT : TickRules SpeedAgrees (w.withWrite w.write) w :=
    speed_tickRules hwrite fun _ _ _ _ h => h
  unfold atStop at hstop
  rw [Bool.and_eq_true] at hstop
  obtain ⟨hawake, hopcode⟩ := hstop
  rw [Bool.not_eq_true'] at hawake
  unfold execute at h
  rw [if_neg (by rw [hawake]; decide)] at h
  obtain ⟨⟨opcode, n⟩, hfetch, h⟩ := bind_eq_ok.mp h
  have hn := (follows_fetch hT (awake_kept hT hm) _ hfetch).2
  -- the opcode is that of STOP, and so is the operation
  have hpeek : m.awake.peek m.awake.cpu.pc = .ok opcode := by
    obtain ⟨byte, hbyte, heq⟩ := map_eq_ok.mp hfetch
    rw [Prod.mk.injEq] at heq
    rw [← heq.1]
    exact hbyte
  rw [hpeek] at hopcode
  obtain rfl : opcode = stopOpcode := by simpa using hopcode
  have hlookup : n.lookup stopOpcode = .ok (⟨.stop, 1, 1⟩, n) := rfl
  obtain ⟨y, hy, h⟩ := bind_eq_ok.mp h
  obtain rfl : (⟨.stop, 1, 1⟩, n) = y := Except.ok.inj (hlookup.symm.trans hy)
  obtain ⟨t, ht, h⟩ := bind_eq_ok.mp h
  obtain rfl : n = t := Except.ok.inj ht
  -- its tick and its handler
  obtain ⟨u, hu, h⟩ := bind_eq_ok.mp h
  have hticked := (follows_tick hT 1 hn u hu).2
  obtain ⟨v, hv, h⟩ := bind_eq_ok.mp h
  have hswitched := speedAgrees_stop hwrite hticked hv
  rw [← Except.ok.inj h]
  exact hswitched.of_eq rfl rfl

/-- A guarded cycle is a cycle, and keeps bit and speed together. -/
theorem guardedCycle_follows {m : Machine} (hm : m.SpeedAgrees) :
    Follows SpeedAgrees (m.guardedCycle w depth) (m.cycle w) := by
  refine .ite (fun _ => follows_ok hm) fun _ => ?_
  refine (follows_interrupt_speed hwrite hm).bind fun x hx => ?_
  obtain ⟨n, interrupted⟩ := x
  intro m' h
  by_cases hstop : n.atStop interrupted = true
  · simp only [hstop, if_true] at h
    exact ⟨h, speedAgrees_execute_stop hwrite hx hstop h⟩
  · simp only [hstop] at h
    exact follows_execute (speed_cycleRules hwrite) interrupted hx m' h

end Cycle

/-! ## Runs -/

/-- `Processor::reset`, with that of the timer. -/
def reset (m : Machine) : Machine :=
  let s := m.bus.setIo interruptFlagsAddress 0
  let s := { s with zero := Function.update s.zero interruptMaskAddress 0 }
  let (timer, s) := m.cpu.timer.reset s
  { m with
    cpu :=
      { m.cpu with
        a := 0, f := 0, b := 0, c := 0, d := 0, e := 0, h := 0, l := 0, pc := 0x0000, sp := 0xFFFE
        enable := true, timer := timer }
    bus := s }

def powerOn (ndebug : Bool) (bios : Bios) (cartridge : Option Cartridge)
    (link : Option ConsoleLink) : Machine where
  cpu := resetProcessor
  bus := Bus.powerOn ndebug bios cartridge link
  ticks := []
  requests := []

/-- What can happen to the console, with cycles and bus writes of some kind. -/
inductive MachineStep (cycled : World → Nat → Machine → Except Fault Machine)
    (written : Nat → Bus → UInt16 → UInt8 → Except Fault Bus) : Machine → Machine → Prop
  | cycle {m m' : Machine} (w : World) (depth : Nat) (hw : w.write = Bus.write depth)
      (h : cycled w depth m = .ok m') : MachineStep cycled written m m'
  | write {m : Machine} {s : Bus} (depth : Nat) (address : UInt16) (value : UInt8)
      (h : written depth m.bus address value = .ok s) :
      MachineStep cycled written m { m with bus := s }
  | reset (m : Machine) : MachineStep cycled written m m.reset

/-- The steps of the console. -/
abbrev Steps : Machine → Machine → Prop :=
  Relation.ReflTransGen (MachineStep (fun w _ m => m.cycle w) Bus.write)

/-- Those whose stores leave bit 7 of KEY1 to STOP. -/
abbrev GuardedSteps : Machine → Machine → Prop :=
  Relation.ReflTransGen (MachineStep guardedCycle (Bus.guardedWrite Bus.speedGuard))

theorem speedBit_reset (m : Machine) : m.reset.bus.speedBit = m.bus.speedBit := by
  have hflags : cgbSpeedSwitchAddress ≠ interruptFlagsAddress := by decide
  have hdivider : cgbSpeedSwitchAddress ≠ cpuTimerDivAddress := by decide
  have hcounter : cgbSpeedSwitchAddress ≠ cpuTimerCounterAddress := by decide
  have hmodulo : cgbSpeedSwitchAddress ≠ cpuTimerModuloAddress := by decide
  have hcontrol : cgbSpeedSwitchAddress ≠ cpuTimerControlAddress := by decide
  simp only [reset, TimerModule.reset, Bus.speedBit, Bus.setIo_io_of_ne _ hcontrol,
    Bus.setIo_io_of_ne _ hmodulo, Bus.setIo_io_of_ne _ hcounter, Bus.setIo_io_of_ne _ hdivider,
    Bus.setIo_io_of_ne _ hflags]

theorem speedAgrees_step {m m' : Machine} (hm : m.SpeedAgrees)
    (h : MachineStep guardedCycle (Bus.guardedWrite Bus.speedGuard) m m') :
    MachineStep (fun w _ m => m.cycle w) Bus.write m m' ∧ m'.SpeedAgrees := by
  cases h with
  | cycle w depth hw h =>
    obtain ⟨hcycle, hagrees⟩ := guardedCycle_follows hw hm m' h
    exact ⟨.cycle w depth hw hcycle, hagrees⟩
  | write depth address value h =>
    have hkept := Bus.speedBit_guardedWrite h
    exact ⟨.write depth address value (Bus.write_of_guardedWrite h), hm.of_eq hkept rfl⟩
  | reset => exact ⟨.reset m, hm.of_eq (speedBit_reset m) rfl⟩

theorem bit_seven : ∀ x : UInt8, x &&& 0x80 = 0 ∨ x &&& 0x80 = 0x80 :=
  BitField.forall_byte (by decide +kernel)

theorem speedAgrees_powerOn (ndebug : Bool) (bios : Bios) (c : Option Cartridge)
    (l : Option ConsoleLink) : (powerOn ndebug bios c l).SpeedAgrees := by
  refine iff_of_false (not_not.mpr ?_) nofun
  show (0 : UInt8) &&& 0x80 = 0
  decide

theorem speedAgrees_run {m₀ m : Machine} (hm₀ : m₀.SpeedAgrees) (h : GuardedSteps m₀ m) :
    Steps m₀ m ∧ m.SpeedAgrees := by
  induction h with
  | refl => exact ⟨.refl, hm₀⟩
  | tail _ hstep ih =>
    obtain ⟨hreal, hagrees⟩ := speedAgrees_step ih.2 hstep
    exact ⟨ih.1.tail hreal, hagrees⟩

/-- **KEY1 and the clock speed.** In every run from power-on whose stores leave bit 7 to
STOP, the bit says whether the timer runs at double speed; and where the two agree, a
store to KEY1 keeps them so exactly if it leaves the bit as it is. -/
theorem speed_agrees (ndebug : Bool) (bios : Bios) (c : Option Cartridge)
    (l : Option ConsoleLink) :
    (∀ m, GuardedSteps (powerOn ndebug bios c l) m →
      Steps (powerOn ndebug bios c l) m ∧ m.SpeedAgrees) ∧
      ∀ (m : Machine) (depth : Nat) (value : UInt8) (s : Bus), m.SpeedAgrees →
        Bus.write (depth + 1) m.bus cgbSpeedSwitchAddress value = .ok s →
          (SpeedAgrees { m with bus := s } ↔
            Bus.speedGuard m.bus cgbSpeedSwitchAddress value = true) := by
  constructor
  · exact fun m hrun => speedAgrees_run (speedAgrees_powerOn ndebug bios c l) hrun
  · intro m depth value s hm hw
    rw [write_speed, Except.ok.injEq] at hw
    have hstored : s.speedBit = value &&& 0x80 := by
      rw [← hw, Bus.speedBit, Bus.setIo_io_self]
    have hguard : Bus.speedGuard m.bus cgbSpeedSwitchAddress value = true ↔
        value &&& 0x80 = m.bus.speedBit := by
      simp [Bus.speedGuard]
    unfold SpeedAgrees at hm ⊢
    rw [hguard, ← hm, hstored]
    rcases bit_seven value with hv | hv <;>
      rcases bit_seven (m.bus.io cgbSpeedSwitchAddress) with hb | hb <;>
      simp [Bus.speedBit, hv, hb]

/-- A CGB console at power-on, with STOP as its first instruction. -/
def stopConsole : Machine :=
  powerOn false ⟨[stopOpcode], by decide⟩ (some ⟨true, true, 0, [], 0, [], none⟩) none

/-- A request to switch is stored, and the next instruction is STOP: the clock runs at
double speed. -/
theorem speed_agrees_request : ∃ m m' : Machine,
    MachineStep guardedCycle (Bus.guardedWrite Bus.speedGuard) stopConsole m ∧
      m.guardedCycle (quietWorld 1) 1 = .ok m' ∧ m'.cpu.timer.speed = .double ∧
      m'.bus.speedBit ≠ 0 := by
  have hport : stopConsole.bus.find cgbSpeedSwitchAddress = some .io :=
    (stopConsole.bus.find_io_iff _).mpr (by decide)
  have hw : Bus.guardedWrite Bus.speedGuard 1 stopConsole.bus cgbSpeedSwitchAddress 0x01 =
      .ok (stopConsole.bus.setIo cgbSpeedSwitchAddress 0x01) := by
    unfold Bus.guardedWrite Bus.route
    rw [if_pos (show Bus.speedGuard stopConsole.bus cgbSpeedSwitchAddress 0x01 = true by decide),
      hport]
    exact Bus.writeIo_plain (by decide)
  let m : Machine := { stopConsole with bus := stopConsole.bus.setIo cgbSpeedSwitchAddress 0x01 }
  have hstored : MachineStep guardedCycle (Bus.guardedWrite Bus.speedGuard) stopConsole m :=
    .write 1 cgbSpeedSwitchAddress 0x01 hw
  have hspeed : (m.guardedCycle (quietWorld 1) 1).map (fun n => n.cpu.timer.speed) =
      .ok .double := by
    decide
  obtain ⟨m', hm', hdouble⟩ := map_eq_ok.mp hspeed
  have hagrees := ((speed_agrees false ⟨[stopOpcode], by decide⟩
    (some ⟨true, true, 0, [], 0, [], none⟩) none).1 m'
      (.tail (.single hstored) (.cycle (quietWorld 1) 1 rfl hm'))).2
  exact ⟨m, m', hstored, hm', hdouble, hagrees.mpr hdouble⟩

/-- A CGB console at power-on whose program stores 0x80 to KEY1. -/
theorem speed_parted :
    ¬ ∀ (host : Host) (bytes : List UInt8) (c : Cartridge),
      Cartridge.load host (some bytes) = .ok c → c.valid = true → c.cgb = true →
        ∀ (bios : Bios) (m : Machine), Steps (powerOn false bios (some c) none) m →
          m.SpeedAgrees := by
  intro hall
  obtain ⟨c, hload, hv, hc⟩ := Cartridge.load_headerImage_mode 1
  let m := powerOn false ⟨[], by decide⟩ (some c) none
  have hagrees := hall _ _ c hload hv hc ⟨[], by decide⟩ _
    (.single (.write 1 cgbSpeedSwitchAddress 0x80 (write_speed 0 m.bus 0x80)))
  have hbit : (m.bus.setIo cgbSpeedSwitchAddress 0x80).speedBit ≠ 0 := by
    rw [Bus.speedBit, Bus.setIo_io_self]
    decide
  exact absurd (hagrees.mp hbit) nofun

end Machine

end GbEmu
