import GbEmu.Bus.Guard
import GbEmu.Machine
import GbEmu.Timer.Counting

/-!
What a call of `Clock::tick` leaves alone. The devices write to registers, to the
display and to their own state; the memories, the cartridge and the registers of the
processor stay as they are, and the call always returns.
-/

namespace GbEmu

namespace Bus

/-- The memories with what is mapped into them. -/
structure Memories where
  inBios : Bool
  bios : Bios
  cartridge : Option Cartridge
  vram : Nat → Nat → UInt8
  working : Nat → Nat → UInt8
  oam : UInt16 → UInt8
  zero : UInt16 → UInt8

def memories (s : Bus) : Memories :=
  ⟨s.inBios, s.bios, s.cartridge, s.gpu.memory, s.working, s.oam, s.zero⟩

theorem memories_setIo (s : Bus) (address : UInt16) (value : UInt8) :
    (s.setIo address value).memories = s.memories := rfl

/-- `s'` has the memories of `s`, and the same bank of work RAM is selected. -/
structure Kept (s s' : Bus) : Prop where
  memories : s'.memories = s.memories
  bank : s'.io workingRamBankSelect = s.io workingRamBankSelect

namespace Kept

theorem refl (s : Bus) : Kept s s := ⟨rfl, rfl⟩

theorem trans {s t u : Bus} (h : Kept s t) (h' : Kept t u) : Kept s u :=
  ⟨h'.memories.trans h.memories, h'.bank.trans h.bank⟩

theorem setIo (s : Bus) {address : UInt16} (h : workingRamBankSelect ≠ address) (value : UInt8) :
    Kept s (s.setIo address value) :=
  ⟨rfl, setIo_io_of_ne s h value⟩

theorem zero {s s' : Bus} (h : Kept s s') : s'.zero = s.zero := congrArg Memories.zero h.memories

theorem working {s s' : Bus} (h : Kept s s') : s'.working = s.working :=
  congrArg Memories.working h.memories

theorem inBios {s s' : Bus} (h : Kept s s') : s'.inBios = s.inBios :=
  congrArg Memories.inBios h.memories

theorem cartridge {s s' : Bus} (h : Kept s s') : s'.cartridge = s.cartridge :=
  congrArg Memories.cartridge h.memories

end Kept

/-! ## The timer -/

theorem memories_incrementCounter (x : Bus × List Interrupt) :
    (TimerModule.incrementCounter x).1.memories = x.1.memories := by
  simp only [TimerModule.incrementCounter]
  split_ifs <;> rfl

theorem memories_timer (t : TimerModule) (s : Bus) (ticks : UInt8) :
    (t.cycle s ticks).2.1.memories = s.memories := by
  have hreset : (t.resetDivider s).2.memories = s.memories := by
    unfold TimerModule.resetDivider
    split_ifs <;> rfl
  have hdivider : ∀ (k : Nat) (u : Bus),
      (TimerModule.incrementDivider^[k] u).memories = u.memories := by
    intro k u
    induction k generalizing u with
    | zero => rfl
    | succ k ih => exact ih (TimerModule.incrementDivider u)
  have hcounter : ∀ (k : Nat) (x : Bus × List Interrupt),
      (TimerModule.incrementCounter^[k] x).1.memories = x.1.memories := by
    intro k x
    induction k generalizing x with
    | zero => rfl
    | succ k ih => exact (ih _).trans (memories_incrementCounter x)
  simp only [TimerModule.cycle, Drain.drain_eq (TimerModule.period_pos _)]
  split_ifs
  · exact (hdivider _ _).trans hreset
  · rw [Drain.drain_eq (TimerModule.timeout_cases _ _).1]
    exact (hcounter _ _).trans ((hdivider _ _).trans hreset)

theorem kept_timer (t : TimerModule) (s : Bus) (ticks : UInt8) : Kept s (t.cycle s ticks).2.1 :=
  ⟨memories_timer t s ticks, t.io_cycle s ticks _ (by decide) (by decide) (by decide)⟩

/-! ## The graphics unit -/

theorem memories_requestLcd (s : Bus) (enabled : Bool) :
    (s.requestLcd enabled).1.memories = s.memories := by
  cases enabled <;> rfl

theorem Drawn.memories {s s' : Bus} (h : Drawn s s') : s'.memories = s.memories := by
  obtain ⟨_, _, _, _, rfl⟩ := h
  rfl

theorem memories_startHBlank (s : Bus) : s.startHBlank.1.memories = s.memories := by
  unfold startHBlank
  split_ifs
  · exact memories_requestLcd _ _
  · exact memories_requestLcd _ _
  · rfl

theorem memories_startVBlank (s : Bus) : s.startVBlank.1.memories = s.memories := by
  have hlcd := s.memories_requestLcd s.isVBlankInterruptEnabled
  unfold startVBlank
  split_ifs
  · generalize s.requestLcd s.isVBlankInterruptEnabled = x at hlcd ⊢
    obtain ⟨u, events⟩ := x
    exact hlcd
  · rfl

theorem memories_handle (s : Bus) (ticks : UInt8) : (s.handle ticks).1.memories = s.memories := by
  unfold handle
  cases s.gpu.state with
  | hblank =>
    simp only [handleHBlank]
    split_ifs
    · exact s.memories_startHBlank
    · exact s.startHBlank.1.updateScreen_drawn.memories.trans s.memories_startHBlank
  | vblank =>
    have hvscan : ∀ n, (s.startVBlank.1.setVscan n).memories = s.memories := fun _ =>
      s.memories_startVBlank
    simp only [handleVBlank]
    split_ifs
    · exact (memories_setIo _ _ _).trans (hvscan _)
    · exact hvscan _
  | oam =>
    unfold handleOAM
    split_ifs
    · exact memories_requestLcd _ _
    · rfl
  | vram =>
    unfold handleVRAM
    split_ifs <;> rfl

theorem memories_next (s : Bus) : s.next.1.memories = s.memories := by
  have hleave : ∀ (period : Nat) (new : RenderState),
      (s.leave period new).1.memories = s.memories := by
    intro period new
    unfold leave
    split_ifs <;> rfl
  unfold next
  cases s.gpu.state <;> exact hleave _ _

theorem kept_gpu (s : Bus) (ticks : UInt8) : Kept s (s.cycle ticks).1 := by
  refine ⟨?_, s.cycle_same ticks _ (by decide) (by decide) (by decide)⟩
  simp only [cycle]
  split_ifs
  · rfl
  · exact (memories_next _).trans (memories_handle _ ticks)

/-! ## The link -/

section Link

variable {write : Bus → UInt16 → UInt8 → Except Fault Bus} {depth : Nat}
  (hwrite : write = Bus.write (depth + 1)) {s : Bus}

include hwrite

/-- The end of a transfer, whose only bus write goes to a plain register. -/
theorem finishTransfer_kept (data : UInt8) {x : Bus × List Interrupt} (hx : Kept s x.1) :
    ∃ y, finishTransfer write data x = .ok y ∧ Kept s y.1 := by
  have hport : x.1.find serialDataAddress = some .io := (x.1.find_io_iff _).mpr (by decide)
  have hstore : write x.1 serialDataAddress data = .ok (x.1.setIo serialDataAddress data) := by
    rw [hwrite, Bus.write_io x.1 depth hport, writeIo_plain (by decide)]
  unfold finishTransfer
  rw [hstore]
  refine ⟨_, rfl, hx.memories, ?_⟩
  simp only [request]
  rw [setIo_io_of_ne _ (by decide), setIo_io_of_ne _ (by decide), setIo_io_of_ne _ (by decide),
    hx.bank]

theorem linkPass_kept (answer : LinkThread) (count : Nat) {x : Bus × List Interrupt}
    (hx : Kept s x.1) : ∃ y, linkPass write answer count x = .ok y ∧ Kept s y.1 := by
  unfold linkPass
  cases x.1.link with
  | none => exact ⟨x, rfl, hx⟩
  | some l =>
    have hlink : ∀ l', Kept s { x.1 with link := l' } := fun _ => ⟨hx.memories, hx.bank⟩
    simp only [check]
    cases l.state with
    | idle => exact ⟨_, rfl, hlink _⟩
    | disconnected => exact ⟨_, rfl, hlink _⟩
    | simResponse => exact finishTransfer_kept hwrite _ (hlink _)
    | pending => exact finishTransfer_kept hwrite _ (hlink _)

theorem cycleLink_kept (answer : LinkThread) (ticks : UInt8) :
    ∃ y, s.cycleLink write answer ticks = .ok y ∧ Kept s y.1 := by
  unfold cycleLink
  cases s.link with
  | none => exact ⟨_, rfl, .refl s⟩
  | some l => exact Run.run_total (fun _ _ hx => linkPass_kept hwrite answer _ hx) _ ⟨rfl, rfl⟩

end Link

end Bus

namespace Machine

/-- A call of `Clock::tick` lies between `m` and `m'`. -/
structure Ticked (m : Machine) (ticks : UInt8) (m' : Machine) : Prop where
  cpu : ∃ timer, timer.speed = m.cpu.timer.speed ∧ m'.cpu = { m.cpu with timer := timer }
  bus : m.bus.Kept m'.bus
  ticks : m'.ticks = m.ticks ++ [ticks]

/-- **A tick returns.** -/
theorem clockTick_total {w : World} {depth : Nat} (hwrite : w.write = Bus.write (depth + 1))
    (m : Machine) (ticks : UInt8) : ∃ m', m.clockTick w ticks = .ok m' ∧ m.Ticked ticks m' := by
  have htimer := Bus.kept_timer m.cpu.timer m.bus ticks
  have hspeed := m.cpu.timer.speed_cycle m.bus ticks
  unfold clockTick
  generalize m.cpu.timer.cycle m.bus ticks = x at htimer hspeed ⊢
  obtain ⟨timer, s, raised⟩ := x
  have hgpu := s.kept_gpu ticks
  generalize hy : s.cycle ticks = y at hgpu
  obtain ⟨s', events⟩ := y
  have hjoypad : s'.Kept ((w.joypad m.ticks.length).cycle s') := .setIo s' (by decide) _
  obtain ⟨z, hz, hlink⟩ := Bus.cycleLink_kept hwrite (w.answer m.ticks.length) ticks (s :=
    { (w.joypad m.ticks.length).cycle s' with
      link := ((w.joypad m.ticks.length).cycle s').link.map
        (ConsoleLink.update · (w.link m.ticks.length)) })
  simp only [hy, hz]
  have hbus := (htimer.trans hgpu).trans (hjoypad.trans ⟨hlink.memories, hlink.bank⟩)
  exact ⟨_, rfl, ⟨timer, hspeed, rfl⟩, hbus, rfl⟩

end Machine

end GbEmu
