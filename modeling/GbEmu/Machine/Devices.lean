import GbEmu.Machine.Tick

/-!
The registers that the devices write. A call of `Clock::tick` changes these and none of
the others, so that what a program has stored in the rest of mapped IO stays there.
-/

namespace GbEmu

open Run

/-- What the timer, the graphics unit, the joypad and the link write by themselves. -/
def deviceRegisters : List UInt16 :=
  [joypadInputAddress, serialDataAddress, serialControlAddress, cpuTimerDivAddress,
    cpuTimerCounterAddress, interruptFlagsAddress, gpuStatusAddress, gpuScanlineAddress]

namespace Bus

/-- `s'` has the registers of `s` that no device writes. -/
def SparesRegisters (s s' : Bus) : Prop := ∀ r, r ∉ deviceRegisters → s'.io r = s.io r

namespace SparesRegisters

variable {s t u : Bus}

theorem refl (s : Bus) : SparesRegisters s s := fun _ _ => rfl

theorem trans (h : SparesRegisters s t) (h' : SparesRegisters t u) : SparesRegisters s u :=
  fun r hr => (h' r hr).trans (h r hr)

theorem setIo (s : Bus) {address : UInt16} (h : address ∈ deviceRegisters) (value : UInt8) :
    SparesRegisters s (s.setIo address value) := by
  intro r hr
  refine setIo_io_of_ne s ?_ value
  rintro rfl
  exact hr h

end SparesRegisters

theorem spares_timer (t : TimerModule) (s : Bus) (ticks : UInt8) :
    SparesRegisters s (t.cycle s ticks).2.1 := by
  intro r hr
  refine t.io_cycle s ticks r ?_ ?_ ?_ <;>
  · rintro rfl
    exact hr (by decide)

theorem spares_gpu (s : Bus) (ticks : UInt8) : SparesRegisters s (s.cycle ticks).1 := by
  intro r hr
  refine s.cycle_same ticks r ?_ ?_ ?_ <;>
  · rintro rfl
    exact hr (by decide)

theorem finishTransfer_spares {depth : Nat} {s : Bus} (data : UInt8) {x : Bus × List Interrupt}
    (hx : SparesRegisters s x.1) :
    Follows (fun y => SparesRegisters s y.1) (finishTransfer (Bus.write (depth + 1)) data x)
      (finishTransfer (Bus.write (depth + 1)) data x) := by
  have hport : x.1.find serialDataAddress = some .io := (x.1.find_io_iff _).mpr (by decide)
  have hstore : Bus.write (depth + 1) x.1 serialDataAddress data =
      .ok (x.1.setIo serialDataAddress data) := by
    rw [Bus.write_io x.1 depth hport, writeIo_plain (by decide)]
  have hdata : serialDataAddress ∈ deviceRegisters := by decide
  have hcontrol : serialControlAddress ∈ deviceRegisters := by decide
  have hflags : interruptFlagsAddress ∈ deviceRegisters := by decide
  unfold finishTransfer
  rw [hstore]
  exact follows_ok (hx.trans ((SparesRegisters.setIo x.1 hdata data).trans
    ((SparesRegisters.setIo _ hcontrol _).trans (.setIo _ hflags _))))

end Bus

namespace Machine

/-- **A tick changes no register but those of the devices.** -/
theorem clockTick_spares {w : World} {depth : Nat} (hwrite : w.write = Bus.write (depth + 1))
    {m m' : Machine} {ticks : UInt8} (h : m.clockTick w ticks = .ok m') :
    m.bus.SparesRegisters m'.bus := by
  have htimer := Bus.spares_timer m.cpu.timer m.bus ticks
  unfold clockTick at h
  generalize m.cpu.timer.cycle m.bus ticks = x at htimer h
  obtain ⟨timer, s, raised⟩ := x
  have hgpu := s.spares_gpu ticks
  generalize hy : s.cycle ticks = y at hgpu
  obtain ⟨s', events⟩ := y
  simp only [hy] at h
  have hjoypad : s'.SparesRegisters ((w.joypad m.ticks.length).cycle s') :=
    .setIo s' (by decide) _
  obtain ⟨z, hz, hm'⟩ := bind_eq_ok.mp h
  rw [hwrite] at hz
  have hfinish : ∀ data x, m.bus.SparesRegisters x.1 →
      Follows (fun y => m.bus.SparesRegisters y.1)
        (Bus.finishTransfer (Bus.write (depth + 1)) data x)
        (Bus.finishTransfer (Bus.write (depth + 1)) data x) :=
    fun data _ hx => Bus.finishTransfer_spares data hx
  have hlink := Bus.follows_cycleLink (P := fun y => m.bus.SparesRegisters y.1)
    (fun _ _ hx => hx) hfinish
    (w.answer m.ticks.length) ticks (s :=
      { (w.joypad m.ticks.length).cycle s' with
        link := ((w.joypad m.ticks.length).cycle s').link.map
          (ConsoleLink.update · (w.link m.ticks.length)) })
    (htimer.trans (hgpu.trans hjoypad)) z hz
  exact Except.ok.inj hm' ▸ hlink.2

end Machine

end GbEmu
