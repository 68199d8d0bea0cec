import GbEmu.Bus.Guard
import GbEmu.Lib.Follows
import GbEmu.Machine
import GbEmu.Timer.Counting

/-!
What the devices do to IF: each of them only ever adds the bits of the interrupts
that it requests, whatever the other bits are.
-/

namespace GbEmu

open Run

namespace Interrupt

/-- The bits of several requests. -/
def masks (is : List Interrupt) : UInt8 := BitField.orAll (is.map mask)

@[simp] theorem masks_nil : masks [] = 0 := rfl

theorem masks_append (is js : List Interrupt) : masks (is ++ js) = masks is ||| masks js := by
  induction js using List.reverseRecOn with
  | nil => simp
  | append_singleton js j ih =>
    rw [← List.append_assoc]
    unfold masks at ih ⊢
    rw [List.map_append, List.map_singleton, BitField.orAll_snoc, ih, List.map_append,
      List.map_singleton, BitField.orAll_snoc, UInt8.or_assoc]

@[simp] theorem masks_singleton (i : Interrupt) : masks [i] = i.mask := by
  simp [masks, BitField.orAll]

/-- The bit of an interrupt is set by its own request only. -/
theorem bit_masks (is : List Interrupt) (i : Interrupt) :
    BitField.bit (masks is) i.bit = decide (i ∈ is) := by
  have hmask : ∀ j : Interrupt, BitField.bit j.mask i.bit = decide (i = j) := by
    intro j
    cases i <;> cases j <;> decide
  induction is using List.reverseRecOn with
  | nil =>
    rw [masks_nil]
    cases i <;> decide
  | append_singleton is j ih =>
    rw [masks_append, masks_singleton, BitField.bit_or, ih, hmask]
    simp

end Interrupt

namespace Bus

/-- IF has gained the bits of `is`, and nothing else has happened to it. -/
def Requested (s s' : Bus) (is : List Interrupt) : Prop :=
  s'.io interruptFlagsAddress = s.io interruptFlagsAddress ||| Interrupt.masks is

theorem requested_of_eq {s s' : Bus}
    (h : s'.io interruptFlagsAddress = s.io interruptFlagsAddress) : Requested s s' [] := by
  unfold Requested
  rw [h, Interrupt.masks_nil, UInt8.or_zero]

theorem Requested.trans {s t u : Bus} {is js : List Interrupt} (h : Requested s t is)
    (h' : Requested t u js) : Requested s u (is ++ js) := by
  unfold Requested at h h' ⊢
  rw [h', h, UInt8.or_assoc, Interrupt.masks_append]

/-- A step that requests nothing. -/
theorem Requested.quiet {s t u : Bus} {is : List Interrupt} (h : Requested s t is)
    (h' : Requested t u []) : Requested s u is :=
  List.append_nil is ▸ h.trans h'

theorem requested_setIo (s : Bus) (address : UInt16) (h : address ≠ interruptFlagsAddress)
    (value : UInt8) : Requested s (s.setIo address value) [] :=
  requested_of_eq (setIo_io_of_ne s h.symm value)

theorem Requested.bit {s s' : Bus} {is : List Interrupt} (h : Requested s s' is) (i : Interrupt) :
    BitField.bit (s'.io interruptFlagsAddress) i.bit =
      (BitField.bit (s.io interruptFlagsAddress) i.bit || decide (i ∈ is)) := by
  rw [h, BitField.bit_or, Interrupt.bit_masks]

theorem requested_request (s : Bus) (i : Interrupt) : Requested s (s.request i) [i] := by
  unfold Requested request
  rw [setIo_io_self, Interrupt.masks_singleton]

/-! ## The timer -/

theorem requested_incrementDivider (s : Bus) : Requested s (TimerModule.incrementDivider s) [] :=
  requested_setIo s _ (by decide) _

theorem requested_incrementDivider_iterate (k : Nat) (s : Bus) :
    Requested s (TimerModule.incrementDivider^[k] s) [] := by
  induction k with
  | zero => exact requested_of_eq rfl
  | succ k ih =>
    rw [Function.iterate_succ_apply']
    exact ih.trans (requested_incrementDivider _)

/-- A pass adds a request to its list exactly when it sets the bit. -/
theorem requested_incrementCounter {s : Bus} {x : Bus × List Interrupt}
    (h : Requested s x.1 x.2) :
    Requested s (TimerModule.incrementCounter x).1 (TimerModule.incrementCounter x).2 := by
  have hcount : ∀ (t : Bus) v, Requested t (t.setIo cpuTimerCounterAddress v) [] :=
    fun t v => requested_setIo t _ (by decide) v
  simp only [TimerModule.incrementCounter]
  by_cases hc : x.1.io cpuTimerCounterAddress = 0xFF
  · simp only [if_pos hc]
    exact (h.quiet (hcount _ _)).trans ((requested_request _ _).quiet (hcount _ _))
  · simp only [if_neg hc]
    exact h.quiet (hcount _ _)

theorem requested_incrementCounter_iterate {s : Bus} {x : Bus × List Interrupt}
    (h : Requested s x.1 x.2) (k : Nat) :
    Requested s (TimerModule.incrementCounter^[k] x).1 (TimerModule.incrementCounter^[k] x).2 := by
  induction k with
  | zero => exact h
  | succ k ih =>
    rw [Function.iterate_succ_apply']
    exact requested_incrementCounter ih

theorem requested_resetDivider (t : TimerModule) (s : Bus) :
    Requested s (t.resetDivider s).2 [] := by
  unfold TimerModule.resetDivider
  by_cases h : s.rtcReset
  · rw [if_pos h]
    exact requested_setIo s cpuTimerDivAddress (by decide) 0
  · rw [if_neg h]
    exact requested_of_eq rfl

theorem requested_timer (t : TimerModule) (s : Bus) (ticks : UInt8) :
    Requested s (t.cycle s ticks).2.1 (t.cycle s ticks).2.2 := by
  have hreset := requested_resetDivider t s
  simp only [TimerModule.cycle, Drain.drain_eq (TimerModule.period_pos _)]
  generalize t.resetDivider s = x at hreset ⊢
  have hdivider := hreset.trans
    (requested_incrementDivider_iterate ((x.1.rtc + ticks.toNat) % 2 ^ 16 / x.1.period) x.2)
  by_cases he : TimerModule.isEnabled (TimerModule.incrementDivider^[
      (x.1.rtc + ticks.toNat) % 2 ^ 16 / x.1.period] x.2)
  · simp only [he, Bool.not_true, Bool.false_eq_true, if_false,
      Drain.drain_eq (TimerModule.timeout_cases _ _).1]
    exact requested_incrementCounter_iterate hdivider _
  · simp only [he, Bool.not_false, if_true]
    exact hdivider

/-! ## The graphics unit -/

/-- The interrupts that the events of a call stand for. -/
def requests (es : List Gpu.Event) : List Interrupt := es.filterMap Gpu.Event.request?

theorem requests_append (es fs : List Gpu.Event) :
    requests (es ++ fs) = requests es ++ requests fs :=
  List.filterMap_append

theorem requested_requestLcd (s : Bus) (enabled : Bool) :
    Requested s (s.requestLcd enabled).1 (requests (s.requestLcd enabled).2) := by
  cases enabled with
  | false => exact requested_of_eq rfl
  | true => exact requested_request s .lcd

theorem requested_updateRenderStateStatus (s : Bus) (state : RenderState) :
    Requested s (s.updateRenderStateStatus state) [] :=
  requested_setIo s _ (by decide) _

theorem requested_setScanline (s : Bus) (line : UInt8) : Requested s (s.setScanline line) [] :=
  requested_setIo s _ (by decide) _

theorem requested_startHBlank (s : Bus) :
    Requested s s.startHBlank.1 (requests s.startHBlank.2) := by
  unfold startHBlank
  by_cases hm : s.renderMode = RenderState.hblank.toByte
  · rw [if_neg (not_not.mpr hm)]
    exact requested_of_eq rfl
  · rw [if_pos hm]
    by_cases hv : s.renderMode = RenderState.vblank.toByte
    · simp only [if_pos hv]
      have hline := (requested_setScanline s 0).trans
        (requested_requestLcd _ (s.setScanline 0).isHBlankInterruptEnabled)
      exact hline.quiet (requested_updateRenderStateStatus _ .hblank)
    · simp only [if_neg hv]
      have hlcd := requested_requestLcd s s.isHBlankInterruptEnabled
      exact hlcd.quiet (requested_updateRenderStateStatus _ .hblank)

theorem requested_handleHBlank (s : Bus) :
    Requested s s.handleHBlank.1 (requests s.handleHBlank.2) := by
  have hstart := s.requested_startHBlank
  obtain ⟨_, _, _, _, hdraw⟩ := s.startHBlank.1.updateScreen_drawn
  simp only [handleHBlank]
  split_ifs
  · exact hstart
  · have hscreen : Requested s.startHBlank.1 s.startHBlank.1.updateScreen [] :=
      requested_of_eq (by rw [hdraw])
    rw [requests_append]
    exact (hstart.quiet hscreen).trans (requested_setScanline _ _)

theorem requested_startVBlank (s : Bus) :
    Requested s s.startVBlank.1 (requests s.startVBlank.2) := by
  unfold startVBlank
  by_cases hm : s.renderMode = RenderState.vblank.toByte
  · rw [if_neg (not_not.mpr hm)]
    exact requested_of_eq rfl
  · rw [if_pos hm]
    have hlcd := requested_requestLcd s s.isVBlankInterruptEnabled
    have hvblank := hlcd.trans (requested_request _ .vblank)
    simp only [requests_append]
    exact hvblank.quiet (requested_updateRenderStateStatus _ .vblank)

theorem requested_handleVBlank (s : Bus) (ticks : UInt8) :
    Requested s (s.handleVBlank ticks).1 (requests (s.handleVBlank ticks).2) := by
  have hstart := s.requested_startVBlank
  have hvscan : ∀ n, Requested s.startVBlank.1 (s.startVBlank.1.setVscan n) [] :=
    fun _ => requested_of_eq rfl
  simp only [handleVBlank]
  split_ifs
  · exact (hstart.quiet (hvscan _)).quiet (requested_setScanline _ _)
  · exact hstart.quiet (hvscan _)

theorem requested_handle (s : Bus) (ticks : UInt8) :
    Requested s (s.handle ticks).1 (requests (s.handle ticks).2) := by
  unfold handle
  cases s.gpu.state with
  | hblank => exact s.requested_handleHBlank
  | vblank => exact s.requested_handleVBlank ticks
  | oam =>
    simp only [handleOAM]
    split_ifs
    · have hlcd := requested_requestLcd s s.isOAMInterruptEnabled
      exact hlcd.quiet (requested_updateRenderStateStatus _ .oam)
    · exact requested_of_eq rfl
  | vram =>
    simp only [handleVRAM]
    split_ifs
    · exact requested_updateRenderStateStatus s .vram
    · exact requested_of_eq rfl

theorem requests_next (s : Bus) : requests s.next.2 = [] := by
  have hleave : ∀ (period : Nat) (new : RenderState), requests (s.leave period new).2 = [] := by
    intro period new
    unfold leave
    split_ifs <;> rfl
  unfold next
  cases s.gpu.state <;> exact hleave _ _

theorem requested_gpu (s : Bus) (ticks : UInt8) :
    Requested s (s.cycle ticks).1 (requests (s.cycle ticks).2) := by
  simp only [cycle]
  split_ifs
  · exact requested_of_eq rfl
  · set t := s.setTicks (s.gpu.ticks + ticks.toNat)
    have hnext : Requested (t.handle ticks).1 (t.handle ticks).1.next.1 [] :=
      requested_of_eq (congrFun (next_io _) _)
    have hhandle : Requested s (t.handle ticks).1 (requests (t.handle ticks).2) :=
      requested_handle t ticks
    show Requested s _ (requests ((t.handle ticks).2 ++ (t.handle ticks).1.next.2))
    rw [requests_append, requests_next]
    exact hhandle.trans hnext

/-! ## The joypad and the link -/

theorem requested_joypad (j : JoyPad) (s : Bus) : Requested s (j.cycle s) [] :=
  requested_setIo s _ (by decide) _

section Link

variable {guarded write : Bus → UInt16 → UInt8 → Except Fault Bus}
  (hw : ∀ s a v, Follows (fun s' => Requested s s' []) (guarded s a v) (write s a v))

include hw

theorem follows_finishTransfer (data : UInt8) {s : Bus} {x : Bus × List Interrupt}
    (hx : Requested s x.1 x.2) :
    Follows (fun y => Requested s y.1 y.2) (finishTransfer guarded data x)
      (finishTransfer write data x) := by
  refine (hw x.1 serialDataAddress data).map fun t ht => ?_
  have hcontrol := requested_setIo t serialControlAddress (by decide)
    (t.io serialControlAddress &&& ~~~ConsoleLink.linkTransfer)
  exact hx.trans (ht.trans (hcontrol.trans (requested_request _ .serial)))

theorem follows_cycleLink_requested (answer : LinkThread) (ticks : UInt8) (s : Bus) :
    Follows (fun y => Requested s y.1 y.2) (s.cycleLink guarded answer ticks)
      (s.cycleLink write answer ticks) :=
  follows_cycleLink (fun _ _ hx => hx) (fun data _ hx => follows_finishTransfer hw data hx) answer
    ticks (requested_of_eq rfl)

end Link

end Bus

end GbEmu
