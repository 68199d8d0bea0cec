import GbEmu.Gpu.Timing
import GbEmu.Interrupt.Requests

/-!
The events of a call of `GPU::cycle` are what the call has done: the line that it has
drawn into the buffer, the bit that it has set in IF, the buffer that it has made the
screen and the state that it has entered.
-/

namespace GbEmu

open Gpu

namespace Bus

/-- `t` shows the same as `s`: only STAT, LY, IF and `m_ticks` may differ. -/
def SameDisplay (s t : Bus) : Prop :=
  SameRegisters s t ∧ t = { s with io := t.io, gpu := { s.gpu with ticks := t.gpu.ticks } }

/-- The events `es` of a call in `s` and the state `s'` after it: exactly where the events
say so, a line is drawn into the buffer, the vblank's bit of IF is set, the buffer becomes
the screen and `m_state` changes. -/
structure Happened (s s' : Bus) (es : List Event) : Prop where
  drawn : ∀ line, .updateScreen line ∈ es → ∃ t, SameDisplay s t ∧ t.scanline.toNat = line ∧
    s'.gpu.buffer = t.updateScreen.gpu.buffer
  published : .publish ∈ es → s'.gpu.screen = s.gpu.buffer ∧ s'.gpu.buffer = fun _ => noColor
  requested : BitField.bit (s'.io interruptFlagsAddress) Interrupt.vblank.bit =
    (BitField.bit (s.io interruptFlagsAddress) Interrupt.vblank.bit ||
      decide (.interrupt .vblank ∈ es))
  entered : ∀ old new, .next old new ∈ es → s.gpu.state = old ∧ s'.gpu.state = new
  screen_kept : .publish ∉ es → s'.gpu.screen = s.gpu.screen
  buffer_kept : .publish ∉ es → (∀ line, .updateScreen line ∉ es) → s'.gpu.buffer = s.gpu.buffer
  state_kept : (∀ old new, .next old new ∉ es) → s'.gpu.state = s.gpu.state

/-- What `handle` can do: at most the LCD interrupt is requested before a line is drawn
or a frame is published. -/
inductive Handled (s : Bus) : List Event → Bus → Prop
  | quiet (es : List Event) (t : Bus) (hes : ∀ e ∈ es, e = .interrupt .lcd)
      (ht : t.gpu = { s.gpu with vscan := t.gpu.vscan }) : Handled s es t
  | line (es : List Event) (t : Bus) (value : UInt8) (hes : ∀ e ∈ es, e = .interrupt .lcd)
      (ht : SameRegisters s t) (hio : t = { s with io := t.io }) :
      Handled s (es ++ [.updateScreen t.scanline.toNat]) (t.updateScreen.setScanline value)
  | frame (es : List Event) (t : Bus) (hes : ∀ e ∈ es, e = .interrupt .lcd)
      (ht : t.gpu = { s.gpu with
        screen := s.gpu.buffer
        buffer := fun _ => noColor
        vscan := t.gpu.vscan }) :
      Handled s (es ++ [.interrupt .vblank, .publish]) t

theorem requestLcd_quiet (s : Bus) (enabled : Bool) :
    (∀ e ∈ (s.requestLcd enabled).2, e = .interrupt .lcd) ∧
      (s.requestLcd enabled).1 = { s with io := (s.requestLcd enabled).1.io } := by
  cases enabled with
  | false => exact ⟨by simp [requestLcd], rfl⟩
  | true => exact ⟨by simp [requestLcd], rfl⟩

theorem startHBlank_quiet (s : Bus) :
    (∀ e ∈ s.startHBlank.2, e = .interrupt .lcd) ∧
      s.startHBlank.1 = { s with io := s.startHBlank.1.io } := by
  unfold startHBlank
  by_cases hm : s.renderMode = RenderState.hblank.toByte
  · rw [if_neg (not_not.mpr hm)]
    exact ⟨by simp, rfl⟩
  · rw [if_pos hm]
    have hlcd := fun t : Bus => t.requestLcd_quiet t.isHBlankInterruptEnabled
    by_cases hv : s.renderMode = RenderState.vblank.toByte
    · simp only [if_pos hv]
      obtain ⟨hes, ht⟩ := hlcd (s.setScanline 0)
      refine ⟨hes, ?_⟩
      rw [ht]
      rfl
    · simp only [if_neg hv]
      obtain ⟨hes, ht⟩ := hlcd s
      refine ⟨hes, ?_⟩
      rw [ht]
      rfl

theorem handled_hblank (s : Bus) : Handled s s.handleHBlank.2 s.handleHBlank.1 := by
  obtain ⟨hes, ht⟩ := s.startHBlank_quiet
  simp only [handleHBlank]
  split_ifs
  · refine .quiet _ _ hes ?_
    rw [ht]
  · exact .line _ _ _ hes s.startHBlank_same ht

/-- The first call in a vblank publishes the buffer, whatever is counted after it. -/
theorem handled_startVBlank {s t : Bus}
    (ht : t.gpu = { s.startVBlank.1.gpu with vscan := t.gpu.vscan }) :
    Handled s s.startVBlank.2 t := by
  unfold startVBlank at ht ⊢
  by_cases hm : s.renderMode = RenderState.vblank.toByte
  · rw [if_neg (not_not.mpr hm)] at ht ⊢
    exact .quiet _ _ (by simp) ht
  · rw [if_pos hm] at ht ⊢
    obtain ⟨hes, hio⟩ := s.requestLcd_quiet s.isVBlankInterruptEnabled
    refine .frame _ _ hes (ht.trans ?_)
    dsimp only
    rw [hio]
    rfl

theorem handled_vblank (s : Bus) (ticks : UInt8) :
    Handled s (s.handleVBlank ticks).2 (s.handleVBlank ticks).1 := by
  simp only [handleVBlank]
  split_ifs
  · exact handled_startVBlank rfl
  · exact handled_startVBlank rfl

theorem handled (s : Bus) (ticks : UInt8) : Handled s (s.handle ticks).2 (s.handle ticks).1 := by
  unfold handle
  cases s.gpu.state with
  | hblank => exact s.handled_hblank
  | vblank => exact s.handled_vblank ticks
  | oam =>
    unfold handleOAM
    split_ifs
    · obtain ⟨hes, hio⟩ := s.requestLcd_quiet s.isOAMInterruptEnabled
      refine .quiet _ _ hes ?_
      dsimp only
      rw [hio]
      rfl
    · exact .quiet _ _ (by simp) rfl
  | vram =>
    unfold handleVRAM
    split_ifs
    · exact .quiet _ _ (by simp) rfl
    · exact .quiet _ _ (by simp) rfl

theorem next_leave (s : Bus) : ∃ period new, s.next = s.leave period new := by
  unfold next
  cases s.gpu.state <;> exact ⟨_, _, rfl⟩

/-- `m_state = next()` says where it goes. -/
theorem next_shown (s : Bus) : (s.next.2 = [] ∧ s.next.1 = s) ∨
    ∃ n new, s.next.2 = [.next s.gpu.state new] ∧
      s.next.1 = { s with gpu := { s.gpu with ticks := n, state := new } } := by
  obtain ⟨period, new, hnext⟩ := s.next_leave
  rw [hnext]
  unfold leave
  split_ifs
  · exact .inl ⟨rfl, rfl⟩
  · exact .inr ⟨_, _, rfl, rfl⟩

/-- What `next` does to the pictures and the state. -/
theorem next_kept (s : Bus) :
    s.next.1.gpu.screen = s.gpu.screen ∧ s.next.1.gpu.buffer = s.gpu.buffer ∧
      (∀ e ∈ s.next.2, e = .next s.gpu.state s.next.1.gpu.state) ∧
      (s.next.2 = [] → s.next.1.gpu.state = s.gpu.state) := by
  rcases s.next_shown with ⟨hes, ht⟩ | ⟨n, new, hes, ht⟩
  · rw [hes, ht]
    exact ⟨rfl, rfl, by simp, fun _ => rfl⟩
  · rw [hes, ht]
    exact ⟨rfl, rfl, by simp, by simp⟩

theorem mem_requests {es : List Event} {i : Interrupt} :
    i ∈ requests es ↔ .interrupt i ∈ es := by
  unfold requests
  rw [List.mem_filterMap]
  constructor
  · rintro ⟨e, he, hi⟩
    cases e with
    | interrupt j =>
      obtain rfl : j = i := Option.some.inj hi
      exact he
    | _ => cases hi
  · exact fun he => ⟨_, he, rfl⟩

theorem Handled.no_next {s t : Bus} {es : List Event} (h : Handled s es t) (old new : RenderState) :
    .next old new ∉ es := by
  intro hmem
  cases h with
  | quiet _ _ hes => cases hes _ hmem
  | line _ _ _ hes =>
    rcases List.mem_append.mp hmem with he | he
    · cases hes _ he
    · simp at he
  | frame _ _ hes =>
    rcases List.mem_append.mp hmem with he | he
    · cases hes _ he
    · simp at he

theorem Handled.happened {s t : Bus} {es : List Event} (h : Handled s es t)
    (hflags : Requested s t (requests es)) : Happened s t es := by
  have hno := h.no_next
  have hflag := hflags.bit .vblank
  simp only [mem_requests] at hflag
  have hquiet : ∀ {fs : List Event} {e : Event}, (∀ e ∈ fs, e = .interrupt .lcd) →
      e ≠ .interrupt .lcd → e ∉ fs := fun hes hne he => hne (hes _ he)
  cases h with
  | quiet _ _ hes ht =>
    have hnone : .publish ∉ es := hquiet hes (by simp)
    refine ⟨fun line he => absurd he (hquiet hes (by simp)), fun he => absurd he hnone, hflag,
      fun old new he => absurd he (hno old new), ?_, ?_, ?_⟩
    all_goals
      intros
      rw [ht]
  | line fs u value hes hsame hio =>
    obtain ⟨_, _, _, _, hdraw⟩ := u.updateScreen_drawn
    have hgpu : u.gpu = s.gpu := by rw [hio]
    refine ⟨fun line he => ⟨u, ⟨hsame, ?_⟩, ?_, rfl⟩, fun he => ?_, hflag,
      fun old new he => absurd he (hno old new), fun _ => ?_, fun _ hnone => ?_, fun _ => ?_⟩
    · rw [hgpu]
      exact hio
    · rcases List.mem_append.mp he with he | he
      · cases hes _ he
      · simpa using (List.mem_singleton.mp he).symm
    · rcases List.mem_append.mp he with he | he
      · cases hes _ he
      · simp at he
    · show u.updateScreen.gpu.screen = s.gpu.screen
      rw [hdraw, ← hgpu]
    · exact absurd (List.mem_append_right fs (List.mem_singleton_self _)) (hnone _)
    · show u.updateScreen.gpu.state = s.gpu.state
      rw [hdraw, ← hgpu]
  | frame fs _ hes ht =>
    have hpublish : Event.publish ∈ fs ++ [.interrupt .vblank, .publish] := by simp
    refine ⟨fun line he => ?_, fun _ => ?_, hflag, fun old new he => absurd he (hno old new),
      fun hnone => absurd hpublish hnone, fun hnone => absurd hpublish hnone, fun _ => ?_⟩
    · rcases List.mem_append.mp he with he | he
      · cases hes _ he
      · simp at he
    · rw [ht]
      exact ⟨rfl, rfl⟩
    · rw [ht]

/-- The change of state at the end of a call. -/
theorem Happened.next {s t : Bus} {es : List Event} (h : Happened s t es)
    (hno : ∀ old new, .next old new ∉ es) : Happened s t.next.1 (es ++ t.next.2) := by
  obtain ⟨hscreen, hbuffer, hleft, hnil⟩ := t.next_kept
  have hmem : ∀ e : Event, (∀ old new, e ≠ .next old new) → (e ∈ es ++ t.next.2 ↔ e ∈ es) := by
    intro e hne
    rw [List.mem_append]
    exact ⟨fun he => he.elim id fun he => absurd (hleft e he) (hne _ _), .inl⟩
  have hstate := h.state_kept hno
  refine ⟨fun line he => ?_, fun he => ?_, ?_, fun old new he => ?_, fun he => ?_, fun he hd => ?_,
    fun hn => ?_⟩
  · rw [hbuffer]
    exact h.drawn line ((hmem _ (by simp)).mp he)
  · rw [hscreen, hbuffer]
    exact h.published ((hmem _ (by simp)).mp he)
  · rw [next_io, h.requested]
    simp only [hmem _ (show ∀ old new, Event.interrupt .vblank ≠ .next old new by simp)]
  · rcases List.mem_append.mp he with he | he
    · exact absurd he (hno old new)
    · have heq := hleft _ he
      injection heq with hold hnew
      exact ⟨(hold.trans hstate).symm, hnew.symm⟩
  · rw [hscreen]
    exact h.screen_kept fun hp => he ((hmem _ (by simp)).mpr hp)
  · rw [hbuffer]
    exact h.buffer_kept (fun hp => he ((hmem _ (by simp)).mpr hp))
      fun line hl => hd line ((hmem _ (by simp)).mpr hl)
  · rw [← hstate]
    refine hnil (List.eq_nil_iff_forall_not_mem.mpr fun e he => ?_)
    have hlast := hleft e he
    subst hlast
    exact hn _ _ (List.mem_append_right es he)

theorem cycle_on (s : Bus) (ticks : UInt8) (hon : s.isDisplayEnabled = true) :
    s.cycle ticks =
      (((s.setTicks (s.gpu.ticks + ticks.toNat)).handle ticks).1.next.1,
        .ticks ticks.toNat :: (((s.setTicks (s.gpu.ticks + ticks.toNat)).handle ticks).2 ++
          ((s.setTicks (s.gpu.ticks + ticks.toNat)).handle ticks).1.next.2)) := by
  simp only [cycle, hon, Bool.not_true, Bool.false_eq_true, if_false]

/-- **A call does what its events say.** -/
theorem cycle_happened (s : Bus) (ticks : UInt8) :
    Happened s (s.cycle ticks).1 (s.cycle ticks).2 := by
  by_cases hon : s.isDisplayEnabled = true
  · have hhandled := (s.setTicks (s.gpu.ticks + ticks.toNat)).handled ticks
    have h := (hhandled.happened (requested_handle _ ticks)).next hhandled.no_next
    rw [s.cycle_on ticks hon]
    refine ⟨fun line he => ?_, fun he => h.published (by simpa using he), ?_,
      fun old new he => h.entered old new (by simpa using he),
      fun he => h.screen_kept (by simpa using he),
      fun he hd => h.buffer_kept (by simpa using he) (by simpa using hd),
      fun hn => h.state_kept (by simpa using hn)⟩
    · obtain ⟨t, ⟨hsame, hio⟩, hline, hbuffer⟩ := h.drawn line (by simpa using he)
      exact ⟨t, ⟨hsame, hio⟩, hline, hbuffer⟩
    · refine h.requested.trans ?_
      simp only [List.mem_cons, reduceCtorEq, false_or]
      rfl
  · rw [s.cycle_off ticks (by simpa using hon)]
    exact ⟨by simp, by simp, by simp, by simp, fun _ => rfl, fun _ _ => rfl, fun _ => rfl⟩

/-- A call that changes the state logs the change last. -/
theorem cycle_last {s : Bus} {ticks : UInt8} {old new : RenderState} (hs : s.gpu.state = old)
    (hs' : (s.cycle ticks).1.gpu.state = new) (hne : old ≠ new) :
    ∃ before, (s.cycle ticks).2 = before ++ [.next old new] := by
  by_cases hon : s.isDisplayEnabled = true
  · have hhandled := (s.setTicks (s.gpu.ticks + ticks.toNat)).handled ticks
    have hstate := (hhandled.happened (requested_handle _ ticks)).state_kept hhandled.no_next
    rw [s.cycle_on ticks hon] at hs' ⊢
    generalize (s.setTicks (s.gpu.ticks + ticks.toNat)).handle ticks = x at hstate hs' ⊢
    have hold : x.1.gpu.state = old := hstate.trans hs
    rcases x.1.next_shown with ⟨-, ht⟩ | ⟨n, new', hes, ht⟩
    · rw [ht, hold] at hs'
      exact absurd hs' hne
    · rw [ht] at hs'
      obtain rfl : new' = new := hs'
      refine ⟨.ticks ticks.toNat :: x.2, ?_⟩
      rw [hes, hold]
      rfl
  · rw [s.cycle_off ticks (by simpa using hon), hs] at hs'
    exact absurd hs' hne

end Bus

end GbEmu
