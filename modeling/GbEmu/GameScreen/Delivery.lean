import GbEmu.GameScreen
import GbEmu.Lib.Run

/-!
The requests of a page against the transitions that it has taken. A busy screen has one
request in flight and the rest in its queue; `_init` forgets both, so what is queued when
it runs is lost, and what is taken before the old request has ended overtakes the queue.
-/

namespace GbEmu

/-! ## Handlers -/

namespace GameScreen

variable {s : GameScreen} {polarity : EventType} {code : Option Key} {m : Message}

theorem onKeyPress_ignored (h : s.accepts polarity code = none) :
    s.onKeyPress polarity code = (s, none) := by
  unfold accepts at h
  unfold onKeyPress
  cases code with
  | none => exact ite_self _
  | some key =>
    by_cases hconnected : s.connected = false
    · exact if_pos hconnected
    · rw [if_neg hconnected]
      have hsame : s.keypress key = polarity := by
        by_contra hchange
        rw [Bool.not_eq_false] at hconnected
        cases h.symm.trans (if_pos ⟨hconnected, hchange⟩)
      exact if_pos hsame

/-- A transition that is taken is queued by a busy screen and sent by an idle one. -/
theorem onKeyPress_accepted (h : s.accepts polarity code = some m) :
    ∃ keypress, s.onKeyPress polarity code =
      if s.busy then ({ s with queue := s.queue ++ [m], keypress := keypress }, none)
      else ({ s with busy := true, keypress := keypress }, some m) := by
  unfold accepts at h
  cases code with
  | none => cases h
  | some key =>
    simp only at h
    split_ifs at h with htaken
    obtain ⟨hconnected, hchange⟩ := htaken
    obtain rfl := Option.some.inj h
    have hnot : ¬ s.connected = false := fun hfalse => absurd (hconnected.symm.trans hfalse) nofun
    refine ⟨Function.update s.keypress key polarity, ?_⟩
    unfold onKeyPress
    rw [if_neg hnot]
    exact (if_neg hchange).trans (if_neg hnot)

end GameScreen

namespace Page

theorem step_timeout (p : Page) :
    p.step .timeout =
      if p.timers = 0 then p else { p with screen := p.screen.init, timers := p.timers - 1 } := rfl

theorem step_loadend (p : Page) (request : Nat) :
    p.step (.loadend request) =
      if request < p.inFlight.length then
        ({ p with screen := p.screen.loadend.1, inFlight := p.inFlight.eraseIdx request }).send
          p.screen.loadend.2
      else p := rfl

/-! ## Delivery -/

/-- The page after a number of requests have ended, one behind the other. -/
def ends (p : Page) (n : Nat) : Page := (List.replicate n (.loadend 0)).foldl step p

/-- No two requests at a time, and the transitions in order, none twice and none left out
but those that are still queued, which the ends of requests send one by one. -/
structure Delivered (p : Page) : Prop where
  single : p.inFlight.length ≤ 1
  ordered : p.issued <+: p.accepted
  complete : p.screen.queue = [] → p.issued = p.accepted
  drains : (p.ends p.screen.queue.length).issued = p.accepted

/-- What a screen that has not lost anything looks like. -/
inductive Clean (p : Page) : Prop
  | sending (busy : p.screen.busy = true) (single : p.inFlight.length = 1)
      (accepted : p.accepted = p.issued ++ p.screen.queue)
  | idle (idle : p.screen.busy = false) (single : p.inFlight.length ≤ 1)
      (queue : p.screen.queue = []) (accepted : p.accepted = p.issued)

/-- A timeout while transitions are queued, or a transition that is taken while a request
from before the last timeout is in flight. -/
def Forgets (p : Page) : Event → Prop
  | .timeout => 0 < p.timers ∧ p.screen.queue ≠ []
  | .key polarity code =>
    p.screen.accepts polarity code ≠ none ∧ p.screen.busy = false ∧ p.inFlight ≠ []
  | _ => False

theorem clean_start : Clean start := .idle rfl (Nat.zero_le 1) rfl rfl

variable {p : Page}

theorem complete_of_clean (h : Clean p) (hqueue : p.screen.queue = []) : p.issued = p.accepted := by
  cases h with
  | sending _ _ haccepted => rw [haccepted, hqueue, List.append_nil]
  | idle _ _ _ haccepted => exact haccepted.symm

theorem clean_loadend (h : Clean p) (request : Nat) : Clean (p.step (.loadend request)) := by
  rw [step_loadend]
  by_cases hrequest : request < p.inFlight.length
  · rw [if_pos hrequest]
    cases h with
    | sending hbusy hsingle haccepted =>
      have hnone : p.inFlight.eraseIdx request = [] :=
        List.length_eq_zero_iff.mp (by rw [List.length_eraseIdx_of_lt hrequest, hsingle])
      cases hqueue : p.screen.queue with
      | nil =>
        rw [hqueue, List.append_nil] at haccepted
        simp only [GameScreen.loadend, hqueue, send, hnone, Option.toList_none, List.append_nil]
        exact .idle rfl (Nat.zero_le 1) rfl haccepted
      | cons next queue =>
        simp only [GameScreen.loadend, hqueue, send, hnone, Option.toList_some, List.nil_append]
        refine .sending hbusy rfl ?_
        rw [haccepted, hqueue, List.append_assoc]
        rfl
    | idle _ hsingle hqueue haccepted =>
      simp only [GameScreen.loadend, hqueue, send, Option.toList_none, List.append_nil]
      refine .idle rfl ?_ rfl haccepted
      rw [List.length_eraseIdx_of_lt hrequest]
      exact (Nat.sub_le _ 1).trans hsingle
  · rw [if_neg hrequest]
    exact h

/-- The end of a request sends the next transition of the queue. -/
theorem queue_loadend (h : Clean p) {next : Message} {queue : List Message}
    (hqueue : p.screen.queue = next :: queue) :
    (p.step (.loadend 0)).screen.queue = queue ∧ (p.step (.loadend 0)).accepted = p.accepted := by
  cases h with
  | sending _ hsingle _ =>
    have hrequest : 0 < p.inFlight.length := hsingle ▸ Nat.one_pos
    rw [step_loadend, if_pos hrequest]
    simp only [GameScreen.loadend, hqueue]
    exact ⟨rfl, rfl⟩
  | idle _ _ hempty _ => exact absurd (hempty.symm.trans hqueue) (List.cons_ne_nil next queue).symm

theorem drains_of_clean (h : Clean p) : (p.ends p.screen.queue.length).issued = p.accepted := by
  induction hqueue : p.screen.queue generalizing p with
  | nil => exact complete_of_clean h hqueue
  | cons next queue ih =>
    obtain ⟨hrest, haccepted⟩ := queue_loadend h hqueue
    have hdrains := ih (clean_loadend h 0) hrest
    rw [haccepted] at hdrains
    exact hdrains

theorem delivered_of_clean (h : Clean p) : Delivered p := by
  refine ⟨?_, ?_, complete_of_clean h, drains_of_clean h⟩
  · cases h with
    | sending _ hsingle _ => exact hsingle.le
    | idle _ hsingle _ _ => exact hsingle
  · cases h with
    | sending _ _ haccepted => exact ⟨p.screen.queue, haccepted.symm⟩
    | idle _ _ _ haccepted => exact ⟨[], by rw [List.append_nil, haccepted]⟩

/-! ## Steps -/

theorem clean_timeout (h : Clean p) (hgood : ¬ Forgets p .timeout) : Clean (p.step .timeout) := by
  rw [step_timeout]
  by_cases htimers : p.timers = 0
  · rw [if_pos htimers]
    exact h
  · rw [if_neg htimers]
    have hqueue : p.screen.queue = [] := by
      by_contra hqueue
      exact hgood ⟨Nat.pos_of_ne_zero htimers, hqueue⟩
    exact .idle rfl (delivered_of_clean h).single rfl (complete_of_clean h hqueue).symm

theorem not_delivered_timeout (h : Clean p) (hbad : Forgets p .timeout) :
    ¬ Delivered (p.step .timeout) := by
  obtain ⟨htimers, hqueue⟩ := hbad
  rw [step_timeout, if_neg htimers.ne']
  intro hdelivered
  have hcomplete : p.issued = p.accepted := hdelivered.complete rfl
  cases h with
  | sending _ _ haccepted => exact hqueue (List.self_eq_append_right.mp (hcomplete.trans haccepted))
  | idle _ _ hempty _ => exact hqueue hempty

theorem step_ignored {polarity : EventType} {code : Option Key}
    (h : p.screen.accepts polarity code = none) : p.step (.key polarity code) = p := by
  simp [step, send, GameScreen.onKeyPress_ignored h, h]

theorem clean_key {polarity : EventType} {code : Option Key} (h : Clean p)
    (hgood : ¬ Forgets p (.key polarity code)) : Clean (p.step (.key polarity code)) := by
  cases haccepts : p.screen.accepts polarity code with
  | none => exact (step_ignored haccepts).symm ▸ h
  | some m =>
    obtain ⟨keypress, hkey⟩ := GameScreen.onKeyPress_accepted haccepts
    cases h with
    | sending hbusy hsingle haccepted =>
      rw [if_pos hbusy] at hkey
      simp only [step, send, hkey, haccepts, Option.toList_some, Option.toList_none,
        List.append_nil]
      refine .sending hbusy hsingle ?_
      rw [haccepted, List.append_assoc]
    | idle hidle hsingle hqueue haccepted =>
      have hnone : p.inFlight = [] := by
        by_contra hflight
        exact hgood ⟨by rw [haccepts]; exact Option.some_ne_none m, hidle, hflight⟩
      rw [if_neg (by rw [hidle]; exact Bool.false_ne_true)] at hkey
      simp only [step, send, hkey, haccepts, Option.toList_some, hnone, List.nil_append]
      refine .sending rfl rfl ?_
      rw [haccepted, hqueue, List.append_nil]

theorem not_delivered_key {polarity : EventType} {code : Option Key}
    (hbad : Forgets p (.key polarity code)) : ¬ Delivered (p.step (.key polarity code)) := by
  obtain ⟨haccepts, hidle, hflight⟩ := hbad
  obtain ⟨m, haccepts⟩ := Option.ne_none_iff_exists'.mp haccepts
  obtain ⟨keypress, hkey⟩ := GameScreen.onKeyPress_accepted haccepts
  rw [if_neg (by rw [hidle]; exact Bool.false_ne_true)] at hkey
  intro hdelivered
  have hsingle := hdelivered.single
  simp only [step, send, hkey, Option.toList_some, List.length_append] at hsingle
  have hold := List.length_pos_of_ne_nil hflight
  exact absurd (Nat.add_le_add_right hold 1) (Nat.not_le.mpr (Nat.lt_succ_of_le hsingle))

theorem clean_socket (h : Clean p) (connected : Bool) (timers : Nat) :
    Clean { p with screen := { p.screen with connected := connected }, timers := timers } := by
  cases h with
  | sending hbusy hsingle haccepted => exact .sending hbusy hsingle haccepted
  | idle hidle hsingle hqueue haccepted => exact .idle hidle hsingle hqueue haccepted

theorem clean_step (h : Clean p) {e : Event} (hgood : ¬ Forgets p e) : Clean (p.step e) := by
  cases e with
  | socketOpen => exact clean_socket h true p.timers
  | socketClose => exact clean_socket h false p.timers
  | socketError => exact clean_socket h false (p.timers + 1)
  | timeout => exact clean_timeout h hgood
  | key polarity code => exact clean_key h hgood
  | loadend request => exact clean_loadend h request

theorem not_delivered_step (h : Clean p) {e : Event} (hbad : Forgets p e) :
    ¬ Delivered (p.step e) := by
  cases e with
  | timeout => exact not_delivered_timeout h hbad
  | key polarity code => exact not_delivered_key hbad
  | _ => exact hbad.elim

/-- Whatever happens in whatever order, the transitions are delivered all along exactly if
no reconnection comes between a transition and the end of its request. -/
theorem delivered_iff (events : List Event) :
    (∀ before after, events = before ++ after → Delivered (before.foldl step start)) ↔
      ∀ before e after, events = before ++ e :: after → ¬ Forgets (before.foldl step start) e := by
  refine Run.foldl_holds_iff (I := fun p => Delivered p → Clean p) (fun p e hclean hdelivered => ?_)
    (fun _ => clean_start) (delivered_of_clean clean_start) events
  have h := hclean hdelivered
  have hgood : Delivered (p.step e) → ¬ Forgets p e := fun hnext hbad =>
    not_delivered_step h hbad hnext
  exact ⟨fun hnext => clean_step h (hgood hnext), hgood,
    fun hgood => delivered_of_clean (clean_step h hgood)⟩

/-- The release of B is queued when the socket fails, and `_init` loses it. -/
theorem release_lost :
    ¬ ∀ before after,
      [Event.socketOpen, .key .keyDown (some .keyB), .key .keyUp (some .keyB), .socketError,
        .socketClose, .timeout] = before ++ after → Delivered (before.foldl step start) := by
  intro h
  have hlost := (h _ [] (List.append_nil _).symm).complete rfl
  exact absurd hlost (by decide)

end Page

end GbEmu
