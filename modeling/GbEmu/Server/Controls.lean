import GbEmu.GameScreen.Delivery
import GbEmu.Server.Framing

/-!
A page and the server that it plays on: the key events of the page, the requests that
they become, the bytes of these as the server reads them, the joypad, and the register
that the guest reads.
-/

namespace GbEmu

open Text GameServer JoyPad BitField GbEmu.Configuration

/-! ## Requests -/

namespace Message

/-- The request line, with the path below the root of the server. -/
def requestLine (m : Message) : Line := ascii "GET /" ++ m.path ++ ascii " HTTP/1.1"

/-- What the browser writes, with the header lines of its own. -/
def request (m : Message) (headers : List Line) : List UInt8 :=
  (m.requestLine :: headers).flatMap (· ++ crlf) ++ crlf

/-- The code that the page has for a key. -/
def For (m : Message) (key : Key) : Prop := m.data = gameKeyMap key

instance (m : Message) (key : Key) : Decidable (m.For key) :=
  inferInstanceAs (Decidable (m.data = gameKeyMap key))

end Message

instance (stream : List UInt8) (reads : List (List UInt8)) : Decidable (Cut stream reads) :=
  decidable_of_iff
    (reads.flatten = stream ∧ ∀ read ∈ reads, read ≠ [] ∧ read.length ≤ recvBufferSize)
    ⟨fun h => ⟨h.1, h.2⟩, fun h => ⟨h.whole, h.sizes⟩⟩

/-! ## The page and the server -/

structure Play where
  page : Page
  console : JoyPad
  /-- For each request in flight, whether the server has answered it. -/
  answered : List Bool
  /-- The answered requests. -/
  handled : List Message

namespace Play

inductive Event
  /-- An event of the page; a request ends when it has been answered. -/
  | page (e : Page.Event)
  /-- A request reaches the server, which reads it in pieces. On a connection that is kept
  open it comes to the same, since `http` begins anew with each request. -/
  | answer (request : Nat) (headers : List Line) (reads : List (List UInt8))

def start : Play := { page := .start, console := released, answered := [], handled := [] }

/-- New requests have not been answered. -/
def withPage (g : Play) (page : Page) (answered : List Bool) : Play :=
  { g with
    page := page
    answered := answered ++ List.replicate (page.inFlight.length - answered.length) false }

def step (files : Files) (g : Play) : Event → Option Play
  | .page (.loadend request) =>
    if g.answered[request]? = some true then
      some (g.withPage (g.page.step (.loadend request)) (g.answered.eraseIdx request))
    else none
  | .page e => some (g.withPage (g.page.step e) g.answered)
  | .answer request headers reads =>
    match g.page.inFlight[request]? with
    | none => none
    | some m =>
      if g.answered[request]? = some false ∧
          (∀ line ∈ headers, newline ∉ line ∧ line ≠ []) ∧ Cut (m.request headers) reads then
        some { g with
          console := (http files g.console reads).console
          answered := g.answered.set request true
          handled := g.handled ++ [m] }
      else none

/-- The requests in flight that have not been answered. -/
def unanswered : List Message → List Bool → List Message
  | m :: inFlight, answered :: rest =>
    if answered then unanswered inFlight rest else m :: unanswered inFlight rest
  | _, _ => []

/-- What the server has still to answer. -/
def waiting (g : Play) : List Message := unanswered g.page.inFlight g.answered

end Play

/-! ## The last transition of a key -/

/-- What the last of some messages says about a key, which is up at first. -/
def lastEvent (key : Key) (messages : List Message) : EventType :=
  messages.foldl (fun event m => if m.For key then m.event else event) .keyUp

theorem lastEvent_snoc (key : Key) (messages : List Message) (m : Message) :
    lastEvent key (messages ++ [m]) = if m.For key then m.event else lastEvent key messages := by
  rw [lastEvent, List.foldl_append]
  rfl

theorem gameKeyMap_injective {key other : Key} (h : gameKeyMap key = gameKeyMap other) :
    key = other := by
  cases key <;> cases other <;> first | rfl | exact absurd h (by decide)

theorem keyButton_injective {key other : Key} (h : keyButton key = keyButton other) :
    key = other := by
  cases key <;> cases other <;> first | rfl | cases h

/-! ## The page -/

namespace Page

/-- The transitions that a page has taken are of its keys, and `_keypress` has the last. -/
structure Keyed (p : Page) : Prop where
  keys : ∀ m ∈ p.accepted, ∃ key, m.For key
  last : ∀ key, p.screen.keypress key = lastEvent key p.accepted

theorem keyed_start : Keyed start where
  keys := fun _ h => absurd h List.not_mem_nil
  last := fun _ => rfl

variable {p : Page}

theorem keyed_key {polarity : EventType} {code : Option Key} (h : Keyed p) :
    Keyed (p.step (.key polarity code)) := by
  cases haccepts : p.screen.accepts polarity code with
  | none => exact (step_ignored haccepts).symm ▸ h
  | some m =>
    unfold GameScreen.accepts at haccepts
    cases code with
    | none => cases haccepts
    | some key =>
      simp only at haccepts
      split_ifs at haccepts with htaken
      obtain ⟨hconnected, hchange⟩ := htaken
      obtain rfl := Option.some.inj haccepts
      have hscreen : (p.screen.onKeyPress polarity (some key)).1.keypress =
          Function.update p.screen.keypress key polarity := by
        unfold GameScreen.onKeyPress GameScreen.sendEventMessage
        simp only [hconnected, hchange, Bool.true_eq_false, if_false]
        split_ifs <;> rfl
      have hlist : (p.step (.key polarity (some key))).accepted =
          p.accepted ++ [⟨polarity, gameKeyMap key⟩] := by
        simp only [step, send, GameScreen.accepts, if_pos (And.intro hconnected hchange),
          Option.toList_some]
      constructor
      · rw [hlist]
        intro m hm
        rcases List.mem_append.mp hm with hm | hm
        · exact h.keys m hm
        · exact ⟨key, congrArg Message.data (List.mem_singleton.mp hm)⟩
      · intro other
        rw [hlist, lastEvent_snoc]
        show (p.screen.onKeyPress polarity (some key)).1.keypress other = _
        rw [hscreen]
        by_cases hother : other = key
        · subst hother
          have hfor : Message.For ⟨polarity, gameKeyMap other⟩ other := rfl
          rw [Function.update_self, if_pos hfor]
        · have hfor : ¬ Message.For ⟨polarity, gameKeyMap key⟩ other := fun hfor =>
            hother (gameKeyMap_injective hfor).symm
          rw [Function.update_of_ne hother, if_neg hfor]
          exact h.last other

/-- The other handlers leave the keys alone. -/
theorem keyed_step (h : Keyed p) (e : Event) : Keyed (p.step e) := by
  cases e with
  | socketOpen | socketClose | socketError => exact ⟨h.keys, h.last⟩
  | timeout =>
    rw [step_timeout]
    split_ifs
    · exact h
    · exact ⟨h.keys, h.last⟩
  | key polarity code => exact keyed_key h
  | loadend request =>
    rw [step_loadend]
    split_ifs
    · have hkeypress : p.screen.loadend.1.keypress = p.screen.keypress := by
        unfold GameScreen.loadend
        split <;> rfl
      exact ⟨h.keys, fun key => (congrFun hkeypress key).trans (h.last key)⟩
    · exact h

/-- What an event of the page sends. -/
theorem step_sends (p : Page) {e : Event} (h : ∀ request, e ≠ .loadend request) :
    ∃ sent, (p.step e).inFlight = p.inFlight ++ sent ∧ (p.step e).issued = p.issued ++ sent := by
  cases e with
  | socketOpen | socketClose | socketError =>
    exact ⟨[], (List.append_nil _).symm, (List.append_nil _).symm⟩
  | timeout =>
    refine ⟨[], ?_, ?_⟩ <;>
    · rw [step_timeout, List.append_nil]
      split_ifs <;> rfl
  | key polarity code => exact ⟨_, rfl, rfl⟩
  | loadend request => exact absurd rfl (h request)

end Page

/-! ## A request -/

section Request

variable {m : Message} {key : Key} {headers : List Line} {reads : List (List UInt8)}

theorem requestLine_plain (hfor : m.For key) :
    newline ∉ m.requestLine ∧ m.requestLine ≠ [] := by
  obtain ⟨event, data⟩ := m
  obtain rfl : data = gameKeyMap key := hfor
  cases event <;> cases key <;> decide

/-- The target has the slash in front that the path of the page does not have. -/
theorem action_request (hfor : m.For key) :
    action (m.requestLine ++ [carriageReturn]) = .event (ascii "/" ++ m.path) := by
  obtain ⟨event, data⟩ := m
  obtain rfl : data = gameKeyMap key := hfor
  cases event <;> cases key <;> decide

theorem presses_target (hfor : m.For key) :
    Presses (ascii "/" ++ m.path) m.event.toNat (keyButton key) := by
  have hpath := presses_path m.event key
  obtain ⟨event, data⟩ := m
  obtain rfl : data = gameKeyMap key := hfor
  obtain ⟨k, v, hkeyValue, hrest⟩ := hpath
  refine ⟨k, v, ?_, hrest⟩
  have hslash : keyValue (ascii "/" ++ Message.path ⟨event, gameKeyMap key⟩) =
      keyValue (Message.path ⟨event, gameKeyMap key⟩) := by
    cases event <;> cases key <;> decide
  exact hslash.trans hkeyValue

/-- A request of the page moves the line of its key, and is answered. -/
theorem http_request (files : Files) (console : JoyPad) (hfor : m.For key)
    (hheaders : ∀ line ∈ headers, newline ∉ line ∧ line ≠ [])
    (hcut : Cut (m.request headers) reads) :
    SetsLine (keyButton key) (decide (m.event = .keyUp)) console
        (http files console reads).console ∧
      (http files console reads).written = header .http204 0 (ascii "text/html") := by
  have hwait := wait_lines
    (List.forall_mem_cons.mpr ⟨requestLine_plain hfor, hheaders⟩) hcut
  obtain ⟨console', hevent, hline⟩ := handleEvent_presses (presses_target hfor) console
  have hkey : decide ((m.event.toNat : Int) = keyUp) = decide (m.event = .keyUp) := by
    cases m.event <;> rfl
  have hrequest (rest : List Line) :
      handleRequest files console ((m.requestLine ++ [carriageReturn]) :: rest) = .ok
        (console', header .http204 0 (ascii "text/html")) := by
    rw [handleRequest_eq, action_request hfor]
    simp only [hevent]
    rfl
  rw [http_some hwait, List.map_cons, List.cons_append, hrequest]
  simp only [http_none (show wait [] = none from rfl)]
  exact ⟨hkey ▸ hline, List.append_nil _⟩

end Request

/-! ## Runs -/

namespace Play

/-- The page has lost nothing, the server has answered what was sent before what waits, and
the lines of the console are as the answered requests say. -/
structure Synced (g : Play) : Prop where
  clean : g.page.Clean
  keyed : g.page.Keyed
  answered : g.answered.length = g.page.inFlight.length
  issued : g.page.issued = g.handled ++ g.waiting
  lines : ∀ key, bit (g.console.shadow (keyButton key).shadow) (keyButton key).line =
    decide (lastEvent key g.handled = .keyUp)
  idle : ∀ group k, 4 ≤ k → bit (g.console.shadow group) k = false

theorem synced_start : Synced start where
  clean := Page.clean_start
  keyed := Page.keyed_start
  answered := rfl
  issued := rfl
  lines := by
    intro key
    have hline : bit (start.console.shadow (keyButton key).shadow) (keyButton key).line = true := by
      cases key <;> rfl
    exact hline
  idle := by
    intro group k hk
    show bit (released.shadow group) k = false
    rw [shadow_released, bit_idle, decide_eq_false (Nat.not_lt.mpr hk)]

variable {files : Files} {g g' : Play}

theorem unanswered_nil (answered : List Bool) : unanswered [] answered = [] := rfl

theorem unanswered_new (sent : List Message) :
    unanswered sent (List.replicate sent.length false) = sent := by
  induction sent with
  | nil => rfl
  | cons m sent ih => exact congrArg (m :: ·) ih

theorem unanswered_append {before : List Message} {answered : List Bool}
    (h : answered.length = before.length) (sent : List Message) :
    unanswered (before ++ sent) (answered ++ List.replicate sent.length false) =
      unanswered before answered ++ sent := by
  induction before generalizing answered with
  | nil =>
    obtain rfl := List.length_eq_zero_iff.mp h
    exact unanswered_new sent
  | cons m before ih =>
    obtain ⟨first, answered, rfl⟩ := List.exists_cons_of_length_eq_add_one h
    have hrest := ih (Nat.succ.inj h)
    cases first
    · exact congrArg (m :: ·) hrest
    · exact hrest

/-- What is sent is in flight, and waits. -/
theorem withPage_sends {page : Page} {answered : List Bool} {before sent : List Message}
    (h : answered.length = before.length) (hpage : page.inFlight = before ++ sent) :
    (g.withPage page answered).answered.length = page.inFlight.length ∧
      (g.withPage page answered).waiting = unanswered before answered ++ sent := by
  have hnew : page.inFlight.length - answered.length = sent.length := by
    rw [hpage, List.length_append, h, Nat.add_sub_cancel_left]
  constructor
  · show (answered ++ List.replicate _ false).length = page.inFlight.length
    rw [List.length_append, List.length_replicate, hnew, hpage, List.length_append, h]
  · show unanswered page.inFlight (answered ++ List.replicate _ false) = _
    rw [hnew, hpage, unanswered_append h]

/-- An event of the page that sends what waits then. -/
theorem synced_withPage (h : Synced g) {page : Page} {answered : List Bool}
    {before sent : List Message} (hclean : page.Clean) (hkeyed : page.Keyed)
    (hlength : answered.length = before.length) (hpage : page.inFlight = before ++ sent)
    (hissued : page.issued = g.page.issued ++ sent)
    (hwaiting : unanswered before answered = g.waiting) : Synced (g.withPage page answered) := by
  obtain ⟨hanswered, hnew⟩ := withPage_sends (g := g) hlength hpage
  refine ⟨hclean, hkeyed, hanswered, ?_, h.lines, h.idle⟩
  rw [hnew, hwaiting]
  show page.issued = g.handled ++ (g.waiting ++ sent)
  rw [hissued, h.issued, List.append_assoc]

theorem synced_page (h : Synced g) {e : Page.Event} (he : ∀ request, e ≠ .loadend request)
    (hgood : ¬ g.page.Forgets e) : Synced (g.withPage (g.page.step e) g.answered) := by
  obtain ⟨sent, hpage, hissued⟩ := g.page.step_sends he
  exact synced_withPage h (Page.clean_step h.clean hgood) (Page.keyed_step h.keyed e) h.answered
    hpage hissued rfl

/-- There is only one request in flight. -/
theorem single_request (h : Synced g) {request : Nat} {answered : Bool}
    (hrequest : g.answered[request]? = some answered) :
    request = 0 ∧ g.answered = [answered] ∧ ∃ m, g.page.inFlight = [m] := by
  have hsingle := (Page.delivered_of_clean h.clean).single
  rw [← h.answered] at hsingle
  obtain ⟨hlt, hget⟩ := List.getElem?_eq_some_iff.mp hrequest
  have hone : g.answered.length = 1 := by omega
  obtain ⟨first, hfirst⟩ := List.length_eq_one_iff.mp hone
  obtain rfl : request = 0 := by omega
  refine ⟨rfl, ?_, List.length_eq_one_iff.mp (h.answered ▸ hone)⟩
  rw [hfirst] at hrequest
  rw [hfirst, Option.some.inj hrequest]

theorem synced_loadend (h : Synced g) {request : Nat}
    (hrequest : g.answered[request]? = some true) :
    Synced (g.withPage (g.page.step (.loadend request)) (g.answered.eraseIdx request)) := by
  obtain ⟨rfl, hanswered, m, hflight⟩ := single_request h hrequest
  have hwaiting : g.waiting = [] := by
    rw [waiting, hanswered, hflight]
    rfl
  have hstep := Page.step_loadend g.page 0
  rw [if_pos (hflight ▸ Nat.one_pos)] at hstep
  have hpage : (g.page.step (.loadend 0)).inFlight =
      [] ++ g.page.screen.loadend.2.toList := by
    rw [hstep]
    simp only [Page.send, hflight, List.eraseIdx_cons_zero]
  have hissued : (g.page.step (.loadend 0)).issued =
      g.page.issued ++ g.page.screen.loadend.2.toList := by
    rw [hstep]
    rfl
  have hlength : (g.answered.eraseIdx 0).length = ([] : List Message).length := by
    rw [hanswered]
    rfl
  exact synced_withPage h (Page.clean_step h.clean not_false) (Page.keyed_step h.keyed _) hlength
    hpage hissued hwaiting.symm

theorem synced_answer (h : Synced g) {request : Nat} {m : Message} {headers : List Line}
    {reads : List (List UInt8)} (hm : g.page.inFlight[request]? = some m)
    (hrequest : g.answered[request]? = some false)
    (hheaders : ∀ line ∈ headers, newline ∉ line ∧ line ≠ [])
    (hcut : Cut (m.request headers) reads) :
    Synced { g with
      console := (http files g.console reads).console
      answered := g.answered.set request true
      handled := g.handled ++ [m] } := by
  obtain ⟨rfl, hanswered, m', hflight⟩ := single_request h hrequest
  obtain rfl : m' = m := by simpa [hflight] using hm
  have hwaiting : g.waiting = [m'] := by
    rw [waiting, hanswered, hflight]
    rfl
  have hissued : g.page.issued = g.handled ++ [m'] := hwaiting ▸ h.issued
  have hmem : m' ∈ g.page.accepted := by
    refine (Page.delivered_of_clean h.clean).ordered.subset ?_
    rw [hissued]
    exact List.mem_append_right _ List.mem_cons_self
  obtain ⟨key, hfor⟩ := h.keyed.keys m' hmem
  obtain ⟨hline, -⟩ := http_request files g.console hfor hheaders hcut
  refine ⟨h.clean, h.keyed, ?_, ?_, fun other => ?_, fun group k hk => ?_⟩
  · rw [List.length_set]
    exact h.answered
  · show g.page.issued = g.handled ++ [m'] ++ unanswered g.page.inFlight (g.answered.set 0 true)
    rw [hanswered, hflight, hissued]
    exact (List.append_nil _).symm
  · rw [hline, lastEvent_snoc]
    by_cases hother : other = key
    · subst hother
      rw [if_pos ⟨rfl, rfl⟩, if_pos hfor]
    · have hapart : ¬ ((keyButton other).shadow = (keyButton key).shadow ∧
          (keyButton other).line = (keyButton key).line) := fun ⟨hshadow, hsame⟩ =>
        hother (keyButton_injective (JoyPadButton.eq_of_line hshadow hsame))
      have hnot : ¬ m'.For other := fun hfor' =>
        hother (gameKeyMap_injective (hfor'.symm.trans hfor))
      rw [if_neg hapart, if_neg hnot]
      exact h.lines other
  · have hapart : ¬ (group = (keyButton key).shadow ∧ k = (keyButton key).line) := by
      rintro ⟨-, rfl⟩
      exact absurd (keyButton key).line_lt (Nat.not_lt.mpr hk)
    rw [hline, if_neg hapart]
    exact h.idle group k hk

/-- A timeout or a transition that loses requests. -/
def Forgets (g : Play) : Event → Prop
  | .page e => g.page.Forgets e
  | .answer _ _ _ => False

theorem synced_step (h : Synced g) {e : Event} (hgood : ¬ g.Forgets e)
    (hstep : g.step files e = some g') : Synced g' := by
  cases e with
  | page e =>
    cases e with
    | loadend request =>
      rw [step] at hstep
      split_ifs at hstep with hrequest
      obtain rfl := Option.some.inj hstep
      exact synced_loadend h hrequest
    | _ =>
      obtain rfl := Option.some.inj hstep
      exact synced_page h nofun hgood
  | answer request headers reads =>
    rw [step] at hstep
    cases hm : g.page.inFlight[request]? with
    | none =>
      rw [hm] at hstep
      cases hstep
    | some m =>
      simp only [hm] at hstep
      split_ifs at hstep with hanswer
      obtain ⟨hrequest, hheaders, hcut⟩ := hanswer
      obtain rfl := Option.some.inj hstep
      exact synced_answer h hm hrequest hheaders hcut

/-- A step that loses nothing. -/
def Step (files : Files) (g g' : Play) : Prop := ∃ e, ¬ g.Forgets e ∧ g.step files e = some g'

theorem synced_run (h : Relation.ReflTransGen (Step files) g g') (hg : Synced g) : Synced g' := by
  induction h with
  | refl => exact hg
  | tail _ hstep ih =>
    obtain ⟨e, hgood, he⟩ := hstep
    exact synced_step ih hgood he

/-! ## The register -/

/-- The buttons whose lines a register shows. -/
def Selects (register : UInt8) : ShadowSelect → Prop
  | .dirs => bit register 4 = false
  | .buttons => bit register 4 = true ∧ bit register 5 = false

/-- A line of the register is low exactly if the last transition of its key that was
answered is a press. -/
theorem register_of_synced (h : Synced g) (s : Bus) (key : Key)
    (hselects : Selects ((g.console.cycle s).io joypadInputAddress) (keyButton key).shadow) :
    bit ((g.console.cycle s).io joypadInputAddress) (keyButton key).line = false ↔
      lastEvent key g.handled = .keyDown := by
  have hidle (k : Nat) (hk : 4 ≤ k) :
      bit (g.console.state (s.io joypadInputAddress)) k = false := by
    unfold state
    split_ifs
    · exact h.idle .dirs k hk
    · exact h.idle .buttons k hk
    · rw [bit_idle, decide_eq_false (Nat.not_lt.mpr hk)]
  have h4 := bit_cycle (s.io joypadInputAddress) hidle 4
  have h5 := bit_cycle (s.io joypadInputAddress) hidle 5
  rw [JoyPad.cycle, Bus.setIo_io_self] at hselects ⊢
  have hstate : g.console.state (s.io joypadInputAddress) =
      g.console.shadow (keyButton key).shadow := by
    cases hshadow : (keyButton key).shadow with
    | dirs =>
      rw [hshadow] at hselects
      exact state_dirs g.console (h4.symm.trans hselects)
    | buttons =>
      rw [hshadow] at hselects
      exact state_buttons g.console (h4.symm.trans hselects.1) (h5.symm.trans hselects.2)
  rw [bit_cycle _ hidle, if_pos (keyButton key).line_lt, hstate, h.lines]
  cases lastEvent key g.handled <;> decide

/-- On every run of the page and the server that loses nothing, the server handles the
transitions of the page in order and none twice, and the guest reads of each key what the
last handled one says; so once nothing is queued or waits, it reads what the page holds. -/
theorem guest_reads_keys (h : Relation.ReflTransGen (Step files) start g) :
    g.handled <+: g.page.accepted ∧
      ∀ s key, Selects ((g.console.cycle s).io joypadInputAddress) (keyButton key).shadow →
        (bit ((g.console.cycle s).io joypadInputAddress) (keyButton key).line = false ↔
          lastEvent key g.handled = .keyDown) ∧
        (g.page.screen.queue = [] → g.waiting = [] →
          (bit ((g.console.cycle s).io joypadInputAddress) (keyButton key).line = false ↔
            g.page.screen.keypress key = .keyDown)) := by
  have hsynced := synced_run h synced_start
  have hdelivered := Page.delivered_of_clean hsynced.clean
  refine ⟨?_, fun s key hselects => ?_⟩
  · refine List.IsPrefix.trans ?_ hdelivered.ordered
    rw [hsynced.issued]
    exact List.prefix_append _ _
  · have hregister := register_of_synced hsynced s key hselects
    refine ⟨hregister, fun hqueue hwaiting => ?_⟩
    have hall : g.handled = g.page.accepted := by
      have hissued := hsynced.issued
      rw [hwaiting, List.append_nil] at hissued
      exact hissued.symm.trans (hdelivered.complete hqueue)
    rw [hregister, hsynced.keyed.last key, hall]

/-- The press of A, which the server reads byte by byte. -/
theorem guest_reads_a :
    ∃ g, Relation.ReflTransGen (Step fun _ => none) start g ∧
      g.handled = [⟨.keyDown, gameKeyMap .keyA⟩] ∧
      ∀ s, Selects ((g.console.cycle s).io joypadInputAddress) .buttons →
        bit ((g.console.cycle s).io joypadInputAddress) 0 = false := by
  let files : Files := fun _ => none
  let press : Message := ⟨.keyDown, gameKeyMap .keyA⟩
  let g : Play := start.withPage (Page.start.step .socketOpen) []
  let g' : Play := g.withPage (g.page.step (.key .keyDown (some .keyA))) []
  let reads := (press.request []).map fun b => [b]
  let g'' : Play := { g' with
    console := (http files g'.console reads).console
    answered := g'.answered.set 0 true
    handled := g'.handled ++ [press] }
  have hopen : Step files start g := ⟨.page .socketOpen, nofun, rfl⟩
  have hpress : Step files g g' :=
    ⟨.page (.key .keyDown (some .keyA)), fun h => h.2.2 rfl, rfl⟩
  have hanswer : Step files g' g'' :=
    ⟨.answer 0 [] reads, nofun, if_pos ⟨rfl, nofun, cut_bytes _⟩⟩
  have hrun := ((Relation.ReflTransGen.single hopen).tail hpress).tail hanswer
  refine ⟨g'', hrun, rfl, fun s hselects => ?_⟩
  exact ((guest_reads_keys hrun).2 s .keyA hselects).1.mpr rfl

/-! ## The end of the queue -/

/-- What is in flight is answered, and ended. -/
theorem exists_ended (files : Files) (h : Synced g) {m : Message}
    (hflight : g.page.inFlight = [m]) :
    ∃ g', Relation.ReflTransGen (Step files) g g' ∧
      g'.page = g.page.step (.loadend 0) := by
  have hloadend {g : Play} (hanswered : g.answered = [true]) :
      ∃ g', Step files g g' ∧ g'.page = g.page.step (.loadend 0) := by
    refine ⟨g.withPage (g.page.step (.loadend 0)) (g.answered.eraseIdx 0),
      ⟨.page (.loadend 0), nofun, ?_⟩, rfl⟩
    exact if_pos (by rw [hanswered]; rfl)
  have hlength := h.answered
  rw [hflight] at hlength
  obtain ⟨answered, hanswered⟩ := List.length_eq_one_iff.mp hlength
  cases answered with
  | true =>
    obtain ⟨g', hstep, hpage⟩ := hloadend (g := g) hanswered
    exact ⟨g', .single hstep, hpage⟩
  | false =>
    obtain ⟨g', hstep, hpage⟩ := hloadend (g := { g with
      console := (http files g.console ((m.request []).map fun b => [b])).console
      answered := g.answered.set 0 true
      handled := g.handled ++ [m] }) (by rw [hanswered]; rfl)
    refine ⟨g', .head ⟨.answer 0 [] ((m.request []).map fun b => [b]), nofun, ?_⟩
      (.single hstep), hpage⟩
    rw [step, hflight]
    exact if_pos ⟨by rw [hanswered]; rfl, fun _ hline => absurd hline List.not_mem_nil,
      cut_bytes _⟩

theorem exists_settled (files : Files) (h : Synced g) :
    ∃ g', Relation.ReflTransGen (Step files) g g' ∧ g'.page.accepted = g.page.accepted ∧
      g'.page.screen.queue = [] ∧ g'.waiting = [] := by
  induction hqueue : g.page.screen.queue generalizing g with
  | nil =>
    cases hflight : g.page.inFlight with
    | nil => exact ⟨g, .refl, rfl, hqueue, by rw [waiting, hflight, unanswered_nil]⟩
    | cons m inFlight =>
      have hsingle := (Page.delivered_of_clean h.clean).single
      obtain rfl : inFlight = [] := by
        rw [hflight, List.length_cons] at hsingle
        exact List.length_eq_zero_iff.mp (Nat.le_zero.mp (Nat.le_of_succ_le_succ hsingle))
      obtain ⟨g', hrun, hpage⟩ := exists_ended files h hflight
      rw [Page.step_loadend, if_pos (hflight ▸ Nat.one_pos)] at hpage
      simp only [GameScreen.loadend, hqueue, Page.send, hflight, List.eraseIdx_cons_zero,
        Option.toList_none, List.append_nil] at hpage
      refine ⟨g', hrun, by rw [hpage], by rw [hpage], ?_⟩
      rw [waiting, hpage, unanswered_nil]
  | cons next queue ih =>
    obtain ⟨hrest, haccepted⟩ := Page.queue_loadend h.clean hqueue
    have hflight : ∃ m, g.page.inFlight = [m] := by
      cases h.clean with
      | sending _ hsingle _ => exact List.length_eq_one_iff.mp hsingle
      | idle _ _ hempty _ =>
        exact absurd (hempty.symm.trans hqueue) (List.cons_ne_nil next queue).symm
    obtain ⟨m, hflight⟩ := hflight
    obtain ⟨g₁, hrun, hpage⟩ := exists_ended files h hflight
    obtain ⟨g', hlater, hsame, hsettled⟩ := ih (synced_run hrun h) (hpage ▸ hrest)
    refine ⟨g', hrun.trans hlater, ?_, hsettled⟩
    rw [hsame, hpage, haccepted]

/-- No transition is stuck: from wherever such a run has come to, a run that adds none leads to
where the server has handled all and the guest reads what the page held there. -/
theorem guest_comes_to_read (h : Relation.ReflTransGen (Step files) start g) :
    ∃ g', Relation.ReflTransGen (Step files) g g' ∧ g'.page.accepted = g.page.accepted ∧
      g'.handled = g.page.accepted ∧
      ∀ s key, Selects ((g'.console.cycle s).io joypadInputAddress) (keyButton key).shadow →
        (bit ((g'.console.cycle s).io joypadInputAddress) (keyButton key).line = false ↔
          g.page.screen.keypress key = .keyDown) := by
  have hsynced := synced_run h synced_start
  obtain ⟨g', hrun, haccepted, hqueue, hwaiting⟩ := exists_settled files hsynced
  have hsynced' := synced_run hrun hsynced
  have hissued := hsynced'.issued
  rw [hwaiting, List.append_nil,
    (Page.delivered_of_clean hsynced'.clean).complete hqueue, haccepted] at hissued
  refine ⟨g', hrun, haccepted, hissued.symm, fun s key hselects => ?_⟩
  rw [register_of_synced hsynced' s key hselects, hsynced.keyed.last key, hissued]

/-- With A pressed and B queued behind it. -/
theorem guest_comes_to_read_b :
    ∃ g' : Play, g'.page.accepted = g'.handled ∧
      g'.handled = [⟨.keyDown, gameKeyMap .keyA⟩, ⟨.keyDown, gameKeyMap .keyB⟩] ∧
      ∀ s, Selects ((g'.console.cycle s).io joypadInputAddress) .buttons →
        bit ((g'.console.cycle s).io joypadInputAddress) 1 = false := by
  let g : Play := start.withPage (Page.start.step .socketOpen) []
  let g' : Play := g.withPage (g.page.step (.key .keyDown (some .keyA))) []
  let g'' : Play := g'.withPage (g'.page.step (.key .keyDown (some .keyB))) [false]
  have hopen : Step (fun _ => none) start g := ⟨.page .socketOpen, nofun, rfl⟩
  have hpress : Step (fun _ => none) g g' :=
    ⟨.page (.key .keyDown (some .keyA)), fun h => h.2.2 rfl, rfl⟩
  have hqueue : Step (fun _ => none) g' g'' :=
    ⟨.page (.key .keyDown (some .keyB)), fun h => absurd h.2.1 (by decide), rfl⟩
  obtain ⟨last, -, haccepted, hhandled, hreads⟩ := guest_comes_to_read
    (((Relation.ReflTransGen.single hopen).tail hpress).tail hqueue)
  refine ⟨last, haccepted.trans hhandled.symm, hhandled, fun s hselects => ?_⟩
  exact (hreads s .keyB hselects).mpr rfl

end Play

end GbEmu
