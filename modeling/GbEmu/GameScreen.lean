import GbEmu.Lib.Text

/-!
The key events of `gamescreen.js`, as the browser runs them: one handler at a time, the
timers that `onError` starts, and the requests that are on their way. The picture that
the socket brings has no part in them.
-/

namespace GbEmu

/-- The codes of `GAME_KEY_MAP`. -/
inductive Key
  | keyA
  | keyB
  | keyF
  | space
  | arrowRight
  | arrowLeft
  | arrowUp
  | arrowDown
  deriving DecidableEq, Repr

def gameKeyMap : Key → Nat
  | .keyA => 0x10
  | .keyB => 0x20
  | .keyF => 0x40
  | .space => 0x80
  | .arrowRight => 0x01
  | .arrowLeft => 0x02
  | .arrowUp => 0x04
  | .arrowDown => 0x08

inductive EventType
  | keyUp
  | keyDown
  deriving DecidableEq, Repr

def EventType.toNat : EventType → Nat
  | keyUp => 0
  | keyDown => 1

/-- An entry of `_queue`, and the request that `_send` makes of it. -/
structure Message where
  event : EventType
  data : Nat
  deriving DecidableEq, Repr

/-- The path that `_send` opens. -/
def Message.path (m : Message) : List UInt8 :=
  Text.ascii "event?" ++ Text.decimal m.event.toNat ++ Text.ascii "=" ++ Text.decimal m.data

structure GameScreen where
  connected : Bool
  busy : Bool
  queue : List Message
  keypress : Key → EventType

namespace GameScreen

/-- `_init`, less the socket. -/
def init (s : GameScreen) : GameScreen := { s with busy := false, queue := [] }

/-- The constructor. -/
def new : GameScreen :=
  { connected := false, busy := false, queue := [], keypress := fun _ => .keyUp }

/-- The screen after it, and the message that it passes to `_send`. -/
def sendEventMessage (s : GameScreen) (m : Message) : GameScreen × Option Message :=
  if s.connected = false then (s, none)
  else if s.busy then ({ s with queue := s.queue ++ [m] }, none)
  else ({ s with busy := true }, some m)

/-- Codes that `GAME_KEY_MAP` does not have are `none`. -/
def onKeyPress (s : GameScreen) (polarity : EventType) (code : Option Key) :
    GameScreen × Option Message :=
  if s.connected = false then (s, none)
  else
    match code with
    | none => (s, none)
    | some key =>
      if s.keypress key = polarity then (s, none)
      else
        sendEventMessage { s with keypress := Function.update s.keypress key polarity }
          ⟨polarity, gameKeyMap key⟩

/-- The `loadend` handler of a request; the status of the response changes nothing. -/
def loadend (s : GameScreen) : GameScreen × Option Message :=
  match s.queue with
  | [] => ({ s with busy := false }, none)
  | next :: queue => ({ s with queue := queue }, some next)

/-- The transition that a key event is, if `onKeyPress` takes it. -/
def accepts (s : GameScreen) (polarity : EventType) (code : Option Key) : Option Message :=
  match code with
  | none => none
  | some key =>
    if s.connected = true ∧ s.keypress key ≠ polarity then some ⟨polarity, gameKeyMap key⟩
    else none

end GameScreen

/-! ## The page -/

/-- The screen in its browser, with all transitions taken and all requests made so far. -/
structure Page where
  screen : GameScreen
  /-- Timeouts of `onError` that are still to come. -/
  timers : Nat
  inFlight : List Message
  accepted : List Message
  issued : List Message

namespace Page

inductive Event
  | socketOpen
  | socketClose
  | socketError
  | timeout
  | key (polarity : EventType) (code : Option Key)
  /-- The end of one of the requests in flight, whatever came of it. -/
  | loadend (request : Nat)
  deriving DecidableEq, Repr

def start : Page :=
  { screen := .new, timers := 0, inFlight := [], accepted := [], issued := [] }

def send (p : Page) (m : Option Message) : Page :=
  { p with inFlight := p.inFlight ++ m.toList, issued := p.issued ++ m.toList }

def step (p : Page) : Event → Page
  | .socketOpen => { p with screen := { p.screen with connected := true } }
  | .socketClose => { p with screen := { p.screen with connected := false } }
  | .socketError =>
    { p with screen := { p.screen with connected := false }, timers := p.timers + 1 }
  | .timeout =>
    if p.timers = 0 then p else { p with screen := p.screen.init, timers := p.timers - 1 }
  | .key polarity code =>
    let (screen, m) := p.screen.onKeyPress polarity code
    { p with
      screen := screen
      accepted := p.accepted ++ (p.screen.accepts polarity code).toList }.send m
  | .loadend request =>
    if request < p.inFlight.length then
      let (screen, m) := p.screen.loadend
      { p with screen := screen, inFlight := p.inFlight.eraseIdx request }.send m
    else p

end Page

end GbEmu
