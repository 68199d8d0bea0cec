import GbEmu.ConsoleLink

/-!
The two threads of a link: the emulation thread, with the transfers of the program
and `ConsoleLink::cycle`, and the link thread, with `serverLoop` and its connections.
A step is one access to a shared flag or mailbox, or one call of `rd` or `wr`. What
the program cannot see is kept beside it: whether a byte under way is that of the
latest transfer, and what was received for it.
-/

namespace GbEmu

/-- Where the link thread stands. -/
inductive ServerPc
  /-- In `accept` or `connect`. -/
  | disconnected
  /-- At the top of `serverLoop`. -/
  | loadTxReady
  | loadRxReady
  | clearTxReady
  | loadTxData
  /-- In `wr`; `own`: the byte is that of the latest transfer. -/
  | wr (data : UInt8) (own : Bool)
  | rd (own : Bool)
  | storeRxData (data : UInt8)
  | storeRxReady
  /-- `serverLoop` has returned false. -/
  | failed
  deriving DecidableEq, Repr

/-- Where the emulation thread stands. -/
inductive EmulationPc
  | idle
  /-- In the loop of `cycle`. -/
  | drain
  /-- In `transfer`. -/
  | loadConnected (data : UInt8)
  | storeTxData (data : UInt8)
  | storeTxReady
  /-- In `handlePending`. -/
  | loadRxReady
  | checkConnected
  /-- After the loop, which a response or (`answered` is false) a lost connection ended. -/
  | clearRxReady (answered : Bool)
  | loadRxData (answered : Bool)
  deriving DecidableEq, Repr

structure LinkThreads where
  link : ConsoleLink
  emulation : EmulationPc
  server : ServerPc
  /-- The `count` of the current call of `cycle`. -/
  count : Nat
  /-- Whether `tx.data` is the byte of the latest call of `transfer`. -/
  own : Bool
  /-- The bytes that `rd` returned in the exchanges that sent the byte of that call. -/
  answers : List UInt8
  /-- Every byte that `finishTransfer` stored, with the answers to its transfer. -/
  finished : List (UInt8 × List UInt8)
  deriving DecidableEq, Repr

inductive LinkAction
  /-- A store to SC with bit 7 set while SB is `data`. -/
  | transfer (data : UInt8)
  /-- A call of `cycle` while SC is `control`. -/
  | cycle (ticks : UInt8) (control : UInt8)
  | emulation
  /-- A step of the link thread, other than these: -/
  | server
  | connect
  | wr (ok : Bool)
  | rd (response : Option UInt8)
  deriving DecidableEq, Repr

namespace LinkThreads

/-- A new call of `transfer`: what is under way is not its byte. -/
def disown : ServerPc → ServerPc
  | .wr data _ => .wr data false
  | .rd _ => .rd false
  | pc => pc

/-- `finishTransfer`. -/
def finishTransfer (t : LinkThreads) (data : UInt8) : LinkThreads :=
  { t with
    link := { t.link with state := ConsoleLink.finishState t.link.state }
    emulation := .drain
    finished := t.finished ++ [(data, t.answers)] }

/-- `check`. -/
def check (t : LinkThreads) : LinkThreads :=
  match t.link.state with
  | .idle | .disconnected => t
  | .simResponse => t.finishTransfer ConsoleLink.simulatedResponse
  | .pending => { t with emulation := .loadRxReady }

/-- The next step of `cycle`, `transfer` or `handlePending`. -/
def emulationStep (t : LinkThreads) : Option LinkThreads :=
  match t.emulation with
  | .idle => none
  | .drain =>
    if t.count ≤ t.link.ticks then
      some { t with link := { t.link with ticks := t.link.ticks - t.count } }.check
    else some { t with emulation := .idle }
  | .loadConnected data =>
    if t.link.connected then
      some { t with
        link := { t.link with state := .pending }
        emulation := .storeTxData data }
    else
      some { t with
        link := { t.link with state := .simResponse }
        emulation := .idle }
  | .storeTxData data =>
    some { t with
      link := { t.link with txData := data }
      emulation := .storeTxReady
      own := true }
  | .storeTxReady =>
    some { t with
      link := { t.link with txReady := true }
      emulation := .idle }
  | .loadRxReady =>
    some { t with
      emulation := if t.link.rxReady then .clearRxReady true else .checkConnected }
  | .checkConnected =>
    some { t with
      emulation := if t.link.connected then .loadRxReady else .clearRxReady false }
  | .clearRxReady answered =>
    some { t with
      link := { t.link with rxReady := false }
      emulation := .loadRxData answered }
  | .loadRxData _ => some (t.finishTransfer t.link.rxData)

/-- The next step of `serverLoop` or of the loop around it. -/
def serverStep (t : LinkThreads) : Option LinkThreads :=
  match t.server with
  | .disconnected | .wr _ _ | .rd _ => none
  | .loadTxReady =>
    some { t with server := if t.link.txReady then .loadRxReady else .loadTxReady }
  | .loadRxReady =>
    some { t with server := if t.link.rxReady then .loadTxReady else .clearTxReady }
  | .clearTxReady =>
    some { t with
      link := { t.link with txReady := false }
      server := .loadTxData }
  | .loadTxData => some { t with server := .wr t.link.txData t.own }
  | .storeRxData data =>
    some { t with
      link := { t.link with rxData := data }
      server := .storeRxReady }
  | .storeRxReady =>
    some { t with
      link := { t.link with rxReady := true }
      server := .loadTxReady }
  | .failed =>
    some { t with
      link := { t.link with connected := false }
      server := .disconnected }

def step (t : LinkThreads) (a : LinkAction) : Option LinkThreads :=
  match a, t.emulation, t.server with
  | .transfer data, .idle, _ =>
    some { t with
      link := { t.link with ticks := 0 }
      emulation := .loadConnected data
      server := disown t.server
      own := false
      answers := [] }
  | .cycle ticks control, .idle, _ =>
    some { t with
      link := { t.link with ticks := t.link.ticks + ticks.toNat }
      emulation := .drain
      count := ConsoleLink.count control }
  | .emulation, _, _ => t.emulationStep
  | .server, _, _ => t.serverStep
  | .connect, _, .disconnected =>
    some { t with
      link := { t.link with connected := true }
      server := .loadTxReady }
  | .wr ok, _, .wr _ own => some { t with server := if ok then .rd own else .failed }
  | .rd response, _, .rd own =>
    match response with
    | none => some { t with server := .failed }
    | some data =>
      some { t with
        server := .storeRxData data
        answers := if own then t.answers ++ [data] else t.answers }
  | _, _, _ => none

/-- After the constructor; `data` is what the mailboxes happen to hold. -/
def constructed (txData rxData : UInt8) : LinkThreads where
  link :=
    { ticks := 0
      connected := false
      state := .disconnected
      txReady := false
      txData := txData
      rxReady := false
      rxData := rxData }
  emulation := .idle
  server := .disconnected
  count := 0
  own := false
  answers := []
  finished := []

/-- Without the link thread in between, a store to SC is `ConsoleLink.transfer`. -/
theorem transfer_steps {t : LinkThreads} (hidle : t.emulation = .idle) (data : UInt8) :
    ∃ actions t', (∀ a ∈ actions, a = LinkAction.emulation) ∧
      (LinkAction.transfer data :: actions).foldlM step t = some t' ∧
      t'.emulation = .idle ∧ t'.link = t.link.transfer data := by
  cases hc : t.link.connected with
  | true =>
    refine ⟨[.emulation, .emulation, .emulation],
      { t with
        link := t.link.transfer data
        server := disown t.server
        emulation := .idle
        own := true
        answers := [] }, by simp, ?_, rfl, rfl⟩
    simp only [List.foldlM, step, hidle, emulationStep, hc, ConsoleLink.transfer]
    rfl
  | false =>
    refine ⟨[.emulation],
      { t with
        link := t.link.transfer data
        server := disown t.server
        emulation := .idle
        own := false
        answers := [] }, by simp, ?_, rfl, rfl⟩
    simp only [List.foldlM, step, hidle, emulationStep, hc, ConsoleLink.transfer]
    rfl

end LinkThreads

end GbEmu
