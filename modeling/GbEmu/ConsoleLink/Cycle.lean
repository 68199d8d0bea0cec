import GbEmu.Interrupt
import GbEmu.Lib.Follows

/-!
`ConsoleLink::cycle` on the bus, as one call of the emulation thread. What the link
thread does meanwhile comes in as the values that it leaves in what they share.
-/

namespace GbEmu

/-- The fields of a link that the link thread writes. -/
structure LinkThread where
  connected : Bool
  txReady : Bool
  rxReady : Bool
  rxData : UInt8
  deriving DecidableEq, Repr

def ConsoleLink.update (l : ConsoleLink) (t : LinkThread) : ConsoleLink :=
  { l with
    connected := t.connected, txReady := t.txReady, rxReady := t.rxReady, rxData := t.rxData }

namespace Bus

section Link

-- `m_memory.write`, and the link thread at the end of the loop of `handlePending`.
variable (write : Bus → UInt16 → UInt8 → Except Fault Bus) (answer : LinkThread)

/-- `finishTransfer`, with the interrupt it requests. -/
def finishTransfer (data : UInt8) (x : Bus × List Interrupt) :
    Except Fault (Bus × List Interrupt) :=
  (write x.1 serialDataAddress data).map fun s =>
    let control := s.io serialControlAddress &&& ~~~ConsoleLink.linkTransfer
    let s := (s.setIo serialControlAddress control).request .serial
    let link := s.link.map fun l => { l with state := ConsoleLink.finishState l.state }
    ({ s with link := link }, x.2 ++ [.serial])

def handlePending (l : ConsoleLink) (x : Bus × List Interrupt) :
    Except Fault (Bus × List Interrupt) :=
  let l := { l.update answer with rxReady := false }
  finishTransfer write l.rxData ({ x.1 with link := some l }, x.2)

def check (l : ConsoleLink) (x : Bus × List Interrupt) : Except Fault (Bus × List Interrupt) :=
  match l.state with
  | .idle | .disconnected => .ok x
  | .simResponse => finishTransfer write ConsoleLink.simulatedResponse x
  | .pending => handlePending write answer l x

/-- A pass of the loop of `cycle`. -/
def linkPass (count : Nat) (x : Bus × List Interrupt) : Except Fault (Bus × List Interrupt) :=
  match x.1.link with
  | none => .ok x
  | some l =>
    let l := { l with ticks := l.ticks - count }
    check write answer l ({ x.1 with link := some l }, x.2)

/-- `cycle`. A pass only takes `count` off `m_ticks`, which gives their number. -/
def cycleLink (ticks : UInt8) (s : Bus) : Except Fault (Bus × List Interrupt) :=
  match s.link with
  | none => .ok (s, [])
  | some l =>
    let count := ConsoleLink.count (s.io serialControlAddress)
    let ticks := (l.ticks + ticks.toNat) % 2 ^ 16
    let s := { s with link := some { l with ticks := ticks } }
    Run.run (fun x _ => linkPass write answer count x) (s, []) (List.range (ticks / count))

end Link

/-- What the end of a transfer keeps, on a bus that follows another one, a cycle keeps. -/
theorem follows_cycleLink {guarded write : Bus → UInt16 → UInt8 → Except Fault Bus}
    {P : Bus × List Interrupt → Prop} (hlink : ∀ x l, P x → P ({ x.1 with link := l }, x.2))
    (hfinish : ∀ data x, P x →
      Run.Follows P (finishTransfer guarded data x) (finishTransfer write data x))
    (answer : LinkThread) (ticks : UInt8) {s : Bus} (hs : P (s, [])) :
    Run.Follows P (s.cycleLink guarded answer ticks) (s.cycleLink write answer ticks) := by
  have hpass : ∀ count x, P x →
      Run.Follows P (linkPass guarded answer count x) (linkPass write answer count x) := by
    intro count x hx
    unfold linkPass
    cases x.1.link with
    | none => exact Run.follows_ok hx
    | some l =>
      simp only [check]
      cases l.state with
      | idle => exact Run.follows_ok (hlink x _ hx)
      | disconnected => exact Run.follows_ok (hlink x _ hx)
      | simResponse => exact hfinish _ _ (hlink x _ hx)
      | pending => exact hfinish _ _ (hlink x _ hx)
  unfold cycleLink
  cases s.link with
  | none => exact Run.follows_ok hs
  | some l => exact Run.follows_run (fun _ _ hx => hpass _ _ hx) _ (hlink (s, []) _ hs)

end Bus

end GbEmu
