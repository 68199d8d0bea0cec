import GbEmu.MemMap

/-!
The serial link as the emulation thread sees it: the transfer state, the tick
count and the two one-slot mailboxes it shares with the link thread.
-/

namespace GbEmu

inductive LinkState
  | idle
  | pending
  | disconnected
  | simResponse
  deriving DecidableEq, Repr

structure ConsoleLink where
  ticks : Nat
  connected : Bool
  state : LinkState
  txReady : Bool
  txData : UInt8
  rxReady : Bool
  rxData : UInt8
  deriving DecidableEq, Repr

namespace ConsoleLink

def linkTransfer : UInt8 := 0x80
def linkSpeed : UInt8 := 0x02
def linkClock : UInt8 := 0x01

def transfer (l : ConsoleLink) (data : UInt8) : ConsoleLink :=
  if l.connected then
    { l with ticks := 0, state := .pending, txData := data, txReady := true }
  else { l with ticks := 0, state := .simResponse }

/-- `SIMULATED_LINK_RESPONSE`. -/
def simulatedResponse : UInt8 := 0xFF

/-- The ticks between two calls of `check`. -/
def count (control : UInt8) : Nat := if control &&& linkSpeed ≠ 0 then 128 else 4096

/-- The transfer state after `finishTransfer`. -/
def finishState (state : LinkState) : LinkState :=
  if state = .pending then .idle else .disconnected

end ConsoleLink

end GbEmu
