import GbEmu.Interrupt
import GbEmu.Lib.Drain

/-!
The timer of `timermodule.cpp`: the divider and the programmable counter. Its
registers are cells of the IO region. `m_timeout` is assigned before each use, so
it is a function of the control register and the clock speed here.
-/

namespace GbEmu

inductive ClockSpeed
  | normal
  | double
  deriving DecidableEq, Repr

/-- The value of the enumerator, by which the periods are shifted. -/
def ClockSpeed.toNat : ClockSpeed → Nat
  | normal => 0
  | double => 1

structure TimerModule where
  ticks : Nat
  rtc : Nat
  speed : ClockSpeed
  deriving DecidableEq, Repr

namespace TimerModule

def rtcIncrement : Nat := 512

def timeoutMap : List Nat := [1024, 16, 64, 256]

def timerFrequency : UInt8 := 0x03
def timerEnable : UInt8 := 0x04

/-- The local `rtc` of `cycle`. -/
def period (t : TimerModule) : Nat := rtcIncrement >>> t.speed.toNat

def isEnabled (s : Bus) : Bool := s.io cpuTimerControlAddress &&& timerEnable != 0

def timeout (t : TimerModule) (s : Bus) : Nat :=
  timeoutMap.getD (s.io cpuTimerControlAddress &&& timerFrequency).toNat 0 >>> t.speed.toNat

/-- `reset`, with the registers it clears. -/
def reset (t : TimerModule) (s : Bus) : TimerModule × Bus :=
  ({ t with ticks := 0, rtc := 0 },
    (((s.setIo cpuTimerDivAddress 0).setIo cpuTimerCounterAddress 0).setIo
      cpuTimerModuloAddress 0).setIo cpuTimerControlAddress 0)

/-- The start of `cycle`: a pending write to the divider. -/
def resetDivider (t : TimerModule) (s : Bus) : TimerModule × Bus :=
  if s.rtcReset then
    ({ t with rtc := 0 }, { s.setIo cpuTimerDivAddress 0 with rtcReset := false })
  else (t, s)

def incrementDivider (s : Bus) : Bus :=
  s.setIo cpuTimerDivAddress (s.io cpuTimerDivAddress + 1)

/-- The body of the second loop, with the requests made so far. -/
def incrementCounter (x : Bus × List Interrupt) : Bus × List Interrupt :=
  let counter := x.1.io cpuTimerCounterAddress
  let s := x.1.setIo cpuTimerCounterAddress (counter + 1)
  if counter = 0xFF then
    let s := s.request .timer
    (s.setIo cpuTimerCounterAddress (s.io cpuTimerModuloAddress), x.2 ++ [.timer])
  else (s, x.2)

/-- `cycle`, with the interrupts it requests. -/
def cycle (t : TimerModule) (s : Bus) (ticks : UInt8) : TimerModule × Bus × List Interrupt :=
  let (t, s) := t.resetDivider s
  let (rtc, s) :=
    Drain.drain t.period incrementDivider ((t.rtc + ticks.toNat) % 2 ^ 16) s
  let t := { t with rtc := rtc }
  if !isEnabled s then (t, s, [])
  else
    let (left, s, requests) :=
      Drain.drain (t.timeout s) incrementCounter ((t.ticks + ticks.toNat) % 2 ^ 16) (s, [])
    ({ t with ticks := left }, s, requests)

/-- Calls one after the other, with no register written in between. -/
def cycles (x : TimerModule × Bus) (ts : List UInt8) : TimerModule × Bus :=
  ts.foldl (fun x t => let y := x.1.cycle x.2 t; (y.1, y.2.1)) x

end TimerModule

end GbEmu
