import GbEmu.ConsoleLink.Cycle
import GbEmu.Gpu.Cycle
import GbEmu.JoyPad
import GbEmu.Processor

/-!
The processor with what it is attached to: the bus and, by `GameBoy::Clock::tick`,
the timer, the graphics unit, the joypad and the link. The calls of `Clock::tick`
and the interrupts that they requested are kept beside the state.
-/

namespace GbEmu

/-- What the CPU thread meets: the writes of the memory controller, and what the
other threads have left at its `n`-th call of `Clock::tick`. -/
structure World where
  /-- `MemoryController::write`. -/
  write : Bus → UInt16 → UInt8 → Except Fault Bus
  joypad : Nat → JoyPad
  /-- The link thread before the call. -/
  link : Nat → LinkThread
  /-- The link thread at the end of a wait of `handlePending`. -/
  answer : Nat → LinkThread

structure Machine where
  cpu : Processor
  bus : Bus
  /-- The arguments of the calls of `Clock::tick` so far. -/
  ticks : List UInt8
  requests : List Interrupt

/-- The interrupt that an event of the graphics unit requests. -/
def Gpu.Event.request? : Gpu.Event → Option Interrupt
  | .interrupt source => some source
  | _ => none

namespace Machine

def onCpu (m : Machine) (f : Processor → Processor) : Machine := { m with cpu := f m.cpu }

def peek (m : Machine) (address : UInt16) : Except Fault UInt8 := m.bus.peek address

def setPc (m : Machine) (pc : UInt16) : Machine := m.onCpu fun p => { p with pc := pc }

def setSp (m : Machine) (sp : UInt16) : Machine := m.onCpu fun p => { p with sp := sp }

def setEnable (m : Machine) (enable : Bool) : Machine :=
  m.onCpu fun p => { p with enable := enable }

variable (w : World)

def write (m : Machine) (address : UInt16) (value : UInt8) : Except Fault Machine :=
  (w.write m.bus address value).map fun s => { m with bus := s }

/-- `GameBoy::Clock::tick`, less the wait for the timer thread. -/
def clockTick (m : Machine) (ticks : UInt8) : Except Fault Machine := do
  let n := m.ticks.length
  let (timer, s, raised) := m.cpu.timer.cycle m.bus ticks
  let (s, events) := s.cycle ticks
  let s := (w.joypad n).cycle s
  let s := { s with link := s.link.map (ConsoleLink.update · (w.link n)) }
  let (s, finished) ← s.cycleLink w.write (w.answer n) ticks
  pure
    { cpu := { m.cpu with timer := timer }
      bus := s
      ticks := m.ticks ++ [ticks]
      requests := m.requests ++ (raised ++ events.filterMap Gpu.Event.request? ++ finished) }

def cyclesPerTick : UInt8 := 4

/-- `CYCLES_PER_TICK >> speed`. -/
def adjustment (speed : ClockSpeed) : UInt8 := cyclesPerTick >>> UInt8.ofNat speed.toNat

/-- `Processor::tick`. -/
def tick (m : Machine) (ticks : UInt8) : Except Fault Machine :=
  m.clockTick w (ticks * adjustment m.cpu.timer.speed)

/-! ## The stack -/

def push (m : Machine) (value : UInt16) : Except Fault Machine := do
  let m := m.setSp (m.cpu.sp - 1)
  let m ← m.write w m.cpu.sp (Processor.upper value)
  let m := m.setSp (m.cpu.sp - 1)
  m.write w m.cpu.sp (Processor.lower value)

/-- The two reads of `pop`. -/
def pop (m : Machine) : Except Fault (UInt16 × Machine) := do
  let lower ← m.peek m.cpu.sp
  let upper ← m.peek (m.cpu.sp + 1)
  pure (Processor.pair upper lower, m.setSp (m.cpu.sp + 2))

/-! ## Handlers -/

def jump (m : Machine) (address : UInt16) : Except Fault Machine := (m.setPc address).tick w 1

def jumprel (m : Machine) : Except Fault Machine :=
  m.jump w (m.cpu.pc + Processor.signed m.cpu.operands.1)

def call (m : Machine) : Except Fault Machine := do
  let m ← m.push w m.cpu.pc
  (m.setPc m.cpu.args).tick w 3

def ret (m : Machine) (enable : Bool) : Except Fault Machine := do
  let (pc, m) ← m.pop
  let m := m.setPc pc
  let m := if enable then m.setEnable true else m
  m.tick w 3

def rst (m : Machine) (address : UInt8) : Except Fault Machine := do
  let m ← m.push w m.cpu.pc
  pure (m.setPc address.toUInt16)

/-- `loadMem` of a byte. -/
def loadMem (m : Machine) (ptr : UInt16) (value : UInt8) : Except Fault Machine :=
  m.write w ptr value

/-- `loadMem` of a pair. -/
def loadMem16 (m : Machine) (ptr value : UInt16) : Except Fault Machine := do
  let m ← m.write w ptr (Processor.lower value)
  m.write w (ptr + 1) (Processor.upper value)

/-- A handler of a byte by reference in its form for an address: a read, one more
M-cycle, and a write. -/
def onAddress (m : Machine) (address : UInt16) (ticks : UInt8)
    (handler : Processor.ByteHandler) : Except Fault Machine := do
  let m ← m.tick w ticks
  let value ← m.peek address
  let m ← m.tick w 1
  let (cpu, value) := handler m.cpu value
  { m with cpu := cpu }.write w address value

def stop (m : Machine) : Except Fault Machine :=
  if !m.bus.isCGB then pure m
  else do
    let current ← m.bus.read cgbSpeedSwitchAddress
    if current &&& 0x01 = 0 then pure m
    else
      let speed := if m.cpu.timer.speed = .normal then ClockSpeed.double else .normal
      let m ← m.write w cgbSpeedSwitchAddress (UInt8.ofNat speed.toNat <<< 7)
      pure (m.onCpu fun p => { p with timer := { p.timer with speed := speed } })

end Machine

end GbEmu
