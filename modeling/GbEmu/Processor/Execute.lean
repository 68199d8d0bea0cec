import GbEmu.Machine
import GbEmu.Processor.Opcodes

/-!
`Processor::cycle`: the interrupt dispatch, the fetch of an instruction and its
handler. An unknown opcode ends in `FATAL`, or without assertions in the use of a
null pointer; it has no result here.
-/

namespace GbEmu

namespace Machine

/-! ## Arguments -/

/-- The address, with the increment or decrement it comes with. -/
def pointer (m : Machine) (p : Pointer) : UInt16 × Machine :=
  match p with
  | .reg r => (m.cpu.get16 r, m)
  | .args => (m.cpu.args, m)
  | .highOperand => (0xFF00 + m.cpu.operands.1.toUInt16, m)
  | .highC => (0xFF00 + m.cpu.c.toUInt16, m)
  | .hlDec => (m.cpu.hl, m.onCpu (·.dec16 .hl))
  | .hlInc => (m.cpu.hl, m.onCpu (·.inc16 .hl))

def byteArg (m : Machine) (value : ByteArg) : Except Fault (UInt8 × Machine) :=
  match value with
  | .reg r => .ok (m.cpu.get8 r, m)
  | .operand => .ok (m.cpu.operands.1, m)
  | .peek p =>
    let (address, m) := m.pointer p
    (m.peek address).map fun byte => (byte, m)

def wordArg (m : Machine) : WordArg → UInt16
  | .reg r => m.cpu.get16 r
  | .args => m.cpu.args

def holds (m : Machine) : Condition → Bool
  | .always => true
  | .carry => m.cpu.isCarryFlagSet
  | .noCarry => !m.cpu.isCarryFlagSet
  | .zero => m.cpu.isZeroFlagSet
  | .notZero => !m.cpu.isZeroFlagSet

/-! ## Handlers -/

/-- A function of the processor called with a byte. -/
def withByte (m : Machine) (value : ByteArg) (f : Processor → UInt8 → Processor) :
    Except Fault Machine :=
  (m.byteArg value).map fun (byte, m) => m.onCpu (f · byte)

variable (w : World)

/-- `if (condition) { f(); }`. -/
def provided (m : Machine) (condition : Condition) (f : Machine → Except Fault Machine) :
    Except Fault Machine :=
  if m.holds condition then f m else .ok m

/-- A handler of a byte by reference, which waits `ticks` before it reads from memory. -/
def onTarget (m : Machine) (target : Target) (ticks : UInt8)
    (handler : Processor.ByteHandler) : Except Fault Machine :=
  match target with
  | .reg r => .ok (m.onCpu fun p => p.onRegister r handler)
  | .address => m.onAddress w m.cpu.hl ticks handler

/-- `operation->handler()`. -/
def handle (m : Machine) : Handler → Except Fault Machine
  | .nop => .ok m
  | .add8 value carry => m.withByte value fun p byte => p.add8 byte carry
  | .sub8 value carry => m.withByte value fun p byte => p.sub8 byte carry
  | .sbc value => m.withByte value Processor.sbc
  | .and8 value => m.withByte value Processor.and8
  | .or8 value => m.withByte value Processor.or8
  | .xor8 value => m.withByte value Processor.xor8
  | .compare value => m.withByte value Processor.compare
  | .compliment => .ok (m.onCpu Processor.compliment)
  | .daa => .ok (m.onCpu Processor.daa)
  | .ccf => .ok (m.onCpu Processor.ccf)
  | .scf => .ok (m.onCpu Processor.scf)
  | .add16 reg value => .ok (m.onCpu fun p => p.add16 reg (p.get16 value))
  | .add16Signed dest => .ok (m.onCpu fun p => p.add16Signed dest p.sp p.operands.1)
  | .inc16 reg => .ok (m.onCpu (·.inc16 reg))
  | .dec16 reg => .ok (m.onCpu (·.dec16 reg))
  | .inc target => m.onTarget w target 2 Processor.inc
  | .dec target => m.onTarget w target 2 Processor.dec
  | .swap target => m.onTarget w target 3 Processor.swap
  | .rotatel target wrap ignoreZero => m.onTarget w target 3 (Processor.rotatel wrap ignoreZero)
  | .rotater target wrap ignoreZero => m.onTarget w target 3 (Processor.rotater wrap ignoreZero)
  | .rlc target ignoreZero => m.onTarget w target 3 (Processor.rlc ignoreZero)
  | .rrc target ignoreZero => m.onTarget w target 3 (Processor.rrc ignoreZero)
  | .sla target => m.onTarget w target 3 Processor.sla
  | .sra target => m.onTarget w target 3 Processor.sra
  | .srl target => m.onTarget w target 3 Processor.srl
  | .res target which => m.onTarget w target 3 (Processor.res which)
  | .set target which => m.onTarget w target 3 (Processor.set which)
  | .bit value which => m.withByte value fun p byte => p.bit byte which
  | .ld reg value => m.withByte value fun p byte => p.set8 reg byte
  | .load reg value => .ok (m.onCpu fun p => p.set16 reg (m.wordArg value))
  | .loadMem ptr value => do
    let (address, m) := m.pointer ptr
    let (byte, m) ← m.byteArg value
    m.loadMem w address byte
  | .loadMem16 value => m.loadMem16 w m.cpu.args (m.cpu.get16 value)
  | .pop reg => m.pop.map fun (value, m) => m.onCpu (·.set16 reg value)
  | .push reg => m.push w (m.cpu.get16 reg)
  | .jump condition => m.provided condition fun m => m.jump w m.cpu.args
  | .jumpHl => m.jump w m.cpu.hl
  | .jumprel condition => m.provided condition fun m => m.jumprel w
  | .call condition => m.provided condition fun m => m.call w
  | .ret condition enable => m.provided condition fun m => m.ret w enable
  | .rst address => m.rst w address
  | .setEnable enable => .ok (m.setEnable enable)
  | .halt => .ok (m.onCpu fun p => { p with halted := true })
  | .stop => m.stop w

/-! ## The cycle -/

def cbPrefix : UInt8 := 0xCB

def romEntryPoint : UInt16 := 0x0100

/-- `m_memory.peek(pc++)`. -/
def fetch (m : Machine) : Except Fault (UInt8 × Machine) :=
  (m.peek m.cpu.pc).map fun byte => (byte, m.setPc (m.cpu.pc + 1))

/-- The entry of the table that the opcode, or after a prefix the next one, selects. -/
def entry (m : Machine) (opcode : UInt8) : Except Fault (Option Operation × Machine) :=
  if opcode = cbPrefix then m.fetch.map fun (opcode, m) => (Operation.cbOpcodes.lookup opcode, m)
  else .ok (Operation.opcodes.lookup opcode, m)

def lookup (m : Machine) (opcode : UInt8) : Except Fault (Operation × Machine) :=
  (m.entry opcode).bind fun
    | (none, _) => .error .assertFailed
    | (some operation, m) => .ok (operation, m)

def setOperand (p : Processor) (i : Nat) (byte : UInt8) : Processor :=
  { p with operands := if i = 0 then (byte, p.operands.2) else (p.operands.1, byte) }

/-- A pass of the loop that reads the operands. -/
def readOperand (m : Machine) (i : Nat) : Except Fault Machine :=
  m.fetch.map fun (byte, m) => m.onCpu (setOperand · i byte)

/-- `execute` from the ticks of the operation on. -/
def perform (m : Machine) (operation : Operation) : Except Fault Machine := do
  let m ← (if operation.cycles = 0 then pure m else m.tick w operation.cycles)
  let m ← m.handle w operation.handler
  pure (m.onCpu Processor.maskFlags)

def unlockBiosRegion (m : Machine) : Machine := { m with bus := { m.bus with inBios := false } }

def execute (m : Machine) (interrupted : Bool) : Except Fault Machine :=
  if m.cpu.halted && !interrupted then m.tick w 1
  else do
    let m := m.onCpu fun p => { p with halted := false, operands := (0x00, 0x00) }
    let m := if m.cpu.pc = romEntryPoint then m.unlockBiosRegion else m
    let (opcode, m) ← m.fetch
    let (operation, m) ← m.lookup opcode
    let m ← Run.run readOperand m (List.range (operation.length.toNat - 1))
    m.perform w operation

/-- The first interrupt in the order of priority that is requested and enabled. -/
def pending (m : Machine) : Option Interrupt :=
  let status := m.bus.zero interruptMaskAddress &&& m.bus.io interruptFlagsAddress
  Interrupt.priority.find? fun i => status &&& i.mask != 0

/-- `m_interrupts.status &= ~mask`. -/
def acknowledge (m : Machine) (i : Interrupt) : Machine :=
  let status := m.bus.io interruptFlagsAddress &&& ~~~i.mask
  { m with bus := m.bus.setIo interruptFlagsAddress status }

def interrupt (m : Machine) : Except Fault (Machine × Bool) :=
  if !m.cpu.enable && !m.cpu.halted then .ok (m, false)
  else
    match m.pending with
    | none => .ok (m, false)
    | some i =>
      if m.cpu.enable then
        (m.push w m.cpu.pc).map fun m =>
          (((m.setPc i.vector).acknowledge i).setEnable false, true)
      else .ok (m, true)

def cycle (m : Machine) : Except Fault Machine :=
  if !m.bus.inBios && !m.bus.isCartridgeValid then .ok m
  else do
    let (m, interrupted) ← m.interrupt w
    m.execute w interrupted

end Machine

end GbEmu
