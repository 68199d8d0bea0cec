import GbEmu.Bus.Plain
import GbEmu.Processor.Execute

/-!
The console as a program sees it while nothing interrupts it: registers and a flat
memory. Instructions have the handlers of the tables, without ticks; what lies outside
the memory of the program is either an input or an access that the view says nothing
about, and then the step has no result.
-/

namespace GbEmu

structure Core where
  cpu : Processor
  memory : UInt16 → UInt8

/-- The addresses that a program uses as memory. -/
structure Space where
  memory : UInt16 → Bool
  plain : ∀ a, memory a = true → Bus.isPlain a = true

namespace Core

def onCpu (c : Core) (f : Processor → Processor) : Core := { c with cpu := f c.cpu }

def setPc (c : Core) (pc : UInt16) : Core := c.onCpu fun p => { p with pc := pc }

def setSp (c : Core) (sp : UInt16) : Core := c.onCpu fun p => { p with sp := sp }

def setEnable (c : Core) (enable : Bool) : Core := c.onCpu fun p => { p with enable := enable }

/-- The address of a pointer, with the increment or decrement it comes with. -/
def pointer (c : Core) (p : Pointer) : UInt16 × Core :=
  match p with
  | .reg r => (c.cpu.get16 r, c)
  | .args => (c.cpu.args, c)
  | .highOperand => (0xFF00 + c.cpu.operands.1.toUInt16, c)
  | .highC => (0xFF00 + c.cpu.c.toUInt16, c)
  | .hlDec => (c.cpu.hl, c.onCpu (·.dec16 .hl))
  | .hlInc => (c.cpu.hl, c.onCpu (·.inc16 .hl))

def wordArg (c : Core) : WordArg → UInt16
  | .reg r => c.cpu.get16 r
  | .args => c.cpu.args

def holds (c : Core) : Condition → Bool
  | .always => true
  | .carry => c.cpu.isCarryFlagSet
  | .noCarry => !c.cpu.isCarryFlagSet
  | .zero => c.cpu.isZeroFlagSet
  | .notZero => !c.cpu.isZeroFlagSet

section Step

-- What the program reads outside its memory.
variable (space : Space) (inputs : UInt16 → Option UInt8)

def peek (c : Core) (address : UInt16) : Option UInt8 :=
  if space.memory address = true then some (c.memory address) else inputs address

def write (c : Core) (address : UInt16) (value : UInt8) : Option Core :=
  if space.memory address = true ∧ 0x8000 ≤ address.toNat then
    some { c with memory := Function.update c.memory address value }
  else none

def byteArg (c : Core) (value : ByteArg) : Option (UInt8 × Core) :=
  match value with
  | .reg r => some (c.cpu.get8 r, c)
  | .operand => some (c.cpu.operands.1, c)
  | .peek p =>
    let (address, c) := c.pointer p
    (c.peek space inputs address).map fun byte => (byte, c)

def withByte (c : Core) (value : ByteArg) (f : Processor → UInt8 → Processor) : Option Core :=
  (c.byteArg space inputs value).map fun (byte, c) => c.onCpu (f · byte)

def push (c : Core) (value : UInt16) : Option Core :=
  ((c.setSp (c.cpu.sp - 1)).write space (c.cpu.sp - 1) (Processor.upper value)).bind fun c =>
    (c.setSp (c.cpu.sp - 1)).write space (c.cpu.sp - 1) (Processor.lower value)

def pop (c : Core) : Option (UInt16 × Core) :=
  (c.peek space inputs c.cpu.sp).bind fun lower =>
    (c.peek space inputs (c.cpu.sp + 1)).bind fun upper =>
      some (Processor.pair upper lower, c.setSp (c.cpu.sp + 2))

def onTarget (c : Core) (target : Target) (handler : Processor.ByteHandler) : Option Core :=
  match target with
  | .reg r => some (c.onCpu fun p => p.onRegister r handler)
  | .address =>
    if space.memory c.cpu.hl = true then
      let (cpu, value) := handler c.cpu (c.memory c.cpu.hl)
      { c with cpu := cpu }.write space c.cpu.hl value
    else none

def provided (c : Core) (condition : Condition) (f : Core → Option Core) : Option Core :=
  if c.holds condition then f c else some c

def handle (c : Core) : Handler → Option Core
  | .nop => some c
  | .add8 value carry => c.withByte space inputs value fun p byte => p.add8 byte carry
  | .sub8 value carry => c.withByte space inputs value fun p byte => p.sub8 byte carry
  | .sbc value => c.withByte space inputs value Processor.sbc
  | .and8 value => c.withByte space inputs value Processor.and8
  | .or8 value => c.withByte space inputs value Processor.or8
  | .xor8 value => c.withByte space inputs value Processor.xor8
  | .compare value => c.withByte space inputs value Processor.compare
  | .compliment => some (c.onCpu Processor.compliment)
  | .daa => some (c.onCpu Processor.daa)
  | .ccf => some (c.onCpu Processor.ccf)
  | .scf => some (c.onCpu Processor.scf)
  | .add16 reg value => some (c.onCpu fun p => p.add16 reg (p.get16 value))
  | .add16Signed dest => some (c.onCpu fun p => p.add16Signed dest p.sp p.operands.1)
  | .inc16 reg => some (c.onCpu (·.inc16 reg))
  | .dec16 reg => some (c.onCpu (·.dec16 reg))
  | .inc target => c.onTarget space target Processor.inc
  | .dec target => c.onTarget space target Processor.dec
  | .swap target => c.onTarget space target Processor.swap
  | .rotatel target wrap ignoreZero =>
    c.onTarget space target (Processor.rotatel wrap ignoreZero)
  | .rotater target wrap ignoreZero =>
    c.onTarget space target (Processor.rotater wrap ignoreZero)
  | .rlc target ignoreZero => c.onTarget space target (Processor.rlc ignoreZero)
  | .rrc target ignoreZero => c.onTarget space target (Processor.rrc ignoreZero)
  | .sla target => c.onTarget space target Processor.sla
  | .sra target => c.onTarget space target Processor.sra
  | .srl target => c.onTarget space target Processor.srl
  | .res target which => c.onTarget space target (Processor.res which)
  | .set target which => c.onTarget space target (Processor.set which)
  | .bit value which => c.withByte space inputs value fun p byte => p.bit byte which
  | .ld reg value => c.withByte space inputs value fun p byte => p.set8 reg byte
  | .load reg value => some (c.onCpu fun p => p.set16 reg (c.wordArg value))
  | .loadMem ptr value =>
    let (address, c) := c.pointer ptr
    (c.byteArg space inputs value).bind fun (byte, c) => c.write space address byte
  | .loadMem16 value =>
    (c.write space c.cpu.args (Processor.lower (c.cpu.get16 value))).bind fun d =>
      d.write space (c.cpu.args + 1) (Processor.upper (c.cpu.get16 value))
  | .pop reg => (c.pop space inputs).map fun (value, c) => c.onCpu (·.set16 reg value)
  | .push reg => c.push space (c.cpu.get16 reg)
  | .jump condition => c.provided condition fun c => some (c.setPc c.cpu.args)
  | .jumpHl => some (c.setPc c.cpu.hl)
  | .jumprel condition => c.provided condition fun c =>
    some (c.setPc (c.cpu.pc + Processor.signed c.cpu.operands.1))
  | .call condition => c.provided condition fun c =>
    (c.push space c.cpu.pc).map fun c => c.setPc c.cpu.args
  | .ret condition enable => c.provided condition fun c =>
    (c.pop space inputs).map fun (pc, c) =>
      if enable then (c.setPc pc).setEnable true else c.setPc pc
  | .rst address => (c.push space c.cpu.pc).map fun c => c.setPc address.toUInt16
  | .setEnable enable => some (c.setEnable enable)
  | .halt => some (c.onCpu fun p => { p with halted := true })
  -- The clock speed is none of the view's business.
  | .stop => none

/-- An instruction is fetched from the memory of the program. -/
def fetch (c : Core) : Option (UInt8 × Core) :=
  if space.memory c.cpu.pc = true then some (c.memory c.cpu.pc, c.setPc (c.cpu.pc + 1)) else none

def lookup (c : Core) (opcode : UInt8) : Option (Operation × Core) :=
  if opcode = Machine.cbPrefix then
    (c.fetch space).bind fun (opcode, c) =>
      (Operation.cbOpcodes.lookup opcode).map fun operation => (operation, c)
  else (Operation.opcodes.lookup opcode).map fun operation => (operation, c)

def readOperand (c : Core) (i : Nat) : Option Core :=
  (c.fetch space).map fun (byte, c) => c.onCpu (Machine.setOperand · i byte)

/-- No interrupt can be dispatched, whatever the devices request. -/
def quiet (c : Core) : Bool :=
  !c.cpu.enable ||
    (space.memory interruptMaskAddress && c.memory interruptMaskAddress &&& 0x1F == 0)

/-- The instruction at PC, up to its handler. -/
def instruction (c : Core) : Option (Operation × Core) :=
  ((c.onCpu fun p => { p with operands := (0x00, 0x00) }).fetch space).bind fun (opcode, c) =>
    (c.lookup space opcode).bind fun (operation, c) =>
      ((List.range (operation.length.toNat - 1)).foldlM (readOperand space) c).map fun c =>
        (operation, c)

/-- An instruction. The first one of the cartridge takes the BIOS away, and the view with it. -/
def step (c : Core) : Option Core :=
  if c.cpu.halted = false ∧ c.cpu.pc ≠ Machine.romEntryPoint ∧ c.quiet space = true then
    (c.instruction space).bind fun (operation, c) =>
      (c.handle space inputs operation.handler).map (·.onCpu Processor.maskFlags)
  else none

end Step

/-- `n` steps; the inputs may be others at each. -/
def steps (space : Space) (inputs : Nat → UInt16 → Option UInt8) (c : Core) (n : Nat) :
    Option Core :=
  (List.range n).foldlM (fun c k => c.step space (inputs k)) c

end Core

end GbEmu
