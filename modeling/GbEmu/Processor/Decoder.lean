import Mathlib.Algebra.GroupWithZero.Nat
import GbEmu.Lib.Table
import GbEmu.Processor.Alu
import GbEmu.Processor.Execute

/-!
The encoding behind the tables of `opcodes.cpp`: the low three bits of an opcode
name its operand, the bits above them the operation. `Instruction.run` executes
what they say with one rule for registers and one for the byte at HL; every entry of
the tables in these blocks does the same.
-/

namespace GbEmu

/-- The instructions of the opcodes 0x40 to 0xBF and of those after a prefix. -/
inductive Instruction
  | ld (dest src : Target)
  | alu (op : Alu) (src : Target)
  | shift (op : Shift) (x : Target)
  | bit (k : Fin 8) (x : Target)
  | res (k : Fin 8) (x : Target)
  | set (k : Fin 8) (x : Target)
  deriving DecidableEq, Repr

namespace Instruction

/-! ## The encoding -/

/-- B, C, D, E, H, L, (HL) and A. -/
def operand (b : UInt8) : Target :=
  match b.toNat % 8 with
  | 0 => .reg .b
  | 1 => .reg .c
  | 2 => .reg .d
  | 3 => .reg .e
  | 4 => .reg .h
  | 5 => .reg .l
  | 6 => .address
  | _ => .reg .a

/-- The field above the operand. -/
def field (b : UInt8) : Fin 8 := ⟨b.toNat / 8 % 8, Nat.mod_lt _ (by decide)⟩

def alus (k : Fin 8) : Alu :=
  match k with
  | 0 => .add
  | 1 => .adc
  | 2 => .sub
  | 3 => .sbc
  | 4 => .and
  | 5 => .xor
  | 6 => .or
  | 7 => .cp

def shifts (k : Fin 8) : Shift :=
  match k with
  | 0 => .rlc
  | 1 => .rrc
  | 2 => .rl
  | 3 => .rr
  | 4 => .sla
  | 5 => .sra
  | 6 => .swap
  | 7 => .srl

/-- An opcode from 0x40 to 0xBF. -/
def decode (b : UInt8) : Instruction :=
  if b < 0x80 then .ld (operand (b / 8)) (operand b) else .alu (alus (field b)) (operand b)

/-- An opcode after the prefix. -/
def decodeCb (b : UInt8) : Instruction :=
  if b < 0x40 then .shift (shifts (field b)) (operand b)
  else if b < 0x80 then .bit (field b) (operand b)
  else if b < 0xC0 then .res (field b) (operand b)
  else .set (field b) (operand b)

/-! ## The meaning -/

/-- The M-cycles of an instruction. -/
def cycles : Instruction → UInt8
  | ld dest src => if dest = .address ∨ src = .address then 2 else 1
  | alu _ src => if src = .address then 2 else 1
  | bit _ x => if x = .address then 3 else 2
  | shift _ x | res _ x | set _ x => if x = .address then 4 else 2

variable (w : World)

def readOperand (m : Machine) : Target → Except Fault UInt8
  | .reg r => .ok (m.cpu.get8 r)
  | .address => m.peek m.cpu.hl

def writeOperand (m : Machine) (x : Target) (value : UInt8) : Except Fault Machine :=
  match x with
  | .reg r => .ok (m.onCpu (·.set8 r value))
  | .address => m.write w m.cpu.hl value

/-- Nothing of F but its four flags. -/
def keepFlags (m : Machine) : Machine := m.onCpu fun p => p.setFlags p.flags.toByte

/-- An operation on the operand in place: in memory the read comes one M-cycle
before the end, and the write at the end. -/
def inPlace (m : Machine) (x : Target) (cycles : UInt8) (op : Processor.ByteHandler) :
    Except Fault Machine :=
  match x with
  | .reg r => do
    let m ← m.tick w cycles
    let (cpu, value) := op m.cpu (m.cpu.get8 r)
    pure { m with cpu := cpu.set8 r value }
  | .address => do
    let address := m.cpu.hl
    let m ← m.tick w (cycles - 1)
    let value ← m.peek address
    let m ← m.tick w 1
    let (cpu, value) := op m.cpu value
    { m with cpu := cpu }.write w address value

def run (m : Machine) (i : Instruction) : Except Fault Machine :=
  match i with
  | ld dest src => do
    let m ← m.tick w i.cycles
    let value ← readOperand m src
    let m ← writeOperand w m dest value
    pure (keepFlags m)
  | alu op src => do
    let m ← m.tick w i.cycles
    let value ← readOperand m src
    pure (m.onCpu fun p => p.accumulate (op.run p.a value p.isCarryFlagSet))
  | shift op x => inPlace w m x i.cycles (Processor.shifted op)
  | bit k x => do
    let m ← m.tick w i.cycles
    let value ← readOperand m x
    let z := decide (bitOf value k = 0)
    pure (m.onCpu fun p => p.setFlags (Flags.toByte ⟨z, false, true, p.isCarryFlagSet⟩))
  | res k x => inPlace w m x i.cycles fun p value =>
    (p.setFlags p.flags.toByte, resetBit value k)
  | set k x => inPlace w m x i.cycles fun p value =>
    (p.setFlags p.flags.toByte, setBit value k)

/-! ## The tables -/

/-- The operand as the tables name it when a handler takes its value. -/
def byteArg : Target → ByteArg
  | .reg r => .reg r
  | .address => .peek (.reg .hl)

def aluHandler (op : Alu) (value : ByteArg) : Handler :=
  match op with
  | .add => .add8 value false
  | .adc => .add8 value true
  | .sub => .sub8 value false
  | .sbc => .sbc value
  | .and => .and8 value
  | .xor => .xor8 value
  | .or => .or8 value
  | .cp => .compare value

def shiftHandler (op : Shift) (x : Target) : Handler :=
  match op with
  | .rlc => .rlc x false
  | .rrc => .rrc x false
  | .rl => .rotatel x true false
  | .rr => .rotater x true false
  | .sla => .sla x
  | .sra => .sra x
  | .swap => .swap x
  | .srl => .srl x

/-- What the tables hold for an instruction: a handler that works on memory in place
waits by itself. -/
def entry (i : Instruction) : Operation :=
  match i with
  | ld (.reg r) src => ⟨.ld r (byteArg src), 1, i.cycles⟩
  | ld .address (.reg r) => ⟨.loadMem (.reg .hl) (.reg r), 1, i.cycles⟩
  | ld .address .address => ⟨.halt, 1, 1⟩
  | alu op src => ⟨aluHandler op (byteArg src), 1, i.cycles⟩
  | bit k x => ⟨.bit (byteArg x) (UInt8.ofNat k.val), 1, i.cycles⟩
  | shift op x => ⟨shiftHandler op x, 1, if x = .address then 0 else 2⟩
  | res k x => ⟨.res x (UInt8.ofNat k.val), 1, if x = .address then 0 else 2⟩
  | set k x => ⟨.set x (UInt8.ofNat k.val), 1, if x = .address then 0 else 2⟩

set_option maxRecDepth 4000 in
/-- Every opcode but the prefix and the illegal ones has an entry, in the regular block
that of its instruction. -/
theorem opcodes_regular :
    Table.keys Operation.opcodes =
        2 ^ 256 - 1 - 2 ^ 0xCB - (Operation.illegalOpcodes.map fun b => 2 ^ b.toNat).sum ∧
      ∀ entry ∈ Operation.opcodes, 0x40 ≤ entry.1 ∧ entry.1 ≤ 0xBF →
        entry.2 = (decode entry.1).entry := by
  decide

set_option maxRecDepth 4000 in
theorem cbOpcodes_regular :
    Table.keys Operation.cbOpcodes = 2 ^ 256 - 1 ∧
      ∀ entry ∈ Operation.cbOpcodes, True → entry.2 = (decodeCb entry.1).entry := by
  decide

set_option maxRecDepth 4000 in
theorem lookup_opcodes {b : UInt8} (hlow : 0x40 ≤ b) (hhigh : b ≤ 0xBF) :
    Operation.opcodes.lookup b = some (decode b).entry := by
  refine Table.lookup_eq (P := fun b => 0x40 ≤ b ∧ b ≤ 0xBF) (f := fun b => (decode b).entry)
    opcodes_regular.2 ⟨hlow, hhigh⟩ ?_
  have hall : ∀ n < 256, 0x40 ≤ n → n ≤ 0xBF → (2 ^ 256 - 1 - 2 ^ 0xCB -
      (Operation.illegalOpcodes.map fun b : UInt8 => 2 ^ b.toNat).sum).testBit n = true := by
    decide
  rw [opcodes_regular.1]
  exact hall b.toNat b.toNat_lt hlow hhigh

theorem lookup_cbOpcodes (b : UInt8) : Operation.cbOpcodes.lookup b = some (decodeCb b).entry := by
  refine Table.lookup_eq (P := fun _ => True) (f := fun b => (decodeCb b).entry)
    cbOpcodes_regular.2 trivial ?_
  rw [cbOpcodes_regular.1, Nat.testBit_two_pow_sub_one]
  exact decide_eq_true b.toNat_lt

/-! ## The entries -/

section Perform

variable {w : World} (m : Machine)

theorem perform_eq {operation : Operation} (h : operation.cycles ≠ 0) :
    m.perform w operation = (m.tick w operation.cycles).bind fun m =>
      (m.handle w operation.handler).map (·.onCpu Processor.maskFlags) := by
  unfold Machine.perform
  rw [if_neg h]
  rfl

theorem perform_zero {handler : Handler} :
    m.perform w ⟨handler, 1, 0⟩ = (m.handle w handler).map (·.onCpu Processor.maskFlags) := rfl

theorem withByte_byteArg (x : Target) (f : Processor → UInt8 → Processor) :
    (m.withByte (byteArg x) f).map (·.onCpu Processor.maskFlags) =
      (readOperand m x).map fun value => m.onCpu fun p => (f p value).maskFlags := by
  cases x with
  | reg r => rfl
  | address =>
    show (((m.peek m.cpu.hl).map fun byte => (byte, m)).map _).map _ = (m.peek m.cpu.hl).map _
    cases m.peek m.cpu.hl <;> rfl

theorem set8_maskFlags (p : Processor) (r : Reg8) (value : UInt8) :
    (p.set8 r value).maskFlags = p.maskFlags.set8 r value := by
  cases r <;> rfl

theorem map_bind {α β γ : Type} (x : Except Fault α) (f : α → Except Fault β) (g : β → γ) :
    (x.bind f).map g = x.bind fun a => (f a).map g := by
  cases x <;> rfl

theorem write_map (cpu : Processor) (f : Processor → Processor) (address : UInt16)
    (value : UInt8) :
    ({ m with cpu := cpu }.write w address value).map (fun m : Machine => m.onCpu f) =
      { m with cpu := f cpu }.write w address value := by
  show ((w.write m.bus address value).map _).map _ = (w.write m.bus address value).map _
  cases w.write m.bus address value <;> rfl

/-- The entries that work on their operand in place. -/
theorem perform_inPlace {x : Target} {handler : Handler} {byteHandler op : Processor.ByteHandler}
    (hhandle : ∀ m : Machine, m.handle w handler = m.onTarget w x 3 byteHandler)
    (hop : Processor.masked byteHandler = op) :
    m.perform w ⟨handler, 1, if x = .address then 0 else 2⟩ =
      inPlace w m x (if x = .address then 4 else 2) op := by
  subst hop
  cases x with
  | reg r =>
    rw [if_neg nofun, if_neg nofun, perform_eq m (by decide : (2 : UInt8) ≠ 0)]
    unfold inPlace
    congr 1
    funext m
    rw [hhandle]
    show Except.ok (m.onCpu fun p => (p.onRegister r byteHandler).maskFlags) = _
    simp only [Processor.onRegister, set8_maskFlags]
    rfl
  | address =>
    rw [if_pos rfl, if_pos rfl, perform_zero, hhandle]
    show Except.map _ (m.onAddress w m.cpu.hl 3 byteHandler) = _
    simp only [Machine.onAddress, bind, map_bind, write_map]
    rfl

/-- The entries that take the value of their operand. -/
theorem perform_value {x : Target} {handler : Handler} {cycles : UInt8} (hcycles : cycles ≠ 0)
    {f g : Processor → UInt8 → Processor}
    (hhandle : ∀ m : Machine, m.handle w handler = m.withByte (byteArg x) f)
    (hf : ∀ p value, (f p value).maskFlags = g p value) :
    m.perform w ⟨handler, 1, cycles⟩ = (m.tick w cycles).bind fun m =>
      (readOperand m x).bind fun value => .ok (m.onCpu (g · value)) := by
  rw [perform_eq m hcycles]
  congr 1
  funext m
  rw [hhandle, withByte_byteArg]
  simp only [hf]
  cases readOperand m x <;> rfl

theorem cycles_ne_zero (i : Instruction) : i.cycles ≠ 0 := by
  cases i <;> simp only [cycles] <;> split_ifs <;> decide

theorem perform_alu (op : Alu) (src : Target) :
    m.perform w (alu op src).entry = run w m (alu op src) := by
  have hvalue : ∀ (f : Processor → UInt8 → Processor),
      (∀ m : Machine, m.handle w (aluHandler op (byteArg src)) = m.withByte (byteArg src) f) →
      (∀ p value, (f p value).maskFlags =
        p.accumulate (op.run p.a value p.isCarryFlagSet)) →
      m.perform w (alu op src).entry = run w m (alu op src) :=
    fun f hhandle hf => perform_value m (cycles_ne_zero (alu op src)) hhandle hf
  cases op with
  | add => exact hvalue _ (fun _ => rfl) fun p value => p.add8_eq value false
  | adc => exact hvalue _ (fun _ => rfl) fun p value => p.add8_eq value true
  | sub => exact hvalue _ (fun _ => rfl) fun p value => p.sub8_eq value false
  | sbc => exact hvalue _ (fun _ => rfl) fun p value => p.sbc_eq value
  | and => exact hvalue _ (fun _ => rfl) fun p value => p.and8_eq value
  | xor => exact hvalue _ (fun _ => rfl) fun p value => p.xor8_eq value
  | or => exact hvalue _ (fun _ => rfl) fun p value => p.or8_eq value
  | cp => exact hvalue _ (fun _ => rfl) fun p value => p.compare_eq value

theorem perform_shift (op : Shift) (x : Target) :
    m.perform w (shift op x).entry = run w m (shift op x) := by
  cases op with
  | rlc => exact perform_inPlace m (fun _ => rfl) Processor.rlc_eq
  | rrc => exact perform_inPlace m (fun _ => rfl) Processor.rrc_eq
  | rl => exact perform_inPlace m (fun _ => rfl) Processor.rotatel_eq
  | rr => exact perform_inPlace m (fun _ => rfl) Processor.rotater_eq
  | sla => exact perform_inPlace m (fun _ => rfl) Processor.sla_eq
  | sra => exact perform_inPlace m (fun _ => rfl) Processor.sra_eq
  | swap => exact perform_inPlace m (fun _ => rfl) Processor.swap_eq
  | srl => exact perform_inPlace m (fun _ => rfl) Processor.srl_eq

theorem keepFlags_eq : keepFlags m = m.onCpu Processor.maskFlags := by
  simp only [keepFlags, Processor.toByte_flags]
  rfl

theorem perform_ld {dest src : Target} (h : ¬ (dest = .address ∧ src = .address)) :
    m.perform w (ld dest src).entry = run w m (ld dest src) := by
  cases dest with
  | reg r =>
    refine (perform_value (x := src) m (cycles_ne_zero (ld (.reg r) src)) (fun _ => rfl)
      fun _ _ => rfl).trans ?_
    simp only [run, writeOperand, keepFlags_eq]
    rfl
  | address =>
    cases src with
    | reg r =>
      refine (perform_eq m (cycles_ne_zero (ld .address (.reg r)))).trans ?_
      unfold run
      congr 1
      funext m
      simp only [keepFlags_eq]
      show (m.write w m.cpu.hl (m.cpu.get8 r)).map _ = (m.write w m.cpu.hl (m.cpu.get8 r)).bind _
      cases m.write w m.cpu.hl (m.cpu.get8 r) <;> rfl
    | address => exact absurd ⟨rfl, rfl⟩ h

/-- **The entry of an instruction does what the instruction says.** -/
theorem perform_entry {i : Instruction} (h : i ≠ ld .address .address) :
    m.perform w i.entry = run w m i := by
  cases i with
  | ld dest src => exact perform_ld m fun hboth => h (by rw [hboth.1, hboth.2])
  | alu op src => exact perform_alu m op src
  | shift op x => exact perform_shift m op x
  | bit k x =>
    exact perform_value m (cycles_ne_zero (bit k x)) (fun _ => rfl) fun p value => p.bit_eq value k
  | res k x => exact perform_inPlace m (fun _ => rfl) (Processor.res_eq k)
  | set k x => exact perform_inPlace m (fun _ => rfl) (Processor.set_eq k)

end Perform

/-- No instruction of these blocks has operands behind it. -/
theorem entry_length (i : Instruction) : i.entry.length = 1 := by
  cases i with
  | ld dest src =>
    cases dest with
    | reg r => rfl
    | address => cases src <;> rfl
  | _ => rfl

theorem operand_address {b : UInt8} (h : operand b = .address) : b.toNat % 8 = 6 := by
  unfold operand at h
  split at h <;> first | assumption | cases h

/-- Only the opcode of HALT would load from (HL) to (HL). -/
theorem decode_ne {b : UInt8} (hlow : 0x40 ≤ b) (hhalt : b ≠ 0x76) :
    decode b ≠ ld .address .address := by
  unfold decode
  split_ifs with hb
  · intro h
    rw [ld.injEq] at h
    have hdest := operand_address h.1
    have hsrc := operand_address h.2
    have hl : 64 ≤ b.toNat := hlow
    have hh : b.toNat < 128 := hb
    rw [UInt8.toNat_div] at hdest
    have hb' : b.toNat = 0x76 := by
      have hdiv : b.toNat / 8 % 8 = 6 := hdest
      omega
    exact hhalt (UInt8.toNat_inj.mp hb')
  · nofun

theorem decodeCb_ne (b : UInt8) : decodeCb b ≠ ld .address .address := by
  unfold decodeCb
  split_ifs <;> nofun

/-- **The tables follow the encoding**: in the two regular blocks every entry has the
effect of the instruction that its opcode encodes. -/
theorem tables_systematic (w : World) (m : Machine) :
    (∀ b : UInt8, 0x40 ≤ b → b ≤ 0xBF → b ≠ 0x76 →
      ∃ operation, Operation.opcodes.lookup b = some operation ∧ operation.length = 1 ∧
        m.perform w operation = run w m (decode b)) ∧
      ∀ b : UInt8, ∃ operation, Operation.cbOpcodes.lookup b = some operation ∧
        operation.length = 1 ∧ m.perform w operation = run w m (decodeCb b) := by
  constructor
  · intro b hlow hhigh hhalt
    exact ⟨_, lookup_opcodes hlow hhigh, entry_length _, perform_entry m (decode_ne hlow hhalt)⟩
  · intro b
    exact ⟨_, lookup_cbOpcodes b, entry_length _, perform_entry m (decodeCb_ne b)⟩

end Instruction

end GbEmu
