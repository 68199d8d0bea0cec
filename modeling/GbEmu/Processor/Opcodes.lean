import GbEmu.Processor

/-!
The instruction tables of `opcodes.cpp`. A handler there is a lambda that calls one
function of the processor; here it is the name of the function with its arguments,
in the order of the source, so that entries can be compared.
-/

namespace GbEmu

/-- An argument of type `uint16_t` that points into memory. -/
inductive Pointer
  | reg (r : Reg16)
  | args
  /-- `0xFF00` plus `m_operands[0]` or `m_gpr.c`. -/
  | highOperand
  | highC
  /-- `m_gpr.hl--` and `m_gpr.hl++`. -/
  | hlDec
  | hlInc
  deriving DecidableEq, Repr

/-- An argument of type `uint8_t`. -/
inductive ByteArg
  | reg (r : Reg8)
  /-- `m_operands[0]`. -/
  | operand
  | peek (p : Pointer)
  deriving DecidableEq, Repr

/-- An argument of type `uint16_t`. -/
inductive WordArg
  | reg (r : Reg16)
  | args
  deriving DecidableEq, Repr

/-- The byte that a handler changes: a register, or the one at `m_gpr.hl`. -/
inductive Target
  | reg (r : Reg8)
  | address
  deriving DecidableEq, Repr

inductive Condition
  | always
  | carry
  | noCarry
  | zero
  | notZero
  deriving DecidableEq, Repr

inductive Handler
  | nop
  | add8 (value : ByteArg) (carry : Bool)
  | sub8 (value : ByteArg) (carry : Bool)
  | sbc (value : ByteArg)
  | and8 (value : ByteArg)
  | or8 (value : ByteArg)
  | xor8 (value : ByteArg)
  | compare (value : ByteArg)
  | compliment
  | daa
  | ccf
  | scf
  | add16 (reg value : Reg16)
  | add16Signed (dest : Reg16)
  | inc16 (reg : Reg16)
  | dec16 (reg : Reg16)
  | inc (target : Target)
  | dec (target : Target)
  | swap (target : Target)
  | rotatel (target : Target) (wrap ignoreZero : Bool)
  | rotater (target : Target) (wrap ignoreZero : Bool)
  | rlc (target : Target) (ignoreZero : Bool)
  | rrc (target : Target) (ignoreZero : Bool)
  | sla (target : Target)
  | sra (target : Target)
  | srl (target : Target)
  | res (target : Target) (which : UInt8)
  | set (target : Target) (which : UInt8)
  | bit (value : ByteArg) (which : UInt8)
  /-- `m_gpr.r = value`. -/
  | ld (reg : Reg8) (value : ByteArg)
  /-- `load`, and the assignments of a pair. -/
  | load (reg : Reg16) (value : WordArg)
  | loadMem (ptr : Pointer) (value : ByteArg)
  | loadMem16 (value : Reg16)
  | pop (reg : Reg16)
  | push (reg : Reg16)
  | jump (condition : Condition)
  | jumpHl
  | jumprel (condition : Condition)
  | call (condition : Condition)
  | ret (condition : Condition) (enable : Bool)
  | rst (address : UInt8)
  | setEnable (enable : Bool)
  | halt
  | stop
  deriving DecidableEq, Repr

/-- An entry of the tables, less its name, which only the logs print. -/
structure Operation where
  handler : Handler
  length : UInt8
  cycles : UInt8
  deriving DecidableEq, Repr

namespace Operation

def opcodes : List (UInt8 × Operation) :=
  [(0x00, ⟨.nop, 1, 1⟩), (0xCE, ⟨.add8 .operand true, 2, 2⟩), (0x8F, ⟨.add8 (.reg .a) true, 1, 1⟩),
    (0x88, ⟨.add8 (.reg .b) true, 1, 1⟩), (0x89, ⟨.add8 (.reg .c) true, 1, 1⟩),
    (0x8A, ⟨.add8 (.reg .d) true, 1, 1⟩), (0x8B, ⟨.add8 (.reg .e) true, 1, 1⟩),
    (0x8C, ⟨.add8 (.reg .h) true, 1, 1⟩), (0x8D, ⟨.add8 (.reg .l) true, 1, 1⟩),
    (0x8E, ⟨.add8 (.peek (.reg .hl)) true, 1, 2⟩), (0xC6, ⟨.add8 .operand false, 2, 2⟩),
    (0x87, ⟨.add8 (.reg .a) false, 1, 1⟩), (0x80, ⟨.add8 (.reg .b) false, 1, 1⟩),
    (0x81, ⟨.add8 (.reg .c) false, 1, 1⟩), (0x82, ⟨.add8 (.reg .d) false, 1, 1⟩),
    (0x83, ⟨.add8 (.reg .e) false, 1, 1⟩), (0x84, ⟨.add8 (.reg .h) false, 1, 1⟩),
    (0x85, ⟨.add8 (.reg .l) false, 1, 1⟩), (0x86, ⟨.add8 (.peek (.reg .hl)) false, 1, 2⟩),
    (0x09, ⟨.add16 .hl .bc, 1, 2⟩), (0x19, ⟨.add16 .hl .de, 1, 2⟩), (0x29, ⟨.add16 .hl .hl, 1, 2⟩),
    (0x39, ⟨.add16 .hl .sp, 1, 2⟩), (0xE8, ⟨.add16Signed .sp, 2, 4⟩),
    (0xE6, ⟨.and8 .operand, 2, 2⟩), (0xA7, ⟨.and8 (.reg .a), 1, 1⟩),
    (0xA0, ⟨.and8 (.reg .b), 1, 1⟩), (0xA1, ⟨.and8 (.reg .c), 1, 1⟩),
    (0xA2, ⟨.and8 (.reg .d), 1, 1⟩), (0xA3, ⟨.and8 (.reg .e), 1, 1⟩),
    (0xA4, ⟨.and8 (.reg .h), 1, 1⟩), (0xA5, ⟨.and8 (.reg .l), 1, 1⟩),
    (0xA6, ⟨.and8 (.peek (.reg .hl)), 1, 2⟩), (0xCD, ⟨.call .always, 3, 3⟩),
    (0xDC, ⟨.call .carry, 3, 3⟩), (0xD4, ⟨.call .noCarry, 3, 3⟩), (0xCC, ⟨.call .zero, 3, 3⟩),
    (0xC4, ⟨.call .notZero, 3, 3⟩), (0x3F, ⟨.ccf, 1, 1⟩), (0xFE, ⟨.compare .operand, 2, 2⟩),
    (0xBF, ⟨.compare (.reg .a), 1, 1⟩), (0xB8, ⟨.compare (.reg .b), 1, 1⟩),
    (0xB9, ⟨.compare (.reg .c), 1, 1⟩), (0xBA, ⟨.compare (.reg .d), 1, 1⟩),
    (0xBB, ⟨.compare (.reg .e), 1, 1⟩), (0xBC, ⟨.compare (.reg .h), 1, 1⟩),
    (0xBD, ⟨.compare (.reg .l), 1, 1⟩), (0xBE, ⟨.compare (.peek (.reg .hl)), 1, 2⟩),
    (0x2F, ⟨.compliment, 1, 1⟩), (0x27, ⟨.daa, 1, 1⟩), (0x35, ⟨.dec .address, 1, 0⟩),
    (0x3D, ⟨.dec (.reg .a), 1, 1⟩), (0x05, ⟨.dec (.reg .b), 1, 1⟩), (0x0B, ⟨.dec16 .bc, 1, 2⟩),
    (0x0D, ⟨.dec (.reg .c), 1, 1⟩), (0x15, ⟨.dec (.reg .d), 1, 1⟩), (0x1B, ⟨.dec16 .de, 1, 2⟩),
    (0x1D, ⟨.dec (.reg .e), 1, 1⟩), (0x25, ⟨.dec (.reg .h), 1, 1⟩), (0x2B, ⟨.dec16 .hl, 1, 2⟩),
    (0x2D, ⟨.dec (.reg .l), 1, 1⟩), (0x3B, ⟨.dec16 .sp, 1, 2⟩), (0xF3, ⟨.setEnable false, 1, 1⟩),
    (0xFB, ⟨.setEnable true, 1, 1⟩), (0x76, ⟨.halt, 1, 1⟩), (0x34, ⟨.inc .address, 1, 0⟩),
    (0x3C, ⟨.inc (.reg .a), 1, 1⟩), (0x04, ⟨.inc (.reg .b), 1, 1⟩), (0x03, ⟨.inc16 .bc, 1, 2⟩),
    (0x0C, ⟨.inc (.reg .c), 1, 1⟩), (0x14, ⟨.inc (.reg .d), 1, 1⟩), (0x13, ⟨.inc16 .de, 1, 2⟩),
    (0x1C, ⟨.inc (.reg .e), 1, 1⟩), (0x24, ⟨.inc (.reg .h), 1, 1⟩), (0x23, ⟨.inc16 .hl, 1, 2⟩),
    (0x2C, ⟨.inc (.reg .l), 1, 1⟩), (0x33, ⟨.inc16 .sp, 1, 2⟩), (0xC3, ⟨.jump .always, 3, 3⟩),
    (0xE9, ⟨.jumpHl, 1, 0⟩), (0xDA, ⟨.jump .carry, 3, 3⟩), (0xD2, ⟨.jump .noCarry, 3, 3⟩),
    (0xC2, ⟨.jump .notZero, 3, 3⟩), (0xCA, ⟨.jump .zero, 3, 3⟩), (0x18, ⟨.jumprel .always, 2, 2⟩),
    (0x38, ⟨.jumprel .carry, 2, 2⟩), (0x30, ⟨.jumprel .noCarry, 2, 2⟩),
    (0x20, ⟨.jumprel .notZero, 2, 2⟩), (0x28, ⟨.jumprel .zero, 2, 2⟩),
    (0x32, ⟨.loadMem .hlDec (.reg .a), 1, 2⟩), (0x22, ⟨.loadMem .hlInc (.reg .a), 1, 2⟩),
    (0xEA, ⟨.loadMem .args (.reg .a), 3, 4⟩), (0x08, ⟨.loadMem16 .sp, 3, 5⟩),
    (0xE0, ⟨.loadMem .highOperand (.reg .a), 2, 3⟩), (0x02, ⟨.loadMem (.reg .bc) (.reg .a), 1, 2⟩),
    (0xE2, ⟨.loadMem .highC (.reg .a), 1, 2⟩), (0x12, ⟨.loadMem (.reg .de) (.reg .a), 1, 2⟩),
    (0xFA, ⟨.ld .a (.peek .args), 3, 4⟩), (0x0A, ⟨.ld .a (.peek (.reg .bc)), 1, 2⟩),
    (0xF2, ⟨.ld .a (.peek .highC), 1, 2⟩), (0x1A, ⟨.ld .a (.peek (.reg .de)), 1, 2⟩),
    (0x3A, ⟨.ld .a (.peek .hlDec), 1, 2⟩), (0x2A, ⟨.ld .a (.peek .hlInc), 1, 2⟩),
    (0xF0, ⟨.ld .a (.peek .highOperand), 2, 3⟩), (0x3E, ⟨.ld .a .operand, 2, 2⟩),
    (0x7E, ⟨.ld .a (.peek (.reg .hl)), 1, 2⟩), (0x7F, ⟨.ld .a (.reg .a), 1, 1⟩),
    (0x78, ⟨.ld .a (.reg .b), 1, 1⟩), (0x79, ⟨.ld .a (.reg .c), 1, 1⟩),
    (0x7A, ⟨.ld .a (.reg .d), 1, 1⟩), (0x7B, ⟨.ld .a (.reg .e), 1, 1⟩),
    (0x7C, ⟨.ld .a (.reg .h), 1, 1⟩), (0x7D, ⟨.ld .a (.reg .l), 1, 1⟩),
    (0x06, ⟨.ld .b .operand, 2, 2⟩), (0x46, ⟨.ld .b (.peek (.reg .hl)), 1, 2⟩),
    (0x47, ⟨.ld .b (.reg .a), 1, 1⟩), (0x40, ⟨.ld .b (.reg .b), 1, 1⟩),
    (0x41, ⟨.ld .b (.reg .c), 1, 1⟩), (0x42, ⟨.ld .b (.reg .d), 1, 1⟩),
    (0x43, ⟨.ld .b (.reg .e), 1, 1⟩), (0x44, ⟨.ld .b (.reg .h), 1, 1⟩),
    (0x45, ⟨.ld .b (.reg .l), 1, 1⟩), (0x01, ⟨.load .bc .args, 3, 3⟩),
    (0x0E, ⟨.ld .c .operand, 2, 2⟩), (0x4E, ⟨.ld .c (.peek (.reg .hl)), 1, 2⟩),
    (0x4F, ⟨.ld .c (.reg .a), 1, 1⟩), (0x48, ⟨.ld .c (.reg .b), 1, 1⟩),
    (0x49, ⟨.ld .c (.reg .c), 1, 1⟩), (0x4A, ⟨.ld .c (.reg .d), 1, 1⟩),
    (0x4B, ⟨.ld .c (.reg .e), 1, 1⟩), (0x4C, ⟨.ld .c (.reg .h), 1, 1⟩),
    (0x4D, ⟨.ld .c (.reg .l), 1, 1⟩), (0x16, ⟨.ld .d .operand, 2, 2⟩),
    (0x56, ⟨.ld .d (.peek (.reg .hl)), 1, 2⟩), (0x57, ⟨.ld .d (.reg .a), 1, 1⟩),
    (0x50, ⟨.ld .d (.reg .b), 1, 1⟩), (0x51, ⟨.ld .d (.reg .c), 1, 1⟩),
    (0x52, ⟨.ld .d (.reg .d), 1, 1⟩), (0x53, ⟨.ld .d (.reg .e), 1, 1⟩),
    (0x54, ⟨.ld .d (.reg .h), 1, 1⟩), (0x55, ⟨.ld .d (.reg .l), 1, 1⟩),
    (0x11, ⟨.load .de .args, 3, 3⟩), (0x1E, ⟨.ld .e .operand, 2, 2⟩),
    (0x5E, ⟨.ld .e (.peek (.reg .hl)), 1, 2⟩), (0x5F, ⟨.ld .e (.reg .a), 1, 1⟩),
    (0x58, ⟨.ld .e (.reg .b), 1, 1⟩), (0x59, ⟨.ld .e (.reg .c), 1, 1⟩),
    (0x5A, ⟨.ld .e (.reg .d), 1, 1⟩), (0x5B, ⟨.ld .e (.reg .e), 1, 1⟩),
    (0x5C, ⟨.ld .e (.reg .h), 1, 1⟩), (0x5D, ⟨.ld .e (.reg .l), 1, 1⟩),
    (0x26, ⟨.ld .h .operand, 2, 2⟩), (0x66, ⟨.ld .h (.peek (.reg .hl)), 1, 2⟩),
    (0x67, ⟨.ld .h (.reg .a), 1, 1⟩), (0x60, ⟨.ld .h (.reg .b), 1, 1⟩),
    (0x61, ⟨.ld .h (.reg .c), 1, 1⟩), (0x62, ⟨.ld .h (.reg .d), 1, 1⟩),
    (0x63, ⟨.ld .h (.reg .e), 1, 1⟩), (0x64, ⟨.ld .h (.reg .h), 1, 1⟩),
    (0x65, ⟨.ld .h (.reg .l), 1, 1⟩), (0x2E, ⟨.ld .l .operand, 2, 2⟩),
    (0x6E, ⟨.ld .l (.peek (.reg .hl)), 1, 2⟩), (0x6F, ⟨.ld .l (.reg .a), 1, 1⟩),
    (0x68, ⟨.ld .l (.reg .b), 1, 1⟩), (0x69, ⟨.ld .l (.reg .c), 1, 1⟩),
    (0x6A, ⟨.ld .l (.reg .d), 1, 1⟩), (0x6B, ⟨.ld .l (.reg .e), 1, 1⟩),
    (0x6C, ⟨.ld .l (.reg .h), 1, 1⟩), (0x6D, ⟨.ld .l (.reg .l), 1, 1⟩),
    (0x36, ⟨.loadMem (.reg .hl) .operand, 2, 3⟩), (0x77, ⟨.loadMem (.reg .hl) (.reg .a), 1, 2⟩),
    (0x70, ⟨.loadMem (.reg .hl) (.reg .b), 1, 2⟩), (0x71, ⟨.loadMem (.reg .hl) (.reg .c), 1, 2⟩),
    (0x72, ⟨.loadMem (.reg .hl) (.reg .d), 1, 2⟩), (0x73, ⟨.loadMem (.reg .hl) (.reg .e), 1, 2⟩),
    (0x74, ⟨.loadMem (.reg .hl) (.reg .h), 1, 2⟩), (0x75, ⟨.loadMem (.reg .hl) (.reg .l), 1, 2⟩),
    (0x21, ⟨.load .hl .args, 3, 3⟩), (0x31, ⟨.load .sp .args, 3, 3⟩),
    (0xF8, ⟨.add16Signed .hl, 2, 3⟩), (0xF9, ⟨.load .sp (.reg .hl), 1, 2⟩),
    (0xF6, ⟨.or8 .operand, 2, 2⟩), (0xB6, ⟨.or8 (.peek (.reg .hl)), 1, 2⟩),
    (0xB7, ⟨.or8 (.reg .a), 1, 1⟩), (0xB0, ⟨.or8 (.reg .b), 1, 1⟩), (0xB1, ⟨.or8 (.reg .c), 1, 1⟩),
    (0xB2, ⟨.or8 (.reg .d), 1, 1⟩), (0xB3, ⟨.or8 (.reg .e), 1, 1⟩), (0xB4, ⟨.or8 (.reg .h), 1, 1⟩),
    (0xB5, ⟨.or8 (.reg .l), 1, 1⟩), (0xF1, ⟨.pop .af, 1, 3⟩), (0xC1, ⟨.pop .bc, 1, 3⟩),
    (0xD1, ⟨.pop .de, 1, 3⟩), (0xE1, ⟨.pop .hl, 1, 3⟩), (0xF5, ⟨.push .af, 1, 4⟩),
    (0xC5, ⟨.push .bc, 1, 4⟩), (0xD5, ⟨.push .de, 1, 4⟩), (0xE5, ⟨.push .hl, 1, 4⟩),
    (0xC9, ⟨.ret .always false, 1, 1⟩), (0xD8, ⟨.ret .carry false, 1, 2⟩),
    (0xD0, ⟨.ret .noCarry false, 1, 2⟩), (0xC0, ⟨.ret .notZero false, 1, 2⟩),
    (0xC8, ⟨.ret .zero false, 1, 2⟩), (0xD9, ⟨.ret .always true, 1, 1⟩),
    (0x17, ⟨.rotatel (.reg .a) true true, 1, 1⟩), (0x07, ⟨.rlc (.reg .a) true, 1, 1⟩),
    (0x1F, ⟨.rotater (.reg .a) true true, 1, 1⟩), (0x0F, ⟨.rrc (.reg .a) true, 1, 1⟩),
    (0xC7, ⟨.rst 0x00, 1, 4⟩), (0xCF, ⟨.rst 0x08, 1, 4⟩), (0xD7, ⟨.rst 0x10, 1, 4⟩),
    (0xDF, ⟨.rst 0x18, 1, 4⟩), (0xE7, ⟨.rst 0x20, 1, 4⟩), (0xEF, ⟨.rst 0x28, 1, 4⟩),
    (0xF7, ⟨.rst 0x30, 1, 4⟩), (0xFF, ⟨.rst 0x38, 1, 4⟩), (0x37, ⟨.scf, 1, 1⟩),
    (0x10, ⟨.stop, 1, 1⟩), (0xDE, ⟨.sbc .operand, 2, 2⟩), (0x9F, ⟨.sbc (.reg .a), 1, 1⟩),
    (0x98, ⟨.sbc (.reg .b), 1, 1⟩), (0x99, ⟨.sbc (.reg .c), 1, 1⟩), (0x9A, ⟨.sbc (.reg .d), 1, 1⟩),
    (0x9B, ⟨.sbc (.reg .e), 1, 1⟩), (0x9C, ⟨.sbc (.reg .h), 1, 1⟩), (0x9D, ⟨.sbc (.reg .l), 1, 1⟩),
    (0x9E, ⟨.sbc (.peek (.reg .hl)), 1, 2⟩), (0xD6, ⟨.sub8 .operand false, 2, 2⟩),
    (0x97, ⟨.sub8 (.reg .a) false, 1, 1⟩), (0x90, ⟨.sub8 (.reg .b) false, 1, 1⟩),
    (0x91, ⟨.sub8 (.reg .c) false, 1, 1⟩), (0x92, ⟨.sub8 (.reg .d) false, 1, 1⟩),
    (0x93, ⟨.sub8 (.reg .e) false, 1, 1⟩), (0x94, ⟨.sub8 (.reg .h) false, 1, 1⟩),
    (0x95, ⟨.sub8 (.reg .l) false, 1, 1⟩), (0x96, ⟨.sub8 (.peek (.reg .hl)) false, 1, 2⟩),
    (0xEE, ⟨.xor8 .operand, 2, 2⟩), (0xAF, ⟨.xor8 (.reg .a), 1, 1⟩),
    (0xA8, ⟨.xor8 (.reg .b), 1, 1⟩), (0xA9, ⟨.xor8 (.reg .c), 1, 1⟩),
    (0xAA, ⟨.xor8 (.reg .d), 1, 1⟩), (0xAB, ⟨.xor8 (.reg .e), 1, 1⟩),
    (0xAC, ⟨.xor8 (.reg .h), 1, 1⟩), (0xAD, ⟨.xor8 (.reg .l), 1, 1⟩),
    (0xAE, ⟨.xor8 (.peek (.reg .hl)), 1, 2⟩)]

def cbOpcodes : List (UInt8 × Operation) :=
  [(0x46, ⟨.bit (.peek (.reg .hl)) 0, 1, 3⟩), (0x47, ⟨.bit (.reg .a) 0, 1, 2⟩),
    (0x40, ⟨.bit (.reg .b) 0, 1, 2⟩), (0x41, ⟨.bit (.reg .c) 0, 1, 2⟩),
    (0x42, ⟨.bit (.reg .d) 0, 1, 2⟩), (0x43, ⟨.bit (.reg .e) 0, 1, 2⟩),
    (0x44, ⟨.bit (.reg .h) 0, 1, 2⟩), (0x45, ⟨.bit (.reg .l) 0, 1, 2⟩),
    (0x4E, ⟨.bit (.peek (.reg .hl)) 1, 1, 3⟩), (0x4F, ⟨.bit (.reg .a) 1, 1, 2⟩),
    (0x48, ⟨.bit (.reg .b) 1, 1, 2⟩), (0x49, ⟨.bit (.reg .c) 1, 1, 2⟩),
    (0x4A, ⟨.bit (.reg .d) 1, 1, 2⟩), (0x4B, ⟨.bit (.reg .e) 1, 1, 2⟩),
    (0x4C, ⟨.bit (.reg .h) 1, 1, 2⟩), (0x4D, ⟨.bit (.reg .l) 1, 1, 2⟩),
    (0x56, ⟨.bit (.peek (.reg .hl)) 2, 1, 3⟩), (0x57, ⟨.bit (.reg .a) 2, 1, 2⟩),
    (0x50, ⟨.bit (.reg .b) 2, 1, 2⟩), (0x51, ⟨.bit (.reg .c) 2, 1, 2⟩),
    (0x52, ⟨.bit (.reg .d) 2, 1, 2⟩), (0x53, ⟨.bit (.reg .e) 2, 1, 2⟩),
    (0x54, ⟨.bit (.reg .h) 2, 1, 2⟩), (0x55, ⟨.bit (.reg .l) 2, 1, 2⟩),
    (0x5E, ⟨.bit (.peek (.reg .hl)) 3, 1, 3⟩), (0x5F, ⟨.bit (.reg .a) 3, 1, 2⟩),
    (0x58, ⟨.bit (.reg .b) 3, 1, 2⟩), (0x59, ⟨.bit (.reg .c) 3, 1, 2⟩),
    (0x5A, ⟨.bit (.reg .d) 3, 1, 2⟩), (0x5B, ⟨.bit (.reg .e) 3, 1, 2⟩),
    (0x5C, ⟨.bit (.reg .h) 3, 1, 2⟩), (0x5D, ⟨.bit (.reg .l) 3, 1, 2⟩),
    (0x66, ⟨.bit (.peek (.reg .hl)) 4, 1, 3⟩), (0x67, ⟨.bit (.reg .a) 4, 1, 2⟩),
    (0x60, ⟨.bit (.reg .b) 4, 1, 2⟩), (0x61, ⟨.bit (.reg .c) 4, 1, 2⟩),
    (0x62, ⟨.bit (.reg .d) 4, 1, 2⟩), (0x63, ⟨.bit (.reg .e) 4, 1, 2⟩),
    (0x64, ⟨.bit (.reg .h) 4, 1, 2⟩), (0x65, ⟨.bit (.reg .l) 4, 1, 2⟩),
    (0x6E, ⟨.bit (.peek (.reg .hl)) 5, 1, 3⟩), (0x6F, ⟨.bit (.reg .a) 5, 1, 2⟩),
    (0x68, ⟨.bit (.reg .b) 5, 1, 2⟩), (0x69, ⟨.bit (.reg .c) 5, 1, 2⟩),
    (0x6A, ⟨.bit (.reg .d) 5, 1, 2⟩), (0x6B, ⟨.bit (.reg .e) 5, 1, 2⟩),
    (0x6C, ⟨.bit (.reg .h) 5, 1, 2⟩), (0x6D, ⟨.bit (.reg .l) 5, 1, 2⟩),
    (0x76, ⟨.bit (.peek (.reg .hl)) 6, 1, 3⟩), (0x77, ⟨.bit (.reg .a) 6, 1, 2⟩),
    (0x70, ⟨.bit (.reg .b) 6, 1, 2⟩), (0x71, ⟨.bit (.reg .c) 6, 1, 2⟩),
    (0x72, ⟨.bit (.reg .d) 6, 1, 2⟩), (0x73, ⟨.bit (.reg .e) 6, 1, 2⟩),
    (0x74, ⟨.bit (.reg .h) 6, 1, 2⟩), (0x75, ⟨.bit (.reg .l) 6, 1, 2⟩),
    (0x7E, ⟨.bit (.peek (.reg .hl)) 7, 1, 3⟩), (0x7F, ⟨.bit (.reg .a) 7, 1, 2⟩),
    (0x78, ⟨.bit (.reg .b) 7, 1, 2⟩), (0x79, ⟨.bit (.reg .c) 7, 1, 2⟩),
    (0x7A, ⟨.bit (.reg .d) 7, 1, 2⟩), (0x7B, ⟨.bit (.reg .e) 7, 1, 2⟩),
    (0x7C, ⟨.bit (.reg .h) 7, 1, 2⟩), (0x7D, ⟨.bit (.reg .l) 7, 1, 2⟩),
    (0x86, ⟨.res .address 0, 1, 0⟩), (0x87, ⟨.res (.reg .a) 0, 1, 2⟩),
    (0x80, ⟨.res (.reg .b) 0, 1, 2⟩), (0x81, ⟨.res (.reg .c) 0, 1, 2⟩),
    (0x82, ⟨.res (.reg .d) 0, 1, 2⟩), (0x83, ⟨.res (.reg .e) 0, 1, 2⟩),
    (0x84, ⟨.res (.reg .h) 0, 1, 2⟩), (0x85, ⟨.res (.reg .l) 0, 1, 2⟩),
    (0x8E, ⟨.res .address 1, 1, 0⟩), (0x8F, ⟨.res (.reg .a) 1, 1, 2⟩),
    (0x88, ⟨.res (.reg .b) 1, 1, 2⟩), (0x89, ⟨.res (.reg .c) 1, 1, 2⟩),
    (0x8A, ⟨.res (.reg .d) 1, 1, 2⟩), (0x8B, ⟨.res (.reg .e) 1, 1, 2⟩),
    (0x8C, ⟨.res (.reg .h) 1, 1, 2⟩), (0x8D, ⟨.res (.reg .l) 1, 1, 2⟩),
    (0x96, ⟨.res .address 2, 1, 0⟩), (0x97, ⟨.res (.reg .a) 2, 1, 2⟩),
    (0x90, ⟨.res (.reg .b) 2, 1, 2⟩), (0x91, ⟨.res (.reg .c) 2, 1, 2⟩),
    (0x92, ⟨.res (.reg .d) 2, 1, 2⟩), (0x93, ⟨.res (.reg .e) 2, 1, 2⟩),
    (0x94, ⟨.res (.reg .h) 2, 1, 2⟩), (0x95, ⟨.res (.reg .l) 2, 1, 2⟩),
    (0x9E, ⟨.res .address 3, 1, 0⟩), (0x9F, ⟨.res (.reg .a) 3, 1, 2⟩),
    (0x98, ⟨.res (.reg .b) 3, 1, 2⟩), (0x99, ⟨.res (.reg .c) 3, 1, 2⟩),
    (0x9A, ⟨.res (.reg .d) 3, 1, 2⟩), (0x9B, ⟨.res (.reg .e) 3, 1, 2⟩),
    (0x9C, ⟨.res (.reg .h) 3, 1, 2⟩), (0x9D, ⟨.res (.reg .l) 3, 1, 2⟩),
    (0xA6, ⟨.res .address 4, 1, 0⟩), (0xA7, ⟨.res (.reg .a) 4, 1, 2⟩),
    (0xA0, ⟨.res (.reg .b) 4, 1, 2⟩), (0xA1, ⟨.res (.reg .c) 4, 1, 2⟩),
    (0xA2, ⟨.res (.reg .d) 4, 1, 2⟩), (0xA3, ⟨.res (.reg .e) 4, 1, 2⟩),
    (0xA4, ⟨.res (.reg .h) 4, 1, 2⟩), (0xA5, ⟨.res (.reg .l) 4, 1, 2⟩),
    (0xAE, ⟨.res .address 5, 1, 0⟩), (0xAF, ⟨.res (.reg .a) 5, 1, 2⟩),
    (0xA8, ⟨.res (.reg .b) 5, 1, 2⟩), (0xA9, ⟨.res (.reg .c) 5, 1, 2⟩),
    (0xAA, ⟨.res (.reg .d) 5, 1, 2⟩), (0xAB, ⟨.res (.reg .e) 5, 1, 2⟩),
    (0xAC, ⟨.res (.reg .h) 5, 1, 2⟩), (0xAD, ⟨.res (.reg .l) 5, 1, 2⟩),
    (0xB6, ⟨.res .address 6, 1, 0⟩), (0xB7, ⟨.res (.reg .a) 6, 1, 2⟩),
    (0xB0, ⟨.res (.reg .b) 6, 1, 2⟩), (0xB1, ⟨.res (.reg .c) 6, 1, 2⟩),
    (0xB2, ⟨.res (.reg .d) 6, 1, 2⟩), (0xB3, ⟨.res (.reg .e) 6, 1, 2⟩),
    (0xB4, ⟨.res (.reg .h) 6, 1, 2⟩), (0xB5, ⟨.res (.reg .l) 6, 1, 2⟩),
    (0xBE, ⟨.res .address 7, 1, 0⟩), (0xBF, ⟨.res (.reg .a) 7, 1, 2⟩),
    (0xB8, ⟨.res (.reg .b) 7, 1, 2⟩), (0xB9, ⟨.res (.reg .c) 7, 1, 2⟩),
    (0xBA, ⟨.res (.reg .d) 7, 1, 2⟩), (0xBB, ⟨.res (.reg .e) 7, 1, 2⟩),
    (0xBC, ⟨.res (.reg .h) 7, 1, 2⟩), (0xBD, ⟨.res (.reg .l) 7, 1, 2⟩),
    (0x16, ⟨.rotatel .address true false, 1, 0⟩), (0x17, ⟨.rotatel (.reg .a) true false, 1, 2⟩),
    (0x10, ⟨.rotatel (.reg .b) true false, 1, 2⟩), (0x11, ⟨.rotatel (.reg .c) true false, 1, 2⟩),
    (0x12, ⟨.rotatel (.reg .d) true false, 1, 2⟩), (0x13, ⟨.rotatel (.reg .e) true false, 1, 2⟩),
    (0x14, ⟨.rotatel (.reg .h) true false, 1, 2⟩), (0x15, ⟨.rotatel (.reg .l) true false, 1, 2⟩),
    (0x06, ⟨.rlc .address false, 1, 0⟩), (0x07, ⟨.rlc (.reg .a) false, 1, 2⟩),
    (0x00, ⟨.rlc (.reg .b) false, 1, 2⟩), (0x01, ⟨.rlc (.reg .c) false, 1, 2⟩),
    (0x02, ⟨.rlc (.reg .d) false, 1, 2⟩), (0x03, ⟨.rlc (.reg .e) false, 1, 2⟩),
    (0x04, ⟨.rlc (.reg .h) false, 1, 2⟩), (0x05, ⟨.rlc (.reg .l) false, 1, 2⟩),
    (0x0E, ⟨.rrc .address false, 1, 0⟩), (0x0F, ⟨.rrc (.reg .a) false, 1, 2⟩),
    (0x08, ⟨.rrc (.reg .b) false, 1, 2⟩), (0x09, ⟨.rrc (.reg .c) false, 1, 2⟩),
    (0x0A, ⟨.rrc (.reg .d) false, 1, 2⟩), (0x0B, ⟨.rrc (.reg .e) false, 1, 2⟩),
    (0x0C, ⟨.rrc (.reg .h) false, 1, 2⟩), (0x0D, ⟨.rrc (.reg .l) false, 1, 2⟩),
    (0x1E, ⟨.rotater .address true false, 1, 0⟩), (0x1F, ⟨.rotater (.reg .a) true false, 1, 2⟩),
    (0x18, ⟨.rotater (.reg .b) true false, 1, 2⟩), (0x19, ⟨.rotater (.reg .c) true false, 1, 2⟩),
    (0x1A, ⟨.rotater (.reg .d) true false, 1, 2⟩), (0x1B, ⟨.rotater (.reg .e) true false, 1, 2⟩),
    (0x1C, ⟨.rotater (.reg .h) true false, 1, 2⟩), (0x1D, ⟨.rotater (.reg .l) true false, 1, 2⟩),
    (0xC6, ⟨.set .address 0, 1, 0⟩), (0xC7, ⟨.set (.reg .a) 0, 1, 2⟩),
    (0xC0, ⟨.set (.reg .b) 0, 1, 2⟩), (0xC1, ⟨.set (.reg .c) 0, 1, 2⟩),
    (0xC2, ⟨.set (.reg .d) 0, 1, 2⟩), (0xC3, ⟨.set (.reg .e) 0, 1, 2⟩),
    (0xC4, ⟨.set (.reg .h) 0, 1, 2⟩), (0xC5, ⟨.set (.reg .l) 0, 1, 2⟩),
    (0xCE, ⟨.set .address 1, 1, 0⟩), (0xCF, ⟨.set (.reg .a) 1, 1, 2⟩),
    (0xC8, ⟨.set (.reg .b) 1, 1, 2⟩), (0xC9, ⟨.set (.reg .c) 1, 1, 2⟩),
    (0xCA, ⟨.set (.reg .d) 1, 1, 2⟩), (0xCB, ⟨.set (.reg .e) 1, 1, 2⟩),
    (0xCC, ⟨.set (.reg .h) 1, 1, 2⟩), (0xCD, ⟨.set (.reg .l) 1, 1, 2⟩),
    (0xD6, ⟨.set .address 2, 1, 0⟩), (0xD7, ⟨.set (.reg .a) 2, 1, 2⟩),
    (0xD0, ⟨.set (.reg .b) 2, 1, 2⟩), (0xD1, ⟨.set (.reg .c) 2, 1, 2⟩),
    (0xD2, ⟨.set (.reg .d) 2, 1, 2⟩), (0xD3, ⟨.set (.reg .e) 2, 1, 2⟩),
    (0xD4, ⟨.set (.reg .h) 2, 1, 2⟩), (0xD5, ⟨.set (.reg .l) 2, 1, 2⟩),
    (0xDE, ⟨.set .address 3, 1, 0⟩), (0xDF, ⟨.set (.reg .a) 3, 1, 2⟩),
    (0xD8, ⟨.set (.reg .b) 3, 1, 2⟩), (0xD9, ⟨.set (.reg .c) 3, 1, 2⟩),
    (0xDA, ⟨.set (.reg .d) 3, 1, 2⟩), (0xDB, ⟨.set (.reg .e) 3, 1, 2⟩),
    (0xDC, ⟨.set (.reg .h) 3, 1, 2⟩), (0xDD, ⟨.set (.reg .l) 3, 1, 2⟩),
    (0xE6, ⟨.set .address 4, 1, 0⟩), (0xE7, ⟨.set (.reg .a) 4, 1, 2⟩),
    (0xE0, ⟨.set (.reg .b) 4, 1, 2⟩), (0xE1, ⟨.set (.reg .c) 4, 1, 2⟩),
    (0xE2, ⟨.set (.reg .d) 4, 1, 2⟩), (0xE3, ⟨.set (.reg .e) 4, 1, 2⟩),
    (0xE4, ⟨.set (.reg .h) 4, 1, 2⟩), (0xE5, ⟨.set (.reg .l) 4, 1, 2⟩),
    (0xEE, ⟨.set .address 5, 1, 0⟩), (0xEF, ⟨.set (.reg .a) 5, 1, 2⟩),
    (0xE8, ⟨.set (.reg .b) 5, 1, 2⟩), (0xE9, ⟨.set (.reg .c) 5, 1, 2⟩),
    (0xEA, ⟨.set (.reg .d) 5, 1, 2⟩), (0xEB, ⟨.set (.reg .e) 5, 1, 2⟩),
    (0xEC, ⟨.set (.reg .h) 5, 1, 2⟩), (0xED, ⟨.set (.reg .l) 5, 1, 2⟩),
    (0xF6, ⟨.set .address 6, 1, 0⟩), (0xF7, ⟨.set (.reg .a) 6, 1, 2⟩),
    (0xF0, ⟨.set (.reg .b) 6, 1, 2⟩), (0xF1, ⟨.set (.reg .c) 6, 1, 2⟩),
    (0xF2, ⟨.set (.reg .d) 6, 1, 2⟩), (0xF3, ⟨.set (.reg .e) 6, 1, 2⟩),
    (0xF4, ⟨.set (.reg .h) 6, 1, 2⟩), (0xF5, ⟨.set (.reg .l) 6, 1, 2⟩),
    (0xFE, ⟨.set .address 7, 1, 0⟩), (0xFF, ⟨.set (.reg .a) 7, 1, 2⟩),
    (0xF8, ⟨.set (.reg .b) 7, 1, 2⟩), (0xF9, ⟨.set (.reg .c) 7, 1, 2⟩),
    (0xFA, ⟨.set (.reg .d) 7, 1, 2⟩), (0xFB, ⟨.set (.reg .e) 7, 1, 2⟩),
    (0xFC, ⟨.set (.reg .h) 7, 1, 2⟩), (0xFD, ⟨.set (.reg .l) 7, 1, 2⟩),
    (0x26, ⟨.sla .address, 1, 0⟩), (0x27, ⟨.sla (.reg .a), 1, 2⟩), (0x20, ⟨.sla (.reg .b), 1, 2⟩),
    (0x21, ⟨.sla (.reg .c), 1, 2⟩), (0x22, ⟨.sla (.reg .d), 1, 2⟩), (0x23, ⟨.sla (.reg .e), 1, 2⟩),
    (0x24, ⟨.sla (.reg .h), 1, 2⟩), (0x25, ⟨.sla (.reg .l), 1, 2⟩), (0x2E, ⟨.sra .address, 1, 0⟩),
    (0x2F, ⟨.sra (.reg .a), 1, 2⟩), (0x28, ⟨.sra (.reg .b), 1, 2⟩), (0x29, ⟨.sra (.reg .c), 1, 2⟩),
    (0x2A, ⟨.sra (.reg .d), 1, 2⟩), (0x2B, ⟨.sra (.reg .e), 1, 2⟩), (0x2C, ⟨.sra (.reg .h), 1, 2⟩),
    (0x2D, ⟨.sra (.reg .l), 1, 2⟩), (0x36, ⟨.swap .address, 1, 0⟩), (0x37, ⟨.swap (.reg .a), 1, 2⟩),
    (0x30, ⟨.swap (.reg .b), 1, 2⟩), (0x31, ⟨.swap (.reg .c), 1, 2⟩),
    (0x32, ⟨.swap (.reg .d), 1, 2⟩), (0x33, ⟨.swap (.reg .e), 1, 2⟩),
    (0x34, ⟨.swap (.reg .h), 1, 2⟩), (0x35, ⟨.swap (.reg .l), 1, 2⟩), (0x3E, ⟨.srl .address, 1, 0⟩),
    (0x3F, ⟨.srl (.reg .a), 1, 2⟩), (0x38, ⟨.srl (.reg .b), 1, 2⟩), (0x39, ⟨.srl (.reg .c), 1, 2⟩),
    (0x3A, ⟨.srl (.reg .d), 1, 2⟩), (0x3B, ⟨.srl (.reg .e), 1, 2⟩), (0x3C, ⟨.srl (.reg .h), 1, 2⟩),
    (0x3D, ⟨.srl (.reg .l), 1, 2⟩)]

def illegalOpcodes : List UInt8 :=
  [0xD3, 0xDB, 0xDD, 0xE3, 0xE4, 0xEB, 0xEC, 0xED, 0xF4, 0xFC, 0xFD]

end Operation

end GbEmu
