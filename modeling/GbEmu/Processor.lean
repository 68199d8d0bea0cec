import GbEmu.Timer

/-!
The registers of `processor.cpp` and the handlers that work on nothing else. A
handler that takes a `uint8_t &` gets the byte and returns it with the flags, so
that it serves registers and the locals of the memory forms alike.
-/

namespace GbEmu

structure Processor where
  a : UInt8
  f : UInt8
  b : UInt8
  c : UInt8
  d : UInt8
  e : UInt8
  h : UInt8
  l : UInt8
  pc : UInt16
  sp : UInt16
  /-- `m_interrupts.enable`. -/
  enable : Bool
  halted : Bool
  operands : UInt8 × UInt8
  timer : TimerModule
  deriving DecidableEq, Repr

/-- The byte registers that handlers take. -/
inductive Reg8
  | a
  | b
  | c
  | d
  | e
  | h
  | l
  deriving DecidableEq, Repr

inductive Reg16
  | af
  | bc
  | de
  | hl
  | sp
  deriving DecidableEq, Repr

namespace Processor

/-- A byte pair as the union of `m_gpr` holds it. -/
def pair (upper lower : UInt8) : UInt16 := (upper.toUInt16 <<< 8) ||| lower.toUInt16

def upper (value : UInt16) : UInt8 := (value >>> 8).toUInt8

def lower (value : UInt16) : UInt8 := value.toUInt8

theorem toNat_pair (upper lower : UInt8) :
    (pair upper lower).toNat = upper.toNat * 256 + lower.toNat := BitField.toNat_join upper lower

theorem toNat_upper (value : UInt16) : (upper value).toNat = value.toNat / 256 := by
  have hlt := value.toNat_lt
  have hshift : (value >>> 8).toNat = value.toNat / 256 := by
    rw [UInt16.toNat_shiftRight]
    exact Nat.shiftRight_eq_div_pow _ 8
  rw [upper, UInt16.toNat_toUInt8, hshift]
  omega

theorem toNat_lower (value : UInt16) : (lower value).toNat = value.toNat % 256 :=
  UInt16.toNat_toUInt8 value

theorem pair_upper_lower (value : UInt16) : pair (upper value) (lower value) = value := by
  apply UInt16.toNat_inj.mp
  rw [toNat_pair, toNat_upper, toNat_lower]
  omega

def get8 (p : Processor) : Reg8 → UInt8
  | .a => p.a
  | .b => p.b
  | .c => p.c
  | .d => p.d
  | .e => p.e
  | .h => p.h
  | .l => p.l

def set8 (p : Processor) (r : Reg8) (value : UInt8) : Processor :=
  match r with
  | .a => { p with a := value }
  | .b => { p with b := value }
  | .c => { p with c := value }
  | .d => { p with d := value }
  | .e => { p with e := value }
  | .h => { p with h := value }
  | .l => { p with l := value }

def get16 (p : Processor) : Reg16 → UInt16
  | .af => pair p.a p.f
  | .bc => pair p.b p.c
  | .de => pair p.d p.e
  | .hl => pair p.h p.l
  | .sp => p.sp

def set16 (p : Processor) (r : Reg16) (value : UInt16) : Processor :=
  match r with
  | .af => { p with a := upper value, f := lower value }
  | .bc => { p with b := upper value, c := lower value }
  | .de => { p with d := upper value, e := lower value }
  | .hl => { p with h := upper value, l := lower value }
  | .sp => { p with sp := value }

def hl (p : Processor) : UInt16 := p.get16 .hl

def args (p : Processor) : UInt16 := pair p.operands.2 p.operands.1

/-! ## Flags -/

def zeroFlagMask : UInt8 := 0x80
def negFlagMask : UInt8 := 0x40
def halfCarryFlagMask : UInt8 := 0x20
def carryFlagMask : UInt8 := 0x10

def isFlagSet (p : Processor) (mask : UInt8) : Bool := p.f &&& mask != 0

def isZeroFlagSet (p : Processor) : Bool := p.isFlagSet zeroFlagMask
def isNegFlagSet (p : Processor) : Bool := p.isFlagSet negFlagMask
def isHalfCarryFlagSet (p : Processor) : Bool := p.isFlagSet halfCarryFlagMask
def isCarryFlagSet (p : Processor) : Bool := p.isFlagSet carryFlagMask

def setFlags (p : Processor) (flags : UInt8) : Processor := { p with f := flags }

def setFlag (p : Processor) (mask : UInt8) : Processor := p.setFlags (p.f ||| mask)
def clrFlag (p : Processor) (mask : UInt8) : Processor := p.setFlags (p.f &&& ~~~mask)

def setZeroFlag (p : Processor) : Processor := p.setFlag zeroFlagMask
def clrZeroFlag (p : Processor) : Processor := p.clrFlag zeroFlagMask

def setNegFlag (p : Processor) : Processor := p.setFlag negFlagMask
def clrNegFlag (p : Processor) : Processor := p.clrFlag negFlagMask

def setHalfCarryFlag (p : Processor) : Processor := p.setFlag halfCarryFlagMask
def clrHalfCarryFlag (p : Processor) : Processor := p.clrFlag halfCarryFlagMask

def setCarryFlag (p : Processor) : Processor := p.setFlag carryFlagMask
def clrCarryFlag (p : Processor) : Processor := p.clrFlag carryFlagMask

/-- `m_flags &= 0xF0`, after every handler. -/
def maskFlags (p : Processor) : Processor := p.setFlags (p.f &&& 0xF0)

/-- `if (c) { set }`. -/
def when (p : Processor) (c : Bool) (set : Processor → Processor) : Processor :=
  if c then set p else p

/-- `(c) ? set : clr`. -/
def choose (p : Processor) (c : Bool) (set clr : Processor → Processor) : Processor :=
  if c then set p else clr p

/-! ## The accumulator -/

def xor8 (p : Processor) (value : UInt8) : Processor :=
  let p := (p.setFlags 0x00).set8 .a (p.a ^^^ value)
  p.when (p.a == 0) setZeroFlag

def and8 (p : Processor) (value : UInt8) : Processor :=
  let p := (p.setFlags 0x00).set8 .a (p.a &&& value)
  (p.when (p.a == 0) setZeroFlag).setHalfCarryFlag

def or8 (p : Processor) (value : UInt8) : Processor :=
  let p := (p.setFlags 0x00).set8 .a (p.a ||| value)
  p.when (p.a == 0) setZeroFlag

def add8 (p : Processor) (value : UInt8) (carry : Bool) : Processor :=
  let adjust : UInt16 := if carry && p.isCarryFlagSet then 0x01 else 0x00
  let p := p.setFlags 0x00
  let result := p.a.toUInt16 + value.toUInt16 + adjust
  let p := p.when (result &&& 0xFF00 != 0) setCarryFlag
  let half := (p.a &&& 0xF) + (value &&& 0xF) + adjust.toUInt8
  let p := p.when (half &&& 0xF0 != 0) setHalfCarryFlag
  let p := p.set8 .a (result &&& 0xFF).toUInt8
  p.when (p.a == 0) setZeroFlag

/-- The comparisons are made in `int`. -/
def sub8 (p : Processor) (value : UInt8) (carry : Bool) : Processor :=
  let adjust : UInt8 := if carry && p.isCarryFlagSet then 0x01 else 0x00
  let p := p.setFlags 0x00
  let p := p.when (p.a.toNat < value.toNat + adjust.toNat) setCarryFlag
  let p :=
    p.when ((p.a &&& 0x0F).toNat < (value &&& 0x0F).toNat + adjust.toNat) setHalfCarryFlag
  let p := p.set8 .a (p.a - (value + adjust))
  (p.when (p.a == 0) setZeroFlag).setNegFlag

def sbc (p : Processor) (value : UInt8) : Processor := p.sub8 value true

def compare (p : Processor) (value : UInt8) : Processor :=
  let p := (p.setFlags 0x00).setNegFlag
  let p := p.when (p.a == value) setZeroFlag
  let p := p.when (p.a < value) setCarryFlag
  p.when ((p.a - value) &&& 0xF > p.a &&& 0xF) setHalfCarryFlag

/-- A pass of the loop of `compliment`. -/
def complimentBit (a value : UInt8) (i : Nat) : UInt8 :=
  let mask := (1 : UInt8) <<< UInt8.ofNat i
  if a &&& mask = 0 then value ||| mask else value

def compliment (p : Processor) : Processor :=
  let p := p.set8 .a ((List.range 8).foldl (complimentBit p.a) 0x00)
  p.setNegFlag.setHalfCarryFlag

/-- The `value` of `daa` in front of the flags. -/
def daaValue (p : Processor) : UInt16 :=
  let value := p.a.toUInt16
  if p.isNegFlagSet then
    let value := if p.isHalfCarryFlagSet then (value - 0x06) &&& 0xFF else value
    if p.isCarryFlagSet then value - 0x60 else value
  else
    let value := if p.isHalfCarryFlagSet || value &&& 0xF > 0x09 then value + 0x06 else value
    if p.isCarryFlagSet || value > 0x9F then value + 0x60 else value

def daa (p : Processor) : Processor :=
  let value := p.daaValue
  let p := p.clrHalfCarryFlag.when (value ≥ 0x100) setCarryFlag
  let p := p.set8 .a value.toUInt8
  p.choose (p.a != 0) clrZeroFlag setZeroFlag

def ccf (p : Processor) : Processor :=
  (p.choose p.isCarryFlagSet clrCarryFlag setCarryFlag).clrHalfCarryFlag.clrNegFlag

def scf (p : Processor) : Processor := p.setCarryFlag.clrHalfCarryFlag.clrNegFlag

/-! ## Sixteen bits -/

def add16 (p : Processor) (reg : Reg16) (value : UInt16) : Processor :=
  let p := p.clrNegFlag
  let result := (p.get16 reg).toNat + value.toNat
  let p := p.choose (result > 0xFFFF) setCarryFlag clrCarryFlag
  let half := (p.get16 reg &&& 0xFFF).toNat + (value &&& 0xFFF).toNat
  let p := p.choose (half > 0xFFF) setHalfCarryFlag clrHalfCarryFlag
  p.set16 reg (UInt16.ofNat result)

/-- The byte as an `int8_t`, in a sum of sixteen bits. -/
def signed (value : UInt8) : UInt16 := value.toInt8.toInt16.toUInt16

/-- `add16` with an `int8_t`. -/
def add16Signed (p : Processor) (dest : Reg16) (reg : UInt16) (value : UInt8) : Processor :=
  let p := p.setFlags 0x00
  let carry := (reg &&& 0xFF).toNat + (signed value &&& 0xFF).toNat
  let p := p.choose (carry > 0xFF) setCarryFlag clrCarryFlag
  let half := (reg &&& 0xF).toNat + (signed value &&& 0xF).toNat
  let p := p.choose (half > 0xF) setHalfCarryFlag clrHalfCarryFlag
  p.set16 dest (reg + signed value)

def inc16 (p : Processor) (reg : Reg16) : Processor := p.set16 reg (p.get16 reg + 1)

def dec16 (p : Processor) (reg : Reg16) : Processor := p.set16 reg (p.get16 reg - 1)

/-! ## Bytes by reference -/

/-- A handler of a byte by reference. -/
abbrev ByteHandler := Processor → UInt8 → Processor × UInt8

def inc : ByteHandler := fun p reg =>
  let p := p.choose (reg &&& 0x0F == 0x0F) setHalfCarryFlag clrHalfCarryFlag
  let reg := reg + 1
  ((p.choose (reg == 0) setZeroFlag clrZeroFlag).clrNegFlag, reg)

def dec : ByteHandler := fun p reg =>
  let reg := reg - 1
  let p := p.choose (reg == 0) setZeroFlag clrZeroFlag
  ((p.choose (reg &&& 0x0F == 0x0F) setHalfCarryFlag clrHalfCarryFlag).setNegFlag, reg)

def swap : ByteHandler := fun p reg =>
  let p := p.setFlags 0x00
  let upper := (reg >>> 4) &&& 0x0F
  let lower := reg &&& 0x0F
  let reg := (lower <<< 4) ||| upper
  (p.when (reg == 0) setZeroFlag, reg)

def res (which : UInt8) : ByteHandler := fun p reg => (p, reg &&& ~~~((1 : UInt8) <<< which))

def set (which : UInt8) : ByteHandler := fun p reg => (p, reg ||| ((1 : UInt8) <<< which))

def bit (p : Processor) (reg which : UInt8) : Processor :=
  let p := p.choose (reg &&& ((1 : UInt8) <<< which) != 0) clrZeroFlag setZeroFlag
  p.clrNegFlag.setHalfCarryFlag

/-- The end of `rotatel`, `rotater`, `rlc` and `rrc`. -/
def rotated (p : Processor) (reg : UInt8) (ignoreZero : Bool) : Processor × UInt8 :=
  let p := p.choose (!ignoreZero && reg == 0) setZeroFlag clrZeroFlag
  (p.clrNegFlag.clrHalfCarryFlag, reg)

def rotatel (wrap ignoreZero : Bool) : ByteHandler := fun p reg =>
  let lsb : UInt8 := if p.isCarryFlagSet then 0x01 else 0x00
  let p := p.choose (reg &&& 0x80 != 0) setCarryFlag clrCarryFlag
  let reg := reg <<< 1
  rotated p (if wrap then reg ||| lsb else reg) ignoreZero

def rotater (wrap ignoreZero : Bool) : ByteHandler := fun p reg =>
  let msb : UInt8 := if p.isCarryFlagSet then 0x80 else 0x00
  let p := p.choose (reg &&& 0x01 != 0) setCarryFlag clrCarryFlag
  let reg := reg >>> 1
  rotated p (if wrap then reg ||| msb else reg) ignoreZero

def rlc (ignoreZero : Bool) : ByteHandler := fun p reg =>
  let lsb : UInt8 := if reg &&& 0x80 ≠ 0 then 0x01 else 0x00
  let p := p.choose (lsb != 0) setCarryFlag clrCarryFlag
  rotated p ((reg <<< 1) ||| lsb) ignoreZero

def rrc (ignoreZero : Bool) : ByteHandler := fun p reg =>
  let msb : UInt8 := if reg &&& 0x01 ≠ 0 then 0x80 else 0x00
  let p := p.choose (msb != 0) setCarryFlag clrCarryFlag
  rotated p ((reg >>> 1) ||| msb) ignoreZero

def sla : ByteHandler := rotatel false false

def srl : ByteHandler := rotater false false

def sra : ByteHandler := fun p reg =>
  let p := (p.setFlags 0x00).when (reg &&& 0x01 != 0) setCarryFlag
  let msb := reg &&& 0x80
  let reg := (reg >>> 1) ||| msb
  (p.when (reg == 0) setZeroFlag, reg)

/-- A handler called with a register. -/
def onRegister (p : Processor) (r : Reg8) (handler : ByteHandler) : Processor :=
  let (p, value) := handler p (p.get8 r)
  p.set8 r value

end Processor

end GbEmu
