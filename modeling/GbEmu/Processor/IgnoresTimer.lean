import GbEmu.Processor

/-!
The timer takes no part in what a handler computes: on a processor with another timer
it does the same, and so it leaves the timer alone.
-/

namespace GbEmu

namespace Processor

def withTimer (p : Processor) (timer : TimerModule) : Processor := { p with timer := timer }

def IgnoresTimer (f : Processor → Processor) : Prop :=
  ∀ p timer, f (p.withTimer timer) = (f p).withTimer timer

/-- What ignores the timer leaves it alone. -/
theorem IgnoresTimer.timer_eq {f : Processor → Processor} (h : IgnoresTimer f) (p : Processor) :
    (f p).timer = p.timer := by
  have hsame : f p = (f p).withTimer p.timer := h p p.timer
  rw [hsame]
  rfl

section Parts

variable (p : Processor) (timer : TimerModule)

@[simp] theorem a_withTimer : (p.withTimer timer).a = p.a := rfl

@[simp] theorem setFlags_withTimer (flags : UInt8) :
    (p.withTimer timer).setFlags flags = (p.setFlags flags).withTimer timer := rfl

@[simp] theorem setFlag_withTimer (mask : UInt8) :
    (p.withTimer timer).setFlag mask = (p.setFlag mask).withTimer timer := rfl

@[simp] theorem clrFlag_withTimer (mask : UInt8) :
    (p.withTimer timer).clrFlag mask = (p.clrFlag mask).withTimer timer := rfl

@[simp] theorem isFlagSet_withTimer (mask : UInt8) :
    (p.withTimer timer).isFlagSet mask = p.isFlagSet mask := rfl

@[simp] theorem get8_withTimer (r : Reg8) : (p.withTimer timer).get8 r = p.get8 r := by
  cases r <;> rfl

@[simp] theorem set8_withTimer (r : Reg8) (value : UInt8) :
    (p.withTimer timer).set8 r value = (p.set8 r value).withTimer timer := by
  cases r <;> rfl

@[simp] theorem get16_withTimer (r : Reg16) : (p.withTimer timer).get16 r = p.get16 r := by
  cases r <;> rfl

@[simp] theorem set16_withTimer (r : Reg16) (value : UInt16) :
    (p.withTimer timer).set16 r value = (p.set16 r value).withTimer timer := by
  cases r <;> rfl

@[simp] theorem when_withTimer (c : Bool) {set : Processor → Processor} (h : IgnoresTimer set) :
    (p.withTimer timer).when c set = (p.when c set).withTimer timer := by
  cases c with
  | false => rfl
  | true => exact h p timer

@[simp] theorem choose_withTimer (c : Bool) {set clr : Processor → Processor}
    (h : IgnoresTimer set) (h' : IgnoresTimer clr) :
    (p.withTimer timer).choose c set clr = (p.choose c set clr).withTimer timer := by
  cases c with
  | false => exact h' p timer
  | true => exact h p timer

@[simp] theorem ignoresTimer_setZeroFlag : IgnoresTimer setZeroFlag := fun _ _ => rfl

@[simp] theorem ignoresTimer_clrZeroFlag : IgnoresTimer clrZeroFlag := fun _ _ => rfl

@[simp] theorem ignoresTimer_setHalfCarryFlag : IgnoresTimer setHalfCarryFlag := fun _ _ => rfl

@[simp] theorem ignoresTimer_clrHalfCarryFlag : IgnoresTimer clrHalfCarryFlag := fun _ _ => rfl

@[simp] theorem ignoresTimer_setCarryFlag : IgnoresTimer setCarryFlag := fun _ _ => rfl

@[simp] theorem ignoresTimer_clrCarryFlag : IgnoresTimer clrCarryFlag := fun _ _ => rfl

end Parts

attribute [local simp] isZeroFlagSet isNegFlagSet isHalfCarryFlagSet isCarryFlagSet setZeroFlag
  clrZeroFlag setNegFlag clrNegFlag setHalfCarryFlag clrHalfCarryFlag setCarryFlag clrCarryFlag

section Byte

variable (value : UInt8)

theorem ignoresTimer_set8 (r : Reg8) : IgnoresTimer fun p => p.set8 r value :=
  fun p timer => p.set8_withTimer timer r value

theorem ignoresTimer_add8 (carry : Bool) : IgnoresTimer fun p => p.add8 value carry :=
  fun _ _ => by simp [add8]

theorem ignoresTimer_sub8 (carry : Bool) : IgnoresTimer fun p => p.sub8 value carry :=
  fun _ _ => by simp [sub8]

theorem ignoresTimer_and8 : IgnoresTimer fun p => p.and8 value := fun _ _ => by simp [and8]

theorem ignoresTimer_or8 : IgnoresTimer fun p => p.or8 value := fun _ _ => by simp [or8]

theorem ignoresTimer_xor8 : IgnoresTimer fun p => p.xor8 value := fun _ _ => by simp [xor8]

theorem ignoresTimer_compare : IgnoresTimer fun p => p.compare value := by
  intro p timer
  simp only [compare, setNegFlag, setFlags_withTimer, setFlag_withTimer, a_withTimer,
    ignoresTimer_setZeroFlag, ignoresTimer_setCarryFlag, ignoresTimer_setHalfCarryFlag,
    when_withTimer]
  rfl

theorem ignoresTimer_bit (which : UInt8) : IgnoresTimer fun p => p.bit value which :=
  fun _ _ => by simp [bit]

end Byte

theorem ignoresTimer_set16 (r : Reg16) (value : UInt16) : IgnoresTimer fun p => p.set16 r value :=
  fun p timer => p.set16_withTimer timer r value

theorem ignoresTimer_compliment : IgnoresTimer compliment := fun _ _ => by simp [compliment]

theorem ignoresTimer_daa : IgnoresTimer daa := by
  intro p timer
  simp only [daa, daaValue, clrHalfCarryFlag, clrFlag_withTimer, isNegFlagSet, isCarryFlagSet,
    isHalfCarryFlagSet, isFlagSet_withTimer, a_withTimer, set8_withTimer, ignoresTimer_setCarryFlag,
    ignoresTimer_setZeroFlag, ignoresTimer_clrZeroFlag, when_withTimer, choose_withTimer]
  rfl

theorem ignoresTimer_ccf : IgnoresTimer ccf := fun _ _ => by simp [ccf]

theorem ignoresTimer_scf : IgnoresTimer scf := fun _ _ => rfl

theorem ignoresTimer_inc16 (r : Reg16) : IgnoresTimer fun p => p.inc16 r :=
  fun _ _ => by simp [inc16]

theorem ignoresTimer_dec16 (r : Reg16) : IgnoresTimer fun p => p.dec16 r :=
  fun _ _ => by simp [dec16]

theorem ignoresTimer_add16 (r s : Reg16) : IgnoresTimer fun p => p.add16 r (p.get16 s) :=
  fun _ _ => by simp [add16]

theorem ignoresTimer_add16Signed (dest : Reg16) :
    IgnoresTimer fun p => p.add16Signed dest p.sp p.operands.1 := by
  intro p timer
  have hsp : (p.withTimer timer).sp = p.sp := rfl
  have hoperands : (p.withTimer timer).operands = p.operands := rfl
  simp [add16Signed, hsp, hoperands]

/-- The same for handlers of a byte. -/
def ByteIgnoresTimer (handler : ByteHandler) : Prop :=
  ∀ p timer value, handler (p.withTimer timer) value =
    ((handler p value).1.withTimer timer, (handler p value).2)

theorem ByteIgnoresTimer.timer_eq {handler : ByteHandler} (h : ByteIgnoresTimer handler)
    (p : Processor) (value : UInt8) : (handler p value).1.timer = p.timer := by
  have hsame : handler p value = ((handler p value).1.withTimer p.timer, (handler p value).2) :=
    h p p.timer value
  rw [hsame]
  rfl

theorem byteIgnoresTimer_inc : ByteIgnoresTimer inc := fun _ _ _ => by simp [inc]

theorem byteIgnoresTimer_dec : ByteIgnoresTimer dec := fun _ _ _ => by simp [dec]

theorem byteIgnoresTimer_swap : ByteIgnoresTimer swap := fun _ _ _ => by simp [swap]

theorem byteIgnoresTimer_rotatel (wrap ignoreZero : Bool) :
    ByteIgnoresTimer (rotatel wrap ignoreZero) := by
  intro p timer value
  simp only [rotatel, rotated, clrHalfCarryFlag, clrNegFlag, clrFlag_withTimer, isCarryFlagSet,
    isFlagSet_withTimer, ignoresTimer_setCarryFlag, ignoresTimer_clrCarryFlag,
    ignoresTimer_setZeroFlag, ignoresTimer_clrZeroFlag, choose_withTimer, Prod.mk.injEq]
  exact ⟨rfl, rfl⟩

theorem byteIgnoresTimer_rotater (wrap ignoreZero : Bool) :
    ByteIgnoresTimer (rotater wrap ignoreZero) := by
  intro p timer value
  simp only [rotater, rotated, clrHalfCarryFlag, clrNegFlag, clrFlag_withTimer, isCarryFlagSet,
    isFlagSet_withTimer, ignoresTimer_setCarryFlag, ignoresTimer_clrCarryFlag,
    ignoresTimer_setZeroFlag, ignoresTimer_clrZeroFlag, choose_withTimer, Prod.mk.injEq]
  exact ⟨rfl, rfl⟩

theorem byteIgnoresTimer_rlc (ignoreZero : Bool) : ByteIgnoresTimer (rlc ignoreZero) :=
  fun _ _ _ => by simp [rlc, rotated]

theorem byteIgnoresTimer_rrc (ignoreZero : Bool) : ByteIgnoresTimer (rrc ignoreZero) :=
  fun _ _ _ => by simp [rrc, rotated]

theorem byteIgnoresTimer_sra : ByteIgnoresTimer sra := fun _ _ _ => by simp [sra]

theorem ignoresTimer_onRegister {handler : ByteHandler} (h : ByteIgnoresTimer handler)
    (r : Reg8) : IgnoresTimer fun p => p.onRegister r handler :=
  fun p timer => by simp [onRegister, h p timer]

end Processor

end GbEmu
