import GbEmu.Lib.Brackets
import GbEmu.Machine.StackArea
import GbEmu.Processor.Halt

/-!
The stack. PUSH, CALL, RST and the interrupt dispatch each put two bytes below SP, and
POP, RET and RETI take them off again; in a well-nested run every one of these finds
the bytes of its partner, as long as the stack lies within one area of RAM.
-/

namespace GbEmu

open Run

namespace Processor

theorem upper_and (value : UInt16) : upper (value &&& 0xFFF0) = upper value := by
  have hset : ∀ i < 8, (0xFFF0#16).getLsbD (8 + i) = true := by decide
  apply UInt8.toBitVec_inj.mp
  ext i hi
  simp [upper, hset i hi]

theorem lower_and (value : UInt16) : lower (value &&& 0xFFF0) = lower value &&& 0xF0 :=
  UInt16.toUInt8_and value _

end Processor

namespace Machine

/-! ## Steps that spare the stack -/

/-- `n` has the SP of `m` and its bytes in the area. -/
structure SparesStack (area : StackArea) (m n : Machine) : Prop where
  sp : n.cpu.sp = m.cpu.sp
  bytes : ∀ a, area.Contains a → n.peek a = m.peek a

namespace SparesStack

variable {area : StackArea} {m n k : Machine}

theorem trans (h : SparesStack area m n) (h' : SparesStack area n k) : SparesStack area m k :=
  ⟨h'.sp.trans h.sp, fun a ha => (h'.bytes a ha).trans (h.bytes a ha)⟩

theorem of_kept (hsp : n.cpu.sp = m.cpu.sp) (h : m.bus.Kept n.bus) : SparesStack area m n :=
  ⟨hsp, fun _ ha => StackArea.peek_kept h ha⟩

theorem onCpu {f : Processor → Processor} (hsp : (f m.cpu).sp = m.cpu.sp) :
    SparesStack area m (m.onCpu f) :=
  ⟨hsp, fun _ _ => rfl⟩

end SparesStack

/-! ## Two bytes on the stack -/

section Bytes

variable {w : World} {depth : Nat} (hwrite : w.write = Bus.write (depth + 1)) {area : StackArea}
  {m n k : Machine} {value : UInt16}

/-- From `m` to `n`, `value` has been put on the stack. -/
structure Pushed (area : StackArea) (m : Machine) (value : UInt16) (n : Machine) : Prop where
  sp : n.cpu.sp = m.cpu.sp - 2
  upper : n.peek (m.cpu.sp - 1) = .ok (Processor.upper value)
  lower : n.peek (m.cpu.sp - 2) = .ok (Processor.lower value)
  bytes : ∀ a, area.Contains a → m.cpu.sp.toNat ≤ a.toNat → n.peek a = m.peek a

/-- There are two bytes of the area below SP, and the ones above are in it as well. -/
def HasRoom (area : StackArea) (m : Machine) : Prop :=
  area.low + 2 ≤ m.cpu.sp.toNat ∧ m.cpu.sp.toNat ≤ area.limit

theorem HasRoom.toNat_sub_one (h : HasRoom area m) :
    (m.cpu.sp - 1).toNat = m.cpu.sp.toNat - 1 := by
  refine UInt16.toNat_sub_of_le _ _ (UInt16.le_iff_toNat_le.mpr ?_)
  show 1 ≤ m.cpu.sp.toNat
  have := h.1
  omega

theorem HasRoom.toNat_sub_two (h : HasRoom area m) :
    (m.cpu.sp - 2).toNat = m.cpu.sp.toNat - 2 := by
  refine UInt16.toNat_sub_of_le _ _ (UInt16.le_iff_toNat_le.mpr ?_)
  show 2 ≤ m.cpu.sp.toNat
  have := h.1
  omega

theorem HasRoom.contains_upper (h : HasRoom area m) : area.Contains (m.cpu.sp - 1) := by
  have hsub := h.toNat_sub_one
  obtain ⟨hlow, hlimit⟩ := h
  unfold StackArea.Contains
  omega

theorem HasRoom.contains_lower (h : HasRoom area m) : area.Contains (m.cpu.sp - 2) := by
  have hsub := h.toNat_sub_two
  obtain ⟨hlow, hlimit⟩ := h
  unfold StackArea.Contains
  omega

theorem Pushed.after (h : SparesStack area m n) (h' : Pushed area n value k) :
    Pushed area m value k := by
  refine ⟨h.sp ▸ h'.sp, h.sp ▸ h'.upper, h.sp ▸ h'.lower, fun a ha hle => ?_⟩
  exact (h'.bytes a ha (h.sp ▸ hle)).trans (h.bytes a ha)

theorem Pushed.before (h : Pushed area m value n) (hroom : HasRoom area m)
    (h' : SparesStack area n k) : Pushed area m value k := by
  refine ⟨h'.sp.trans h.sp, (h'.bytes _ hroom.contains_upper).trans h.upper,
    (h'.bytes _ hroom.contains_lower).trans h.lower, fun a ha hle => ?_⟩
  exact (h'.bytes a ha).trans (h.bytes a ha hle)

include hwrite

theorem pushed_push (hroom : HasRoom area m) (h : m.push w value = .ok n) :
    Pushed area m value n := by
  obtain ⟨s, t, hs, ht, rfl⟩ := push_ok h
  rw [hwrite] at hs ht
  have hupper := hroom.contains_upper
  have hlower := hroom.contains_lower
  have hone := hroom.toNat_sub_one
  have htwo := hroom.toNat_sub_two
  have hlow := hroom.1
  have hne : m.cpu.sp - 1 ≠ m.cpu.sp - 2 := fun heq => by
    rw [heq] at hone
    omega
  refine ⟨rfl, ?_, ?_, fun a ha hle => ?_⟩
  · exact (StackArea.peek_write hlower hupper ht).trans
      ((if_neg hne).trans ((StackArea.peek_write hupper hupper hs).trans (if_pos rfl)))
  · exact (StackArea.peek_write hlower hlower ht).trans (if_pos rfl)
  · have hne' : a ≠ m.cpu.sp - 1 := fun heq => by
      rw [heq] at hle
      omega
    have hne'' : a ≠ m.cpu.sp - 2 := fun heq => by
      rw [heq] at hle
      omega
    exact (StackArea.peek_write hlower ha ht).trans
      ((if_neg hne'').trans ((StackArea.peek_write hupper ha hs).trans (if_neg hne')))

end Bytes

/-! ## Instructions -/

/-- Between `m` and `n` there have been ticks only. -/
structure Started (m n : Machine) : Prop where
  cpu : ∃ timer, n.cpu = { m.cpu with timer := timer }
  bus : m.bus.Kept n.bus

namespace Started

variable {m n : Machine}

theorem refl (m : Machine) : m.Started m := ⟨⟨m.cpu.timer, rfl⟩, .refl m.bus⟩

theorem of_ticked {ticks : UInt8} (h : m.Ticked ticks n) : m.Started n := by
  obtain ⟨timer, -, hcpu⟩ := h.cpu
  exact ⟨⟨timer, hcpu⟩, h.bus⟩

theorem spares {area : StackArea} (h : m.Started n) : SparesStack area m n := by
  obtain ⟨timer, hcpu⟩ := h.cpu
  exact .of_kept (by rw [hcpu]) h.bus

theorem get16 (h : m.Started n) (r : Reg16) : n.cpu.get16 r = m.cpu.get16 r := by
  obtain ⟨timer, hcpu⟩ := h.cpu
  rw [hcpu]
  cases r <;> rfl

theorem pc (h : m.Started n) : n.cpu.pc = m.cpu.pc := by
  obtain ⟨timer, hcpu⟩ := h.cpu
  rw [hcpu]

theorem holds (h : m.Started n) (c : Condition) : n.holds c = m.holds c := by
  obtain ⟨timer, hcpu⟩ := h.cpu
  unfold Machine.holds
  rw [hcpu]
  cases c <;> rfl

end Started

section Instructions

variable {w : World} {depth : Nat} (hwrite : w.write = Bus.write (depth + 1)) {area : StackArea}
  {m n : Machine} {operation : Operation}

include hwrite

/-- The handler of an operation runs behind its ticks. -/
theorem perform_ok (h : m.perform w operation = .ok n) :
    ∃ t u, m.Started t ∧ t.handle w operation.handler = .ok u ∧
      n = u.onCpu Processor.maskFlags := by
  obtain ⟨t, ht, h⟩ := bind_eq_ok.mp h
  obtain ⟨u, hu, h⟩ := bind_eq_ok.mp h
  refine ⟨t, u, ?_, hu, (Except.ok.inj h).symm⟩
  by_cases hcycles : operation.cycles = 0
  · rw [if_pos hcycles] at ht
    exact Except.ok.inj ht ▸ .refl m
  · rw [if_neg hcycles] at ht
    obtain ⟨t', ht', hticked⟩ :=
      clockTick_total hwrite m (operation.cycles * adjustment m.cpu.timer.speed)
    exact Except.ok.inj (ht'.symm.trans ht) ▸ .of_ticked hticked

/-- The steps that put something on the stack. -/
inductive Enters (w : World) : Machine → UInt16 → Machine → Prop
  | push {m n : Machine} {operation : Operation} {r : Reg16} (hr : operation.handler = .push r)
      (h : m.perform w operation = .ok n) : Enters w m (m.cpu.get16 r) n
  | call {m n : Machine} {operation : Operation} {c : Condition}
      (hc : operation.handler = .call c) (htaken : m.holds c = true)
      (h : m.perform w operation = .ok n) : Enters w m m.cpu.pc n
  | rst {m n : Machine} {operation : Operation} {address : UInt8}
      (ha : operation.handler = .rst address) (h : m.perform w operation = .ok n) :
      Enters w m m.cpu.pc n
  | interrupt {m n : Machine} (henable : m.cpu.enable = true)
      (h : m.interrupt w = .ok (n, true)) : Enters w m m.cpu.pc n

/-- Where a step puts what it takes off the stack, PC being no register here. -/
structure Returned where
  into : Option Reg16
  value : UInt16

/-- The steps that take something off the stack. -/
inductive Leaves (w : World) : Machine → Returned → Machine → Prop
  | pop {m n : Machine} {operation : Operation} {r : Reg16} (hsp : r ≠ .sp)
      (hr : operation.handler = .pop r) (h : m.perform w operation = .ok n) :
      Leaves w m ⟨some r, n.cpu.get16 r⟩ n
  | ret {m n : Machine} {operation : Operation} {c : Condition} {enable : Bool}
      (hc : operation.handler = .ret c enable) (htaken : m.holds c = true)
      (h : m.perform w operation = .ok n) : Leaves w m ⟨none, n.cpu.pc⟩ n

theorem tick_started (ticks : UInt8) (h : m.tick w ticks = .ok n) : m.Started n := by
  obtain ⟨t, ht, hticked⟩ := clockTick_total hwrite m (ticks * adjustment m.cpu.timer.speed)
  exact Except.ok.inj (ht.symm.trans h) ▸ .of_ticked hticked

theorem pushed_call (hroom : HasRoom area m) (h : m.call w = .ok n) :
    Pushed area m m.cpu.pc n := by
  obtain ⟨t, ht, h⟩ := bind_eq_ok.mp h
  exact (pushed_push hwrite hroom ht).before hroom
    (SparesStack.trans (n := t.setPc t.cpu.args) (.onCpu rfl) (tick_started hwrite 3 h).spares)

theorem pushed_interrupt (hroom : HasRoom area m) (henable : m.cpu.enable = true)
    (h : m.interrupt w = .ok (n, true)) : Pushed area m m.cpu.pc n := by
  cases hp : m.pending with
  | none =>
    rw [interrupt_none w hp] at h
    cases h
  | some i =>
    rw [interrupt_enabled w henable hp] at h
    obtain ⟨t, ht, heq⟩ := map_eq_ok.mp h
    obtain ⟨rfl, -⟩ := Prod.mk.inj heq
    refine (pushed_push hwrite hroom ht).before hroom (.of_kept rfl ?_)
    exact .setIo t.bus (by decide) _

theorem pushed_enters {value : UInt16} (hroom : HasRoom area m) (h : Enters w m value n) :
    Pushed area m value n := by
  have hflags : ∀ u : Machine, SparesStack area u (u.onCpu Processor.maskFlags) :=
    fun u => .onCpu rfl
  have hstart : ∀ t, m.Started t → HasRoom area t := fun t ht => by
    unfold HasRoom
    have hspares : SparesStack area m t := ht.spares
    rw [hspares.sp]
    exact hroom
  cases h with
  | push hr h =>
    obtain ⟨t, u, hstarted, hu, rfl⟩ := perform_ok hwrite h
    rw [hr] at hu
    have hpushed := pushed_push hwrite (hstart t hstarted) hu
    rw [hstarted.get16] at hpushed
    exact (hpushed.after hstarted.spares).before hroom (hflags u)
  | call hc htaken h =>
    obtain ⟨t, u, hstarted, hu, rfl⟩ := perform_ok hwrite h
    rw [hc] at hu
    rw [← hstarted.holds] at htaken
    have hpushed := pushed_call hwrite (hstart t hstarted) ((if_pos htaken).symm.trans hu)
    rw [hstarted.pc] at hpushed
    exact (hpushed.after hstarted.spares).before hroom (hflags u)
  | rst ha h =>
    obtain ⟨t, u, hstarted, hu, rfl⟩ := perform_ok hwrite h
    rw [ha] at hu
    obtain ⟨v, hv, hu⟩ := bind_eq_ok.mp hu
    have hpushed := pushed_push hwrite (hstart t hstarted) hv
    rw [hstarted.pc] at hpushed
    have hset : SparesStack area v u := Except.ok.inj hu ▸ .onCpu rfl
    exact (hpushed.after hstarted.spares).before hroom (hset.trans (hflags u))
  | interrupt henable h => exact pushed_interrupt hwrite hroom henable h

/-- What is taken off the stack is what was put there; the flags have no low nibble. -/
def Returned.Right (value : UInt16) (x : Returned) : Prop :=
  x.value = if x.into = some .af then value &&& 0xFFF0 else value

/-- The value on top of the stack, with SP two below that of `m`. -/
structure OnTop (m : Machine) (value : UInt16) (n : Machine) : Prop where
  sp : n.cpu.sp = m.cpu.sp - 2
  upper : n.peek (m.cpu.sp - 1) = .ok (Processor.upper value)
  lower : n.peek (m.cpu.sp - 2) = .ok (Processor.lower value)

omit hwrite in
theorem OnTop.pop {value : UInt16} (h : OnTop m value n) :
    n.pop = .ok (value, n.setSp m.cpu.sp) := by
  have hone : m.cpu.sp - 2 + 1 = m.cpu.sp - 1 := by grind
  have htwo : m.cpu.sp - 2 + 2 = m.cpu.sp := by grind
  rw [Machine.pop, h.sp, hone, htwo, h.lower, h.upper]
  show Except.ok (Processor.pair (Processor.upper value) (Processor.lower value), _) = _
  rw [Processor.pair_upper_lower]

omit hwrite in
theorem OnTop.spares {value : UInt16} {k : Machine} (h : OnTop m value n) (hroom : HasRoom area m)
    (h' : SparesStack area n k) : OnTop m value k :=
  ⟨h'.sp.trans h.sp, (h'.bytes _ hroom.contains_upper).trans h.upper,
    (h'.bytes _ hroom.contains_lower).trans h.lower⟩

omit hwrite in
theorem get16_popped (p : Processor) (r : Reg16) (value : UInt16) (hsp : r ≠ .sp) :
    Returned.Right value ⟨some r, (p.set16 r value).maskFlags.get16 r⟩ := by
  cases r with
  | af =>
    have hvalue := Processor.pair_upper_lower (value &&& 0xFFF0)
    rw [Processor.upper_and, Processor.lower_and] at hvalue
    exact hvalue
  | sp => exact absurd rfl hsp
  | _ => exact Processor.pair_upper_lower value

theorem right_leaves {value : UInt16} {x : Returned} {k : Machine} (hroom : HasRoom area m)
    (htop : OnTop m value n) (h : Leaves w n x k) :
    x.Right value ∧ k.cpu.sp = m.cpu.sp ∧ ∀ a, area.Contains a → k.peek a = n.peek a := by
  cases h with
  | @pop _ operation r hsp hr h =>
    obtain ⟨t, u, hstarted, hu, rfl⟩ := perform_ok hwrite h
    have hspares : SparesStack area n t := hstarted.spares
    rw [hr] at hu
    obtain ⟨y, hy, rfl⟩ := map_eq_ok.mp hu
    rw [(htop.spares hroom hspares).pop] at hy
    obtain rfl := Except.ok.inj hy
    refine ⟨get16_popped _ r value hsp, ?_, hspares.bytes⟩
    cases r with
    | sp => exact absurd rfl hsp
    | _ => rfl
  | @ret _ operation c enable hc htaken h =>
    obtain ⟨t, u, hstarted, hu, rfl⟩ := perform_ok hwrite h
    have hspares : SparesStack area n t := hstarted.spares
    rw [hc] at hu
    rw [← hstarted.holds] at htaken
    obtain ⟨y, hy, hu⟩ := bind_eq_ok.mp ((if_pos htaken).symm.trans hu)
    rw [(htop.spares hroom hspares).pop] at hy
    obtain rfl := Except.ok.inj hy
    have hticked := tick_started hwrite 3 hu
    have hafter : SparesStack area ((t.setSp m.cpu.sp).setPc value) u := by
      have hspares' := @hticked.spares _ _ area
      cases enable with
      | false => exact hspares'
      | true => exact ⟨hspares'.sp, hspares'.bytes⟩
    refine ⟨?_, hafter.sp, fun a ha => (hafter.bytes a ha).trans (hspares.bytes a ha)⟩
    show u.cpu.pc = value
    rw [hticked.pc]
    cases enable <;> rfl

end Instructions

/-! ## Runs -/

/-- `n` has the SP of `m` and the bytes of its stack, which ends in front of `top`. -/
structure KeepsStack (top : Nat) (m n : Machine) : Prop where
  sp : n.cpu.sp = m.cpu.sp
  bytes : ∀ a : UInt16, m.cpu.sp.toNat ≤ a.toNat → a.toNat < top → n.peek a = m.peek a

/-- A step that puts something into the area. -/
def EntersIn (w : World) (area : StackArea) (m : Machine) (value : UInt16) (n : Machine) : Prop :=
  area.low + 2 ≤ m.cpu.sp.toNat ∧ Enters w m value n

/-- A well-nested run with a stack in `area` that starts out empty at `top`; whatever else
it does leaves SP and the bytes on the stack alone. -/
abbrev StackRun (w : World) (area : StackArea) (top : Nat) :
    List (UInt16 × Returned) → Machine → Machine → Prop :=
  Brackets.Nested (KeepsStack top) (EntersIn w area) (Leaves w)

theorem stack_rules {w : World} {depth : Nat} (hwrite : w.write = Bus.write (depth + 1))
    {area : StackArea} {top : Nat} (htop : top ≤ area.limit) :
    Brackets.Rules (KeepsStack top) (EntersIn w area) (Leaves w) (fun m => m.cpu.sp.toNat ≤ top)
      (KeepsStack top) Returned.Right where
  refl m := ⟨rfl, fun _ _ _ => rfl⟩
  trans m n k h h' := ⟨h'.sp.trans h.sp, fun a hle hlt =>
    (h'.bytes a (h.sp ▸ hle) hlt).trans (h.bytes a hle hlt)⟩
  invariant m n hm h := h.sp ▸ hm
  of_other m n hm h := h
  of_enter := by
    rintro m value n hm ⟨hlow, henters⟩
    have hroom : HasRoom area m := ⟨hlow, hm.trans htop⟩
    rw [(pushed_enters hwrite hroom henters).sp, hroom.toNat_sub_two]
    omega
  of_leave := by
    rintro m value n n' x k hm ⟨hlow, henters⟩ hkeep hleaves
    have hroom : HasRoom area m := ⟨hlow, hm.trans htop⟩
    have hpushed := pushed_enters hwrite hroom henters
    have hone := hroom.toNat_sub_one
    have htwo := hroom.toNat_sub_two
    have hsp : n.cpu.sp.toNat = m.cpu.sp.toNat - 2 := by rw [hpushed.sp, htwo]
    have hontop : OnTop m value n' := by
      refine ⟨hkeep.sp.trans hpushed.sp, ?_, ?_⟩
      · exact (hkeep.bytes _ (by omega) (by omega)).trans hpushed.upper
      · exact (hkeep.bytes _ (by omega) (by omega)).trans hpushed.lower
    obtain ⟨hright, hspk, hbytes⟩ := right_leaves hwrite hroom hontop hleaves
    refine ⟨hright, hspk, fun a hle hlt => ?_⟩
    have ha : area.Contains a := ⟨by omega, by omega⟩
    exact (hbytes a ha).trans ((hkeep.bytes a (by omega) hlt).trans (hpushed.bytes a ha hle))

theorem and_high_nibbles {value : UInt16} (h : value &&& 0x000F = 0) :
    value &&& 0xFFF0 = value := by
  have hset : ∀ i < 16, ((0xFFF0#16).getLsbD i || (0x000F#16).getLsbD i) = true := by decide
  have hsplit : (value &&& 0xFFF0) ||| (value &&& 0x000F) = value := by
    apply UInt16.toBitVec_inj.mp
    ext i hi
    have hbits := hset i hi
    simp only [UInt16.toBitVec_or, UInt16.toBitVec_and, BitVec.getElem_or, BitVec.getElem_and]
    rw [← Bool.and_or_distrib_left]
    exact (congrArg (value.toBitVec[i] && ·) hbits).trans (Bool.and_true _)
  rw [h, UInt16.or_zero] at hsplit
  exact hsplit

/-- **Stack discipline.** In a well-nested run every POP gets the value that was pushed,
the one to AF less the low nibble, every return goes on at the PC that was pushed, and SP
ends where it started. -/
theorem stack_discipline {w : World} {depth : Nat} (hwrite : w.write = Bus.write (depth + 1))
    {area : StackArea} {m n : Machine} {xs : List (UInt16 × Returned)}
    (htop : m.cpu.sp.toNat ≤ area.limit) (h : StackRun w area m.cpu.sp.toNat xs m n) :
    (∀ x ∈ xs, x.2.Right x.1 ∧ (x.1 &&& 0x000F = 0 → x.2.value = x.1)) ∧
      n.cpu.sp = m.cpu.sp := by
  obtain ⟨hkeep, hright⟩ := Brackets.nested_kept (stack_rules hwrite htop) h (Nat.le_refl _)
  refine ⟨fun x hx => ⟨hright x hx, fun hnibble => ?_⟩, hkeep.sp⟩
  have hvalue := hright x hx
  unfold Returned.Right at hvalue
  rw [and_high_nibbles hnibble, ite_self] at hvalue
  exact hvalue

/-- A processor with something in BC, at a CALL of 0x0200. -/
def loaded : Machine where
  cpu := { resetProcessor with b := 0x12, c := 0x34, pc := 0x0153, operands := (0x00, 0x02) }
  bus := Bus.bareConsole
  ticks := []
  requests := []

/-- PUSH BC, a subroutine that returns at once, and POP DE. -/
theorem stack_discipline_copy : ∃ n p q k,
    loaded.perform (quietWorld 1) ⟨.push .bc, 1, 4⟩ = .ok n ∧
      n.perform (quietWorld 1) ⟨.call .always, 3, 3⟩ = .ok p ∧ p.cpu.pc = 0x0200 ∧
      p.perform (quietWorld 1) ⟨.ret .always false, 1, 1⟩ = .ok q ∧ q.cpu.pc = 0x0153 ∧
      q.perform (quietWorld 1) ⟨.pop .de, 1, 3⟩ = .ok k ∧ k.cpu.get16 .de = 0x1234 ∧
      k.cpu.sp = 0xFFFE := by
  have hrun : ((loaded.perform (quietWorld 1) ⟨.push .bc, 1, 4⟩).bind fun n =>
      (n.perform (quietWorld 1) ⟨.call .always, 3, 3⟩).bind fun p =>
      (p.perform (quietWorld 1) ⟨.ret .always false, 1, 1⟩).bind fun q =>
      (q.perform (quietWorld 1) ⟨.pop .de, 1, 3⟩).bind fun _ =>
        Except.ok (n.cpu.sp, n.cpu.pc, p.cpu.pc)) = .ok (0xFFFC, 0x0153, 0x0200) := by
    decide
  obtain ⟨n, hn, hrun⟩ := bind_eq_ok.mp hrun
  obtain ⟨p, hp, hrun⟩ := bind_eq_ok.mp hrun
  obtain ⟨q, hq, hrun⟩ := bind_eq_ok.mp hrun
  obtain ⟨k, hk, hrun⟩ := bind_eq_ok.mp hrun
  simp only [Except.ok.injEq, Prod.mk.injEq] at hrun
  obtain ⟨hsp, hpc, htarget⟩ := hrun
  have hcall : StackRun (quietWorld 1) .high 0xFFFE
      ([] ++ [(n.cpu.pc, ⟨none, q.cpu.pc⟩)]) n q :=
    .pair ⟨by rw [hsp]; decide, .call rfl rfl hp⟩ (.done p) (.ret rfl rfl hq) (.done q)
  have hnested : StackRun (quietWorld 1) .high 0xFFFE
      (([] ++ [(n.cpu.pc, ⟨none, q.cpu.pc⟩)]) ++
        [(loaded.cpu.get16 .bc, ⟨some .de, k.cpu.get16 .de⟩)]) loaded k :=
    .pair ⟨by decide, .push rfl hn⟩ hcall (.pop (by decide) rfl hk) (.done k)
  have htop : loaded.cpu.sp.toNat ≤ StackArea.high.limit := by decide
  obtain ⟨hright, hspEnd⟩ := stack_discipline (w := quietWorld 1) rfl htop hnested
  have hreturned : q.cpu.pc = n.cpu.pc := (hright (n.cpu.pc, ⟨none, q.cpu.pc⟩) (by simp)).1
  have hvalue := (hright (loaded.cpu.get16 .bc, ⟨some .de, k.cpu.get16 .de⟩) (by simp)).1
  exact ⟨n, p, q, k, hn, hp, htarget, hq, hreturned.trans hpc, hk, hvalue, hspEnd⟩

end Machine

end GbEmu
