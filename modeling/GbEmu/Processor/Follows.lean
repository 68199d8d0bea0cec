import GbEmu.Lib.Follows
import GbEmu.Processor.Execute
import GbEmu.Processor.IgnoresTimer

/-!
What one cycle of the processor keeps. An invariant of the machine that its
primitives keep, on a bus that follows another one, is kept by every instruction:
the rules here take that from `tick` and `write` up to `execute`.
-/

namespace GbEmu

open Run

/-- The same threads with other writes. -/
def World.withWrite (w : World) (write : Bus → UInt16 → UInt8 → Except Fault Bus) : World :=
  { w with write := write }

/-! ## Instructions -/

namespace Machine

/-- An invariant that the processor's own steps and `Clock::tick` keep, on a bus that
follows another one. -/
structure TickRules (I : Machine → Prop) (guarded w : World) : Prop where
  cpu : ∀ m p, p.timer = m.cpu.timer → I m → I { m with cpu := p }
  unlock : ∀ m, I m → I m.unlockBiosRegion
  clockTick : ∀ m ticks, I m → Follows I (m.clockTick guarded ticks) (m.clockTick w ticks)

/-- An invariant that everything keeps which an instruction is made of. -/
structure CycleRules (I : Machine → Prop) (guarded w : World) : Prop
    extends TickRules I guarded w where
  write : ∀ m address value, I m →
    Follows I (m.write guarded address value) (m.write w address value)
  stop : ∀ m, I m → Follows I (m.stop guarded) (m.stop w)

section Ticks

variable {I : Machine → Prop} {guarded w : World} (hI : TickRules I guarded w) {m : Machine}

include hI

theorem onCpu_kept {f : Processor → Processor} (hf : Processor.IgnoresTimer f) (h : I m) :
    I (m.onCpu f) :=
  hI.cpu m _ (hf.timer_eq m.cpu) h

theorem follows_pointer (p : Pointer) (h : I m) : I (m.pointer p).2 := by
  cases p with
  | hlDec => exact onCpu_kept hI (Processor.ignoresTimer_dec16 .hl) h
  | hlInc => exact onCpu_kept hI (Processor.ignoresTimer_inc16 .hl) h
  | _ => exact h

theorem follows_byteArg (value : ByteArg) (h : I m) :
    Follows (fun x => I x.2) (m.byteArg value) (m.byteArg value) := by
  cases value with
  | reg r => exact follows_ok h
  | operand => exact follows_ok h
  | peek p => exact (follows_refl _).map fun _ _ => follows_pointer hI p h

theorem follows_withByte (value : ByteArg) {f : Processor → UInt8 → Processor}
    (hf : ∀ byte, Processor.IgnoresTimer (f · byte)) (h : I m) :
    Follows I (m.withByte value f) (m.withByte value f) :=
  (follows_byteArg hI value h).map fun x hx => onCpu_kept hI (hf x.1) hx

theorem follows_pop (h : I m) : Follows (fun x => I x.2) m.pop m.pop :=
  (follows_refl _).bind fun _ _ => (follows_refl _).bind fun _ _ =>
    follows_ok (hI.cpu m _ rfl h)

theorem follows_fetch (h : I m) : Follows (fun x => I x.2) m.fetch m.fetch :=
  (follows_refl _).map fun _ _ => hI.cpu m _ rfl h

theorem follows_entry (opcode : UInt8) (h : I m) :
    Follows (fun x => I x.2) (m.entry opcode) (m.entry opcode) :=
  .ite (fun _ => (follows_fetch hI h).map fun _ hx => hx) fun _ => follows_ok h

theorem follows_lookup (opcode : UInt8) (h : I m) :
    Follows (fun x => I x.2) (m.lookup opcode) (m.lookup opcode) := by
  refine (follows_entry hI opcode h).bind fun x hx => ?_
  obtain ⟨entry, m'⟩ := x
  cases entry with
  | none => exact follows_error _ _
  | some operation => exact follows_ok hx

theorem follows_readOperand (i : Nat) (h : I m) :
    Follows I (m.readOperand i) (m.readOperand i) :=
  (follows_fetch hI h).map fun x hx => hI.cpu x.2 _ rfl hx

theorem follows_readOperands (n : Nat) (h : I m) :
    Follows I (Run.run readOperand m (List.range n)) (Run.run readOperand m (List.range n)) :=
  follows_run (fun _ _ ht => follows_readOperand hI _ ht) _ h

theorem follows_tick (ticks : UInt8) (h : I m) :
    Follows I (m.tick guarded ticks) (m.tick w ticks) :=
  hI.clockTick m _ h

theorem follows_jump (address : UInt16) (h : I m) :
    Follows I (m.jump guarded address) (m.jump w address) :=
  follows_tick hI 1 (hI.cpu m _ rfl h)

theorem follows_ret (enable : Bool) (h : I m) :
    Follows I (m.ret guarded enable) (m.ret w enable) := by
  refine (follows_pop hI h).bind fun x hx => ?_
  have hreturned : I (x.2.setPc x.1) := hI.cpu x.2 _ rfl hx
  cases enable with
  | false => exact follows_tick hI 3 hreturned
  | true => exact follows_tick hI 3 (hI.cpu (x.2.setPc x.1) _ rfl hreturned)

omit hI in
theorem follows_provided {f g : Machine → Except Fault Machine} (condition : Condition)
    (hf : Follows I (f m) (g m)) (h : I m) :
    Follows I (m.provided condition f) (m.provided condition g) :=
  .ite (fun _ => hf) fun _ => follows_ok h

/-- The machine that `execute` fetches from. -/
def awake (m : Machine) : Machine :=
  let m := m.onCpu fun p => { p with halted := false, operands := (0x00, 0x00) }
  if m.cpu.pc = romEntryPoint then m.unlockBiosRegion else m

theorem awake_kept (h : I m) : I m.awake := by
  have hwoken : I (m.onCpu fun p => { p with halted := false, operands := (0x00, 0x00) }) :=
    hI.cpu m _ rfl h
  simp only [awake]
  split_ifs
  · exact hI.unlock _ hwoken
  · exact hwoken

end Ticks

section Writes

variable {I : Machine → Prop} {guarded w : World} (hI : CycleRules I guarded w) {m : Machine}

include hI

theorem follows_push (value : UInt16) (h : I m) :
    Follows I (m.push guarded value) (m.push w value) := by
  have hupper := hI.write (m.setSp (m.cpu.sp - 1)) (m.cpu.sp - 1) (Processor.upper value)
    (hI.cpu m _ rfl h)
  exact hupper.bind fun t ht =>
    hI.write (t.setSp (t.cpu.sp - 1)) (t.cpu.sp - 1) (Processor.lower value) (hI.cpu t _ rfl ht)

theorem follows_call (h : I m) : Follows I (m.call guarded) (m.call w) :=
  (follows_push hI m.cpu.pc h).bind fun t ht =>
    follows_tick hI.toTickRules 3 (hI.cpu t _ rfl ht)

theorem follows_rst (address : UInt8) (h : I m) :
    Follows I (m.rst guarded address) (m.rst w address) :=
  (follows_push hI m.cpu.pc h).bind fun t ht => follows_ok (hI.cpu t _ rfl ht)

theorem follows_loadMem16 (ptr value : UInt16) (h : I m) :
    Follows I (m.loadMem16 guarded ptr value) (m.loadMem16 w ptr value) :=
  (hI.write _ _ _ h).bind fun _ ht => hI.write _ _ _ ht

theorem follows_onAddress (address : UInt16) (ticks : UInt8) {handler : Processor.ByteHandler}
    (hh : Processor.ByteIgnoresTimer handler) (h : I m) :
    Follows I (m.onAddress guarded address ticks handler)
      (m.onAddress w address ticks handler) := by
  refine (follows_tick hI.toTickRules ticks h).bind fun t ht => ?_
  refine (follows_refl _).bind fun value _ => ?_
  refine (follows_tick hI.toTickRules 1 ht).bind fun u hu => ?_
  have hhandled := hI.cpu u (handler u.cpu value).1 (hh.timer_eq u.cpu value) hu
  exact hI.write { u with cpu := (handler u.cpu value).1 } address _ hhandled

theorem follows_onTarget (target : Target) (ticks : UInt8) {handler : Processor.ByteHandler}
    (hh : Processor.ByteIgnoresTimer handler) (h : I m) :
    Follows I (m.onTarget guarded target ticks handler) (m.onTarget w target ticks handler) := by
  cases target with
  | reg r => exact follows_ok (onCpu_kept hI.toTickRules (Processor.ignoresTimer_onRegister hh r) h)
  | address => exact follows_onAddress hI _ ticks hh h

open Processor in
theorem follows_handle (handler : Handler) (h : I m) :
    Follows I (m.handle guarded handler) (m.handle w handler) := by
  have hT := hI.toTickRules
  unfold handle
  cases handler with
  | add8 value carry => exact follows_withByte hT value (fun byte => ignoresTimer_add8 byte carry) h
  | sub8 value carry => exact follows_withByte hT value (fun byte => ignoresTimer_sub8 byte carry) h
  | sbc value => exact follows_withByte hT value (fun byte => ignoresTimer_sub8 byte true) h
  | and8 value => exact follows_withByte hT value ignoresTimer_and8 h
  | or8 value => exact follows_withByte hT value ignoresTimer_or8 h
  | xor8 value => exact follows_withByte hT value ignoresTimer_xor8 h
  | compare value => exact follows_withByte hT value ignoresTimer_compare h
  | bit value which => exact follows_withByte hT value (fun byte => ignoresTimer_bit byte which) h
  | ld reg value => exact follows_withByte hT value (fun byte => ignoresTimer_set8 byte reg) h
  | inc target => exact follows_onTarget hI target 2 byteIgnoresTimer_inc h
  | dec target => exact follows_onTarget hI target 2 byteIgnoresTimer_dec h
  | swap target => exact follows_onTarget hI target 3 byteIgnoresTimer_swap h
  | rotatel target wrap ignoreZero =>
    exact follows_onTarget hI target 3 (byteIgnoresTimer_rotatel wrap ignoreZero) h
  | rotater target wrap ignoreZero =>
    exact follows_onTarget hI target 3 (byteIgnoresTimer_rotater wrap ignoreZero) h
  | rlc target ignoreZero => exact follows_onTarget hI target 3 (byteIgnoresTimer_rlc ignoreZero) h
  | rrc target ignoreZero => exact follows_onTarget hI target 3 (byteIgnoresTimer_rrc ignoreZero) h
  | sla target => exact follows_onTarget hI target 3 (byteIgnoresTimer_rotatel false false) h
  | sra target => exact follows_onTarget hI target 3 byteIgnoresTimer_sra h
  | srl target => exact follows_onTarget hI target 3 (byteIgnoresTimer_rotater false false) h
  | res target which => exact follows_onTarget hI target 3 (fun _ _ _ => rfl) h
  | set target which => exact follows_onTarget hI target 3 (fun _ _ _ => rfl) h
  | loadMem ptr value =>
    refine (follows_byteArg hT value (follows_pointer hT ptr h)).bind fun _ hx => ?_
    exact hI.write _ _ _ hx
  | loadMem16 value => exact follows_loadMem16 hI _ _ h
  | pop reg =>
    exact (follows_pop hT h).map fun x hx => onCpu_kept hT (ignoresTimer_set16 reg x.1) hx
  | push reg => exact follows_push hI _ h
  | jump condition => exact follows_provided condition (follows_jump hT _ h) h
  | jumpHl => exact follows_jump hT _ h
  | jumprel condition => exact follows_provided condition (follows_jump hT _ h) h
  | call condition => exact follows_provided condition (follows_call hI h) h
  | ret condition enable => exact follows_provided condition (follows_ret hT enable h) h
  | rst address => exact follows_rst hI address h
  | stop => exact hI.stop m h
  | nop => exact follows_ok h
  | compliment => exact follows_ok (onCpu_kept hT ignoresTimer_compliment h)
  | daa => exact follows_ok (onCpu_kept hT ignoresTimer_daa h)
  | ccf => exact follows_ok (onCpu_kept hT ignoresTimer_ccf h)
  | scf => exact follows_ok (hI.cpu m _ rfl h)
  | add16 reg value => exact follows_ok (onCpu_kept hT (ignoresTimer_add16 reg value) h)
  | add16Signed dest => exact follows_ok (onCpu_kept hT (ignoresTimer_add16Signed dest) h)
  | inc16 reg => exact follows_ok (onCpu_kept hT (ignoresTimer_inc16 reg) h)
  | dec16 reg => exact follows_ok (onCpu_kept hT (ignoresTimer_dec16 reg) h)
  | load reg value => exact follows_ok (onCpu_kept hT (ignoresTimer_set16 reg _) h)
  | setEnable enable => exact follows_ok (hI.cpu m _ rfl h)
  | halt => exact follows_ok (hI.cpu m _ rfl h)

theorem follows_perform (operation : Operation) (h : I m) :
    Follows I (m.perform guarded operation) (m.perform w operation) := by
  have hticks : Follows I
      (if operation.cycles = 0 then pure m else m.tick guarded operation.cycles)
      (if operation.cycles = 0 then pure m else m.tick w operation.cycles) :=
    .ite (fun _ => follows_ok h) fun _ => follows_tick hI.toTickRules _ h
  refine hticks.bind fun t ht => ?_
  refine (follows_handle hI operation.handler ht).bind fun u hu => ?_
  exact follows_ok (hI.cpu u _ rfl hu)

theorem follows_execute (interrupted : Bool) (h : I m) :
    Follows I (m.execute guarded interrupted) (m.execute w interrupted) := by
  have hT := hI.toTickRules
  refine .ite (fun _ => follows_tick hT 1 h) fun _ => ?_
  refine (follows_fetch hT (awake_kept hT h)).bind fun x hx => ?_
  refine (follows_lookup hT x.1 hx).bind fun y hy => ?_
  refine (follows_readOperands hT _ hy).bind fun t ht => ?_
  exact follows_perform hI y.1 ht

end Writes

end Machine

end GbEmu
