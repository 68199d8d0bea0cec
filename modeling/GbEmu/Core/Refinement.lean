import GbEmu.Core
import GbEmu.Lib.Refines
import GbEmu.Processor.Halt

/-!
A cycle of the console does to what a program sees what the step of the view does. The
devices tick meanwhile, and may request any interrupt; the program sees of it only what
it reads from their registers.
-/

namespace GbEmu

open Run

/-- The program at `m` sees `c`. -/
structure Shows (space : Space) (m : Machine) (c : Core) : Prop where
  cpu : ∃ timer, m.cpu = c.cpu.withTimer timer
  memory : ∀ a, space.memory a = true → m.peek a = .ok (c.memory a)
  running : m.running = true

namespace Shows

variable {space : Space} {m n : Machine} {c : Core}

theorem get8 (h : Shows space m c) (r : Reg8) : m.cpu.get8 r = c.cpu.get8 r := by
  obtain ⟨timer, hcpu⟩ := h.cpu
  rw [hcpu]
  cases r <;> rfl

theorem get16 (h : Shows space m c) (r : Reg16) : m.cpu.get16 r = c.cpu.get16 r := by
  obtain ⟨timer, hcpu⟩ := h.cpu
  rw [hcpu]
  cases r <;> rfl

theorem operands (h : Shows space m c) : m.cpu.operands = c.cpu.operands := by
  obtain ⟨timer, hcpu⟩ := h.cpu
  rw [hcpu]
  rfl

theorem pc (h : Shows space m c) : m.cpu.pc = c.cpu.pc := by
  obtain ⟨timer, hcpu⟩ := h.cpu
  rw [hcpu]
  rfl

theorem halted (h : Shows space m c) : m.cpu.halted = c.cpu.halted := by
  obtain ⟨timer, hcpu⟩ := h.cpu
  rw [hcpu]
  rfl

theorem enable (h : Shows space m c) : m.cpu.enable = c.cpu.enable := by
  obtain ⟨timer, hcpu⟩ := h.cpu
  rw [hcpu]
  rfl

theorem args (h : Shows space m c) : m.cpu.args = c.cpu.args := by
  unfold Processor.args
  rw [h.operands]

theorem holds (h : Shows space m c) (condition : Condition) :
    m.holds condition = c.holds condition := by
  obtain ⟨timer, hcpu⟩ := h.cpu
  unfold Machine.holds
  rw [hcpu]
  cases condition <;> rfl

/-- The timer does not take part in what a handler computes. -/
theorem onCpu (h : Shows space m c) {f : Processor → Processor}
    (hf : Processor.IgnoresTimer f) : Shows space (m.onCpu f) (c.onCpu f) := by
  obtain ⟨timer, hcpu⟩ := h.cpu
  refine ⟨⟨timer, ?_⟩, h.memory, h.running⟩
  show f m.cpu = _
  rw [hcpu]
  exact hf c.cpu timer

theorem setPc (h : Shows space m c) (pc : UInt16) : Shows space (m.setPc pc) (c.setPc pc) :=
  h.onCpu (f := fun p => { p with pc := pc }) fun _ _ => rfl

theorem setSp (h : Shows space m c) (sp : UInt16) : Shows space (m.setSp sp) (c.setSp sp) :=
  h.onCpu (f := fun p => { p with sp := sp }) fun _ _ => rfl

theorem setEnable (h : Shows space m c) (enable : Bool) :
    Shows space (m.setEnable enable) (c.setEnable enable) :=
  h.onCpu (f := fun p => { p with enable := enable }) fun _ _ => rfl

/-- Nothing but ticks between `m` and `n`. -/
theorem ticked {ticks : UInt8} (h : Shows space m c) (ht : m.Ticked ticks n)
    (hio : m.bus.SparesRegisters n.bus) : Shows space n c := by
  obtain ⟨timer, hcpu⟩ := h.cpu
  obtain ⟨timer', -, hcpu'⟩ := ht.cpu
  refine ⟨⟨timer', by rw [hcpu', hcpu]; rfl⟩, fun a ha => ?_, ?_⟩
  · exact (Bus.peek_plain_kept ht.bus hio (space.plain a ha)).trans (h.memory a ha)
  · have hrunning := h.running
    unfold Machine.running Bus.isCartridgeValid at hrunning ⊢
    rwa [ht.bus.cartridge, ht.bus.inBios]

end Shows

namespace Machine

section Parts

variable {w : World} {depth : Nat} {space : Space} {inputs : UInt16 → Option UInt8} {m : Machine}
  {c : Core}

/-- What the program reads outside its memory is what the bus of `m` holds there. -/
def Supplies (m : Machine) (inputs : UInt16 → Option UInt8) : Prop :=
  ∀ a v, inputs a = some v → m.peek a = .ok v

/-- A result, and the machine behind it. -/
def ShowsWith (space : Space) {α : Type} (x : α × Machine) (y : α × Core) : Prop :=
  x.1 = y.1 ∧ Shows space x.2 y.2

/-! ## Reads -/

theorem refines_peek (h : Shows space m c) (hin : m.Supplies inputs) (a : UInt16) :
    Refines Eq (m.peek a) (c.peek space inputs a) := by
  intro v hv
  refine ⟨v, ?_, rfl⟩
  unfold Core.peek at hv
  split_ifs at hv with hmem
  · obtain rfl := Option.some.inj hv
    exact h.memory a hmem
  · exact hin a v hv

theorem fetch_refines (h : Shows space m c) :
    Refines (ShowsWith space) m.fetch (c.fetch space) := by
  unfold Machine.fetch Core.fetch
  rw [h.pc]
  refine .guard fun hmem => ?_
  rw [h.memory _ hmem]
  exact refines_ok ⟨rfl, h.setPc _⟩

theorem pointer_shows (h : Shows space m c) (p : Pointer) :
    ShowsWith space (m.pointer p) (c.pointer p) := by
  cases p with
  | reg r => exact ⟨h.get16 r, h⟩
  | args => exact ⟨h.args, h⟩
  | highOperand => exact ⟨by rw [pointer, Core.pointer, h.operands], h⟩
  | highC => exact ⟨congrArg (fun x : UInt8 => 0xFF00 + x.toUInt16) (h.get8 .c), h⟩
  | hlDec => exact ⟨h.get16 .hl, h.onCpu (f := (·.dec16 .hl)) (Processor.ignoresTimer_dec16 .hl)⟩
  | hlInc => exact ⟨h.get16 .hl, h.onCpu (f := (·.inc16 .hl)) (Processor.ignoresTimer_inc16 .hl)⟩

theorem pointer_bus (m : Machine) (p : Pointer) : (m.pointer p).2.bus = m.bus := by
  cases p <;> rfl

theorem byteArg_refines (h : Shows space m c) (hin : m.Supplies inputs) (value : ByteArg) :
    Refines (ShowsWith space) (m.byteArg value) (c.byteArg space inputs value) := by
  cases value with
  | reg r => exact refines_ok ⟨h.get8 r, h⟩
  | operand => exact refines_ok ⟨congrArg Prod.fst h.operands, h⟩
  | peek p =>
    obtain ⟨haddress, hshows⟩ := pointer_shows h p
    have hin' : (m.pointer p).2.Supplies inputs := fun a v hv => by
      rw [peek, pointer_bus]
      exact hin a v hv
    show Refines _ (((m.pointer p).2.peek (m.pointer p).1).map fun byte => (byte, (m.pointer p).2))
      (((c.pointer p).2.peek space inputs (c.pointer p).1).map fun byte => (byte, (c.pointer p).2))
    rw [← haddress]
    exact (refines_peek hshows hin' _).map fun _ _ heq => ⟨heq, hshows⟩

theorem withByte_refines (h : Shows space m c) (hin : m.Supplies inputs) (value : ByteArg)
    {f : Processor → UInt8 → Processor} (hf : ∀ byte, Processor.IgnoresTimer (f · byte)) :
    Refines (Shows space) (m.withByte value f) (c.withByte space inputs value f) := by
  refine (byteArg_refines h hin value).map fun x y hxy => ?_
  obtain ⟨byte, n⟩ := x
  obtain ⟨byte', d⟩ := y
  obtain ⟨rfl, hd⟩ := hxy
  exact hd.onCpu (hf byte)

theorem pop_refines (h : Shows space m c) (hin : m.Supplies inputs) :
    Refines (ShowsWith space) m.pop (c.pop space inputs) := by
  unfold pop Core.pop
  rw [show m.cpu.sp = c.cpu.sp from h.get16 .sp]
  refine (refines_peek h hin _).bind fun lower _ hlower => ?_
  subst hlower
  refine (refines_peek h hin _).bind fun upper _ hupper => ?_
  subst hupper
  exact refines_ok ⟨rfl, h.setSp _⟩

theorem provided_refines (h : Shows space m c) (condition : Condition)
    {f : Machine → Except Fault Machine} {g : Core → Option Core}
    (hf : Refines (Shows space) (f m) (g c)) :
    Refines (Shows space) (m.provided condition f) (c.provided condition g) := by
  unfold provided Core.provided
  rw [h.holds]
  exact .ite Iff.rfl hf (refines_ok h)

/-! ## Ticks and writes -/

section Effects

variable (hwrite : w.write = Bus.write (depth + 1))

include hwrite

theorem tick_shows (h : Shows space m c) (ticks : UInt8) :
    ∃ n, m.tick w ticks = .ok n ∧ Shows space n c := by
  obtain ⟨n, hn, hticked⟩ :=
    clockTick_total hwrite m (ticks * adjustment m.cpu.timer.speed)
  exact ⟨n, hn, h.ticked hticked (clockTick_spares hwrite hn)⟩

/-- A tick at the end of what `y` does. -/
theorem refines_tick {x : Except Fault Machine} {y : Option Core}
    (h : Refines (Shows space) x y) (ticks : UInt8) :
    Refines (Shows space) (x.bind fun m => m.tick w ticks) y := by
  intro c hc
  obtain ⟨n, hn, hshows⟩ := h c hc
  obtain ⟨n', hn', hshows'⟩ := tick_shows hwrite hshows ticks
  exact ⟨n', bind_eq_ok.mpr ⟨n, hn, hn'⟩, hshows'⟩

theorem write_refines (h : Shows space m c) (a : UInt16) (value : UInt8) :
    Refines (Shows space) (m.write w a value) (c.write space a value) := by
  refine .guard fun ⟨hmem, hram⟩ => ?_
  obtain ⟨s, hs, hstored⟩ :=
    Bus.write_plain (space.plain a hmem) hram (h.memory a hmem) value depth
  unfold write
  rw [hwrite, hs]
  refine refines_ok ⟨h.cpu, fun b hb => ?_, ?_⟩
  · show s.peek b = .ok (Function.update c.memory a value b)
    rw [hstored.peek b (space.plain b hb), Function.update_apply]
    split_ifs
    · rfl
    · exact h.memory b hb
  · have hrunning := h.running
    unfold running Bus.isCartridgeValid at hrunning ⊢
    rwa [hstored.cartridge, hstored.inBios]

theorem push_refines (h : Shows space m c) (value : UInt16) :
    Refines (Shows space) (m.push w value) (c.push space value) := by
  have hstore : ∀ {n : Machine} {d : Core}, Shows space n d → ∀ v : UInt8,
      Refines (Shows space) ((n.setSp (n.cpu.sp - 1)).write w (n.cpu.sp - 1) v)
        ((d.setSp (d.cpu.sp - 1)).write space (d.cpu.sp - 1) v) := by
    intro n d hd v
    rw [show n.cpu.sp = d.cpu.sp from hd.get16 .sp]
    exact write_refines hwrite (hd.setSp _) _ v
  exact (hstore h _).bind fun n d hd => hstore hd _

theorem onTarget_refines (h : Shows space m c) (target : Target) (ticks : UInt8)
    {handler : Processor.ByteHandler} (hhandler : Processor.ByteIgnoresTimer handler) :
    Refines (Shows space) (m.onTarget w target ticks handler)
      (c.onTarget space target handler) := by
  cases target with
  | reg r => exact refines_ok (h.onCpu (Processor.ignoresTimer_onRegister hhandler r))
  | address =>
    refine .guard fun hmem => ?_
    obtain ⟨n, hn, hshows⟩ := tick_shows hwrite h ticks
    obtain ⟨n', hn', hshows'⟩ := tick_shows hwrite hshows 1
    obtain ⟨timer, hcpu⟩ := hshows'.cpu
    have hhl : m.cpu.hl = c.cpu.hl := h.get16 .hl
    have hvalue : handler n'.cpu (c.memory c.cpu.hl) =
        ((handler c.cpu (c.memory c.cpu.hl)).1.withTimer timer,
          (handler c.cpu (c.memory c.cpu.hl)).2) := by
      rw [hcpu]
      exact hhandler c.cpu timer _
    have hresult : m.onTarget w .address ticks handler =
        ({ n' with cpu := (handler c.cpu (c.memory c.cpu.hl)).1.withTimer timer } : Machine).write w
          c.cpu.hl (handler c.cpu (c.memory c.cpu.hl)).2 := by
      simp only [Machine.onTarget, onAddress, hhl]
      rw [hn]
      show (n.peek c.cpu.hl).bind _ = _
      rw [hshows.memory _ hmem]
      show (n.tick w 1).bind _ = _
      rw [hn']
      show Machine.write w { n' with cpu := (handler n'.cpu (c.memory c.cpu.hl)).1 } c.cpu.hl
        (handler n'.cpu (c.memory c.cpu.hl)).2 = _
      rw [hvalue]
    rw [hresult]
    exact write_refines hwrite
      (m := { n' with cpu := (handler c.cpu (c.memory c.cpu.hl)).1.withTimer timer })
      (c := { c with cpu := (handler c.cpu (c.memory c.cpu.hl)).1 })
      ⟨⟨timer, rfl⟩, hshows'.memory, hshows'.running⟩ _ _

/-! ## Handlers -/

theorem jump_refines (h : Shows space m c) (address : UInt16) :
    Refines (Shows space) (m.jump w address) (some (c.setPc address)) :=
  refines_tick hwrite (refines_ok (h.setPc address)) 1

theorem call_refines (h : Shows space m c) :
    Refines (Shows space) (m.call w)
      ((c.push space c.cpu.pc).map fun c => c.setPc c.cpu.args) := by
  unfold call
  rw [h.pc]
  intro d hd
  obtain ⟨c', hc', rfl⟩ := Option.map_eq_some_iff.mp hd
  obtain ⟨n, hn, hshows⟩ := push_refines hwrite h _ c' hc'
  rw [hn]
  show ∃ a, (n.setPc n.cpu.args).tick w 3 = .ok a ∧ _
  rw [hshows.args]
  exact tick_shows hwrite (hshows.setPc _) 3

theorem ret_refines (h : Shows space m c) (hin : m.Supplies inputs) (enable : Bool) :
    Refines (Shows space) (m.ret w enable)
      ((c.pop space inputs).map fun (pc, c) =>
        if enable then (c.setPc pc).setEnable true else c.setPc pc) := by
  intro d hd
  obtain ⟨⟨pc, c'⟩, hc', rfl⟩ := Option.map_eq_some_iff.mp hd
  obtain ⟨⟨pc', n⟩, hn, rfl, hshows⟩ := pop_refines h hin _ hc'
  unfold ret
  rw [hn]
  cases enable with
  | false => exact tick_shows hwrite (hshows.setPc _) 3
  | true => exact tick_shows hwrite ((hshows.setPc _).setEnable true) 3

theorem rst_refines (h : Shows space m c) (address : UInt8) :
    Refines (Shows space) (m.rst w address)
      ((c.push space c.cpu.pc).map fun c => c.setPc address.toUInt16) := by
  unfold rst
  rw [h.pc]
  exact (push_refines hwrite h _).map fun _ _ hshows => hshows.setPc _

theorem loadMem_refines (h : Shows space m c) (hin : m.Supplies inputs) (ptr : Pointer)
    (value : ByteArg) :
    Refines (Shows space) (m.handle w (.loadMem ptr value))
      (c.handle space inputs (.loadMem ptr value)) := by
  obtain ⟨haddress, hshows⟩ := pointer_shows h ptr
  have hin' : (m.pointer ptr).2.Supplies inputs := fun a v hv => by
    rw [peek, pointer_bus]
    exact hin a v hv
  show Refines _ (((m.pointer ptr).2.byteArg value).bind fun x =>
      x.2.write w (m.pointer ptr).1 x.1)
    (((c.pointer ptr).2.byteArg space inputs value).bind fun y =>
      y.2.write space (c.pointer ptr).1 y.1)
  refine (byteArg_refines hshows hin' value).bind fun x y ⟨hbyte, hxy⟩ => ?_
  rw [hbyte, haddress]
  exact write_refines hwrite hxy _ _

theorem loadMem16_refines (h : Shows space m c) (value : Reg16) :
    Refines (Shows space) (m.handle w (.loadMem16 value))
      (c.handle space inputs (.loadMem16 value)) := by
  show Refines _ (m.loadMem16 w m.cpu.args (m.cpu.get16 value)) _
  rw [h.args, h.get16]
  exact (write_refines hwrite h _ _).bind fun n d hd => write_refines hwrite hd _ _

/-- **A handler.** -/
theorem handle_refines (h : Shows space m c) (hin : m.Supplies inputs) (handler : Handler) :
    Refines (Shows space) (m.handle w handler) (c.handle space inputs handler) := by
  have hbyte : ∀ value (f : Processor → UInt8 → Processor),
      (∀ byte, Processor.IgnoresTimer (f · byte)) →
        Refines (Shows space) (m.withByte value f) (c.withByte space inputs value f) :=
    fun value _ hf => withByte_refines h hin value hf
  have htarget : ∀ target ticks (f : Processor.ByteHandler), Processor.ByteIgnoresTimer f →
      Refines (Shows space) (m.onTarget w target ticks f) (c.onTarget space target f) :=
    fun target ticks _ hf => onTarget_refines hwrite h target ticks hf
  cases handler with
  | nop => exact refines_ok h
  | add8 value carry => exact hbyte value _ fun byte => Processor.ignoresTimer_add8 byte carry
  | sub8 value carry => exact hbyte value _ fun byte => Processor.ignoresTimer_sub8 byte carry
  | sbc value => exact hbyte value _ fun byte => Processor.ignoresTimer_sub8 byte true
  | and8 value => exact hbyte value _ Processor.ignoresTimer_and8
  | or8 value => exact hbyte value _ Processor.ignoresTimer_or8
  | xor8 value => exact hbyte value _ Processor.ignoresTimer_xor8
  | compare value => exact hbyte value _ Processor.ignoresTimer_compare
  | compliment => exact refines_ok (h.onCpu Processor.ignoresTimer_compliment)
  | daa => exact refines_ok (h.onCpu Processor.ignoresTimer_daa)
  | ccf => exact refines_ok (h.onCpu Processor.ignoresTimer_ccf)
  | scf => exact refines_ok (h.onCpu Processor.ignoresTimer_scf)
  | add16 reg value => exact refines_ok (h.onCpu (Processor.ignoresTimer_add16 reg value))
  | add16Signed dest => exact refines_ok (h.onCpu (Processor.ignoresTimer_add16Signed dest))
  | inc16 reg => exact refines_ok (h.onCpu (Processor.ignoresTimer_inc16 reg))
  | dec16 reg => exact refines_ok (h.onCpu (Processor.ignoresTimer_dec16 reg))
  | inc target => exact htarget target 2 _ Processor.byteIgnoresTimer_inc
  | dec target => exact htarget target 2 _ Processor.byteIgnoresTimer_dec
  | swap target => exact htarget target 3 _ Processor.byteIgnoresTimer_swap
  | rotatel target wrap ignoreZero =>
    exact htarget target 3 _ (Processor.byteIgnoresTimer_rotatel wrap ignoreZero)
  | rotater target wrap ignoreZero =>
    exact htarget target 3 _ (Processor.byteIgnoresTimer_rotater wrap ignoreZero)
  | rlc target ignoreZero => exact htarget target 3 _ (Processor.byteIgnoresTimer_rlc ignoreZero)
  | rrc target ignoreZero => exact htarget target 3 _ (Processor.byteIgnoresTimer_rrc ignoreZero)
  | sla target => exact htarget target 3 _ (Processor.byteIgnoresTimer_rotatel false false)
  | sra target => exact htarget target 3 _ Processor.byteIgnoresTimer_sra
  | srl target => exact htarget target 3 _ (Processor.byteIgnoresTimer_rotater false false)
  | res target which => exact htarget target 3 _ fun _ _ _ => rfl
  | set target which => exact htarget target 3 _ fun _ _ _ => rfl
  | bit value which => exact hbyte value _ fun byte => Processor.ignoresTimer_bit byte which
  | ld reg value => exact hbyte value _ fun byte => Processor.ignoresTimer_set8 byte reg
  | load reg value =>
    have hvalue : m.wordArg value = c.wordArg value := by
      cases value with
      | reg r => exact h.get16 r
      | args => exact h.args
    show Refines _ (.ok (m.onCpu fun p => p.set16 reg (m.wordArg value))) _
    rw [hvalue]
    exact refines_ok (h.onCpu fun p timer => p.set16_withTimer timer reg _)
  | loadMem ptr value => exact loadMem_refines hwrite h hin ptr value
  | loadMem16 value => exact loadMem16_refines hwrite h value
  | pop reg =>
    refine (pop_refines h hin).map fun x y ⟨hvalue, hxy⟩ => ?_
    show Shows space (x.2.onCpu (·.set16 reg x.1)) (y.2.onCpu (·.set16 reg y.1))
    rw [hvalue]
    exact hxy.onCpu fun p timer => p.set16_withTimer timer reg y.1
  | push reg =>
    show Refines _ (m.push w (m.cpu.get16 reg)) _
    rw [h.get16]
    exact push_refines hwrite h _
  | jump condition =>
    refine provided_refines (f := fun m => m.jump w m.cpu.args)
      (g := fun c => some (c.setPc c.cpu.args)) h condition ?_
    rw [h.args]
    exact jump_refines hwrite h _
  | jumpHl =>
    show Refines _ (m.jump w m.cpu.hl) _
    rw [show m.cpu.hl = c.cpu.hl from h.get16 .hl]
    exact jump_refines hwrite h _
  | jumprel condition =>
    refine provided_refines (f := fun m => m.jumprel w)
      (g := fun c => some (c.setPc (c.cpu.pc + Processor.signed c.cpu.operands.1))) h condition ?_
    rw [jumprel, h.pc, h.operands]
    exact jump_refines hwrite h _
  | call condition =>
    exact provided_refines (f := fun m => m.call w)
      (g := fun c => (c.push space c.cpu.pc).map fun c => c.setPc c.cpu.args) h condition
      (call_refines hwrite h)
  | ret condition enable =>
    exact provided_refines (f := fun m => m.ret w enable) (g := fun c =>
      (c.pop space inputs).map fun (pc, c) =>
        if enable then (c.setPc pc).setEnable true else c.setPc pc) h condition
      (ret_refines hwrite h hin enable)
  | rst address => exact rst_refines hwrite h address
  | setEnable enable => exact refines_ok (h.setEnable enable)
  | halt => exact refines_ok (h.onCpu fun _ _ => rfl)
  | stop => exact refines_none _ _

end Effects

/-! ## The cycle -/

theorem snapshot_supplies (m : Machine) : m.Supplies fun a => (m.peek a).toOption := by
  intro a v hv
  cases hpeek : m.peek a with
  | error e => simp [hpeek, Except.toOption] at hv
  | ok byte => simpa [hpeek, Except.toOption] using hv

theorem lookup_refines (h : Shows space m c) (opcode : UInt8) :
    Refines (ShowsWith space) (m.lookup opcode) (c.lookup space opcode) := by
  unfold Machine.lookup entry Core.lookup
  by_cases hprefix : opcode = cbPrefix
  · rw [if_pos hprefix, if_pos hprefix]
    intro y hy
    obtain ⟨⟨opcode', d⟩, hd, hy⟩ := Option.bind_eq_some_iff.mp hy
    obtain ⟨operation, hlookup, rfl⟩ := Option.map_eq_some_iff.mp hy
    obtain ⟨⟨opcode'', n⟩, hn, heq, hshows⟩ := fetch_refines h _ hd
    obtain rfl : opcode'' = opcode' := heq
    rw [hn]
    show ∃ a, Except.bind (.ok (Operation.cbOpcodes.lookup opcode'', n)) _ = .ok a ∧ _
    rw [hlookup]
    exact ⟨_, rfl, rfl, hshows⟩
  · rw [if_neg hprefix, if_neg hprefix]
    intro y hy
    obtain ⟨operation, hlookup, rfl⟩ := Option.map_eq_some_iff.mp hy
    rw [hlookup]
    exact ⟨_, rfl, rfl, h⟩

theorem readOperand_refines (h : Shows space m c) (i : Nat) :
    Refines (Shows space) (m.readOperand i) (c.readOperand space i) := by
  refine (fetch_refines h).map fun x y ⟨hbyte, hxy⟩ => ?_
  show Shows space (x.2.onCpu (setOperand · i x.1)) (y.2.onCpu (setOperand · i y.1))
  rw [hbyte]
  refine hxy.onCpu fun p timer => ?_
  unfold setOperand
  split_ifs <;> rfl

/-- `runInstruction` up to the ticks of the operation. -/
def decoded (m : Machine) : Except Fault (Operation × Machine) :=
  m.fetch.bind fun (opcode, m) =>
    (m.lookup opcode).bind fun (operation, m) =>
      (run readOperand m (List.range (operation.length.toNat - 1))).map fun m => (operation, m)

theorem decoded_refines
    (h : Shows space m (c.onCpu fun p => { p with operands := (0x00, 0x00) })) :
    Refines (ShowsWith space) m.decoded (c.instruction space) := by
  refine (fetch_refines h).bind fun x y ⟨hopcode, hxy⟩ => ?_
  obtain ⟨opcode, n⟩ := x
  obtain ⟨opcode', d⟩ := y
  obtain rfl : opcode = opcode' := hopcode
  refine (lookup_refines hxy opcode).bind fun x y ⟨hoperation, hxy⟩ => ?_
  obtain ⟨operation, n⟩ := x
  obtain ⟨operation', d⟩ := y
  obtain rfl : operation = operation' := hoperation
  exact (refines_run (fun _ _ i h => readOperand_refines h i) _ hxy).map fun _ _ h => ⟨rfl, h⟩

/-- `runInstruction` up to the handler. -/
def started (w : World) (m : Machine) : Except Fault (Operation × Machine) :=
  m.decoded.bind fun (operation, m) =>
    (if operation.cycles = 0 then .ok m else m.tick w operation.cycles).map fun m => (operation, m)

theorem runInstruction_eq (m : Machine) : m.runInstruction w = (m.started w).bind fun x =>
    (x.2.handle w x.1.handler).map (·.onCpu Processor.maskFlags) := by
  unfold runInstruction started decoded perform
  cases m.fetch with
  | error e => rfl
  | ok x =>
    obtain ⟨opcode, m⟩ := x
    show (m.lookup opcode).bind _ = Except.bind (Except.bind ((m.lookup opcode).bind _) _) _
    cases m.lookup opcode with
    | error e => rfl
    | ok x =>
      obtain ⟨operation, m⟩ := x
      show (run readOperand m _).bind _ =
        Except.bind (Except.bind ((run readOperand m _).map _) _) _
      cases run readOperand m (List.range (operation.length.toNat - 1)) with
      | error e => rfl
      | ok m =>
        show Except.bind (if operation.cycles = 0 then .ok m else m.tick w operation.cycles) _ =
          Except.bind (Except.map _ (if operation.cycles = 0 then .ok m
            else m.tick w operation.cycles)) _
        cases (if operation.cycles = 0 then Except.ok m else m.tick w operation.cycles) <;> rfl

section Cycle

variable (hwrite : w.write = Bus.write (depth + 1))

include hwrite

theorem started_refines
    (h : Shows space m (c.onCpu fun p => { p with operands := (0x00, 0x00) })) :
    Refines (ShowsWith space) (m.started w) (c.instruction space) := by
  intro y hy
  obtain ⟨⟨operation, n⟩, hn, heq, hshows⟩ := decoded_refines h y hy
  unfold started
  rw [hn]
  show ∃ a, Except.map _ (if operation.cycles = 0 then .ok n else n.tick w operation.cycles) =
    .ok a ∧ _
  by_cases hcycles : operation.cycles = 0
  · rw [if_pos hcycles]
    exact ⟨_, rfl, heq, hshows⟩
  · obtain ⟨n', hn', hshows'⟩ := tick_shows hwrite hshows operation.cycles
    rw [if_neg hcycles, hn']
    exact ⟨_, rfl, heq, hshows'⟩

end Cycle

/-- Nothing is dispatched and the processor is awake. -/
theorem cycle_quiet (h : Shows space m c) (hhalted : c.cpu.halted = false)
    (hquiet : c.quiet space = true) : m.cycle w = m.awake.runInstruction w := by
  have hinterrupt : m.interrupt w = .ok (m, false) := by
    unfold Core.quiet at hquiet
    rcases Bool.or_eq_true _ _ |>.mp hquiet with henable | hmask
    · have hoff : (!m.cpu.enable && !m.cpu.halted) = true := by
        rw [h.enable, h.halted, hhalted, henable]
        rfl
      rw [interrupt, if_pos hoff]
    · obtain ⟨hmem, hbits⟩ := Bool.and_eq_true _ _ |>.mp hmask
      have hzero : m.bus.zero interruptMaskAddress = c.memory interruptMaskAddress := by
        have hpeek := h.memory _ hmem
        unfold peek Bus.peek at hpeek
        rw [m.bus.find_high (by decide)] at hpeek
        exact Except.ok.inj hpeek
      refine interrupt_none w (pending_of_none ?_)
      rw [requested, hzero, UInt8.and_assoc, UInt8.and_comm (m.bus.io _), ← UInt8.and_assoc,
        eq_of_beq hbits, UInt8.zero_and]
  rw [cycle_running w h.running, hinterrupt]
  refine execute_awake w ?_
  rw [h.halted, hhalted]
  rfl

theorem awake_shows (h : Shows space m c) (hhalted : c.cpu.halted = false)
    (hpc : c.cpu.pc ≠ romEntryPoint) :
    Shows space m.awake (c.onCpu fun p => { p with operands := (0x00, 0x00) }) := by
  obtain ⟨timer, hcpu⟩ := h.cpu
  have hawake : m.awake = m.onCpu fun p => { p with halted := false, operands := (0x00, 0x00) } :=
    if_neg fun he => hpc (h.pc.symm.trans he)
  rw [hawake]
  refine ⟨⟨timer, ?_⟩, h.memory, h.running⟩
  show { m.cpu with halted := false, operands := (0x00, 0x00) } = _
  rw [hcpu, ← hhalted]
  rfl

/-- The console, between its ticks, as a source of inputs: a read of mapped IO has a result. -/
def ReadsIo (inputs : UInt16 → Option UInt8) : Prop :=
  ∀ a : UInt16, 0xFF00 ≤ a.toNat → a.toNat < 0xFF80 → (inputs a).isSome = true

theorem snapshot_readsIo (m : Machine) : ReadsIo fun a => (m.peek a).toOption := by
  intro a hlow hhigh
  have hpeek : m.peek a = .ok (m.bus.readIo a) := by
    unfold peek Bus.peek
    rw [(m.bus.find_io_iff a).mpr ⟨hlow, hhigh⟩]
    rfl
  show (m.peek a).toOption.isSome = true
  rw [hpeek]
  rfl

/-- **A cycle of the console refines a step of the view**: where the view has a next state,
the console gets there, whatever the devices do meanwhile. -/
theorem cycle_refines (hwrite : w.write = Bus.write (depth + 1)) (m : Machine) :
    ∃ inputs, ReadsIo inputs ∧ ∀ (space : Space) (c : Core), Shows space m c →
      Refines (Shows space) (m.cycle w) (c.step space inputs) := by
  cases hstarted : m.awake.started w with
  | error e =>
    refine ⟨fun _ => some 0xFF, fun _ _ _ => rfl, fun space c h => .guard fun ⟨hh, hpc, hq⟩ => ?_⟩
    rw [cycle_quiet h hh hq, runInstruction_eq, hstarted]
    intro y hy
    obtain ⟨d, hd, -⟩ := Option.bind_eq_some_iff.mp hy
    obtain ⟨x, hx, -⟩ := started_refines hwrite (awake_shows h hh hpc) d hd
    exact absurd (hstarted.symm.trans hx) nofun
  | ok x =>
    refine ⟨fun a => (x.2.peek a).toOption, x.2.snapshot_readsIo, fun space c h =>
      .guard fun ⟨hh, hpc, hq⟩ => ?_⟩
    rw [cycle_quiet h hh hq, runInstruction_eq, hstarted]
    intro y hy
    obtain ⟨⟨operation, d⟩, hd, hy⟩ := Option.bind_eq_some_iff.mp hy
    obtain ⟨⟨operation', n⟩, hn, heq, hshows⟩ := started_refines hwrite (awake_shows h hh hpc) _ hd
    obtain rfl : operation' = operation := heq
    obtain rfl := Except.ok.inj (hstarted.symm.trans hn)
    have hhandle := handle_refines hwrite hshows n.snapshot_supplies operation'.handler
    exact hhandle.map (fun _ _ hs => hs.onCpu (f := Processor.maskFlags) fun _ _ => rfl) y hy

/-- **Every run.** What a program computes on the registers and its memory, with some bytes
read from the devices, the console computes in as many cycles. -/
theorem cycles_refine (hwrite : w.write = Bus.write (depth + 1)) (h : Shows space m c) :
    ∃ inputs : Nat → UInt16 → Option UInt8, (∀ k, ReadsIo (inputs k)) ∧
      ∀ n, Refines (Shows space) (m.cycles w n) (c.steps space inputs n) := by
  have hchoice : ∀ k, ∃ inputs, ReadsIo inputs ∧ ∀ t, m.cycles w k = .ok t → ∀ d, Shows space t d →
      Refines (Shows space) (t.cycle w) (d.step space inputs) := by
    intro k
    cases hk : m.cycles w k with
    | error e => exact ⟨fun _ => some 0xFF, fun _ _ _ => rfl, fun t ht => nomatch ht⟩
    | ok t =>
      obtain ⟨inputs, hio, hrefines⟩ := cycle_refines hwrite t
      refine ⟨inputs, hio, fun t' ht' => ?_⟩
      obtain rfl := Except.ok.inj ht'
      exact hrefines space
  choose inputs hio hrefines using hchoice
  refine ⟨inputs, hio, fun n => ?_⟩
  induction n with
  | zero => exact refines_ok h
  | succ n ih =>
    intro d hd
    unfold Core.steps at hd
    rw [List.range_succ, List.foldlM_append] at hd
    obtain ⟨d', hd', hstep⟩ := Option.bind_eq_some_iff.mp hd
    obtain ⟨t, ht, hshows⟩ := ih d' hd'
    rw [cycles_succ, ht]
    refine hrefines n t ht d' hshows d ?_
    simpa using hstep

end Parts

/-- A program in high RAM that counts in the accumulator. -/
def counting : Machine where
  cpu := { resetProcessor with pc := 0xFF80 }
  bus :=
    { Bus.bareConsole with
      cartridge := some { Cartridge.empty with valid := true }
      zero := fun a =>
        if a = 0xFF80 then 0x3C else if a = 0xFF81 then 0x18 else if a = 0xFF82 then 0xFD else 0 }
  ticks := []
  requests := []

theorem isPlain_high (a : UInt16) (h : 0xFF80 ≤ a.toNat) : Bus.isPlain a = true := by
  simp [Bus.isPlain, h]

def highRam : Space where
  memory a := 0xFF80 ≤ a.toNat
  plain a h := isPlain_high a (of_decide_eq_true h)

/-- After four cycles it is at its start again and has counted to two. -/
theorem cycles_refine_counting : ∃ t, counting.cycles (quietWorld 1) 4 = .ok t ∧
    t.cpu.a = 2 ∧ t.cpu.pc = 0xFF80 := by
  have hshows : Shows highRam counting ⟨counting.cpu, counting.bus.zero⟩ := by
    refine ⟨⟨counting.cpu.timer, rfl⟩, fun a ha => ?_, rfl⟩
    have hlow : 0xFF80 ≤ a.toNat := of_decide_eq_true ha
    have hfind : counting.bus.find a = some .zero := by
      rw [Bus.find_high _ (by omega)]
      unfold Bus.regionOf
      split_ifs <;> first | rfl | omega
    unfold peek Bus.peek
    rw [hfind]
    rfl
  have hwrite : (quietWorld 1).write = Bus.write (0 + 1) := rfl
  obtain ⟨inputs, -, hrefines⟩ := cycles_refine hwrite hshows
  obtain ⟨d, hd, ha, hpc⟩ : ∃ d, Core.steps highRam inputs ⟨counting.cpu, counting.bus.zero⟩ 4 =
      some d ∧ d.cpu.a = 2 ∧ d.cpu.pc = 0xFF80 := ⟨_, rfl, rfl, rfl⟩
  obtain ⟨t, ht, ht'⟩ := hrefines 4 d hd
  exact ⟨t, ht, (ht'.get8 .a).trans ha, ht'.pc.trans hpc⟩

end Machine

end GbEmu
