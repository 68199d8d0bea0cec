import GbEmu.Bus.Guard
import GbEmu.Cartridge.Bounds
import GbEmu.ConsoleLink.Cycle

/-!
Bit 7 of SC and the state of the link. The program sets both by a store with bit 7,
and `finishTransfer` clears both; a store without it clears the bit alone, and the
transfer goes on to its end.
-/

namespace GbEmu

/-- A transfer is under way, to another console or to none. -/
def ConsoleLink.Transferring (l : ConsoleLink) : Prop :=
  l.state = .pending ∨ l.state = .simResponse

instance (l : ConsoleLink) : Decidable l.Transferring :=
  inferInstanceAs (Decidable (_ ∨ _))

namespace Bus

def transferBit (s : Bus) : Bool :=
  s.io serialControlAddress &&& ConsoleLink.linkTransfer != 0

/-- A link is attached, and it transfers exactly if SC says so. -/
def TransferFlag (s : Bus) : Prop :=
  ∃ l, s.link = some l ∧ (s.transferBit = true ↔ l.Transferring)

/-- A store to SC that would clear the bit comes only when there is no transfer. -/
def cancelGuard (s : Bus) (address : UInt16) (value : UInt8) : Bool :=
  address != serialControlAddress || value &&& ConsoleLink.linkTransfer != 0 ||
    s.link.all fun l => !decide l.Transferring

/-- What can happen to the link, with the writes of the program of some kind. -/
inductive SerialStep (written : Bus → Bus → Prop) : Bus → Bus → Prop
  | write {s s' : Bus} (h : written s s') : SerialStep written s s'
  | cycle {s s' : Bus} (depth : Nat) (answer : LinkThread) (ticks : UInt8) (is : List Interrupt)
      (h : s.cycleLink (write depth) answer ticks = .ok (s', is)) : SerialStep written s s'
  /-- The link thread finds or loses a connection, or passes a byte on. -/
  | thread (s : Bus) (t : LinkThread) :
      SerialStep written s { s with link := s.link.map (ConsoleLink.update · t) }

/-! ## Stores -/

theorem TransferFlag.of_eq {s s' : Bus} (hs : s.TransferFlag) (hlink : s'.link = s.link)
    (hio : s'.io serialControlAddress = s.io serialControlAddress) : s'.TransferFlag := by
  unfold TransferFlag transferBit at hs ⊢
  rwa [hlink, hio]

theorem transferFlag_setIo {s : Bus} (hs : s.TransferFlag) {address : UInt16}
    (h : address ≠ serialControlAddress) (value : UInt8) : (s.setIo address value).TransferFlag :=
  hs.of_eq rfl (setIo_io_of_ne s h.symm value)

/-- SC after a store of `value` to it. -/
def storedControl (value : UInt8) (s : Bus) : Bus :=
  s.writeBytes serialControlAddress value
    (ConsoleLink.linkClock ||| ConsoleLink.linkSpeed ||| ConsoleLink.linkTransfer)

theorem transferBit_storedControl (value : UInt8) (s : Bus) :
    (storedControl value s).transferBit = (value &&& ConsoleLink.linkTransfer != 0) := by
  unfold transferBit storedControl writeBytes
  rw [setIo_io_self, BitField.insert_and_of_subset (by decide)]

theorem writeSerialControl_start {value : UInt8} (h : value &&& ConsoleLink.linkTransfer ≠ 0)
    (s : Bus) :
    writeSerialControl value s =
      { storedControl value s with
        link := s.link.map fun l =>
          l.transfer ((storedControl value s).io serialDataAddress) } := by
  unfold writeSerialControl storedControl
  rw [if_pos h]
  rfl

theorem writeSerialControl_clear {value : UInt8} (h : value &&& ConsoleLink.linkTransfer = 0)
    (s : Bus) : writeSerialControl value s = storedControl value s := by
  unfold writeSerialControl storedControl
  exact if_neg (not_not.mpr h)

theorem transferring_transfer (l : ConsoleLink) (data : UInt8) :
    (l.transfer data).Transferring := by
  unfold ConsoleLink.transfer ConsoleLink.Transferring
  cases l.connected <;> simp

/-- A store to SC keeps flag and link together exactly if it has bit 7 or comes when
there is no transfer. -/
theorem transferFlag_writeSerialControl_iff {s : Bus} {l : ConsoleLink} (hl : s.link = some l)
    (value : UInt8) :
    (writeSerialControl value s).TransferFlag ↔
      value &&& ConsoleLink.linkTransfer ≠ 0 ∨ ¬ l.Transferring := by
  have hbit := transferBit_storedControl value s
  by_cases h : value &&& ConsoleLink.linkTransfer = 0
  · have hclear : (storedControl value s).transferBit = false := by rw [hbit, h]; rfl
    have hlink : (storedControl value s).link = some l := hl
    simp [writeSerialControl_clear h, TransferFlag, hlink, hclear, h]
  · have hset : (storedControl value s).transferBit = true := by rw [hbit]; simpa using h
    rw [writeSerialControl_start h]
    refine iff_of_true ⟨_, by rw [hl]; rfl, ?_⟩ (.inl h)
    exact iff_of_true hset (transferring_transfer l _)

theorem transferFlag_writeIo {write : Bus → UInt16 → UInt8 → Except Fault Bus}
    (hw : ∀ s a v s', write s a v = .ok s' → s.TransferFlag → s'.TransferFlag) {s s' : Bus}
    {address : UInt16} {value : UInt8} (ha : cancelGuard s address value = true)
    (h : writeIo write s address value = .ok s') (hs : s.TransferFlag) : s'.TransferFlag := by
  let Keeps : Bus → Bus → Prop := fun t t' => t.TransferFlag → t'.TransferFlag
  have hrun : ∀ {t t' : Bus}, Relation.ReflTransGen Keeps t t' → Keeps t t' := by
    intro t t' hsteps ht
    induction hsteps with
    | refl => exact ht
    | tail _ hstep ih => exact hstep ih
  have hnested : ∀ t a v t', write t a v = .ok t' → Relation.ReflTransGen Keeps t t' :=
    fun t a v t' ht => .single (hw t a v t' ht)
  by_cases hsc : address = serialControlAddress
  · subst hsc
    obtain ⟨l, hl, -⟩ := id hs
    have hcontrol : writeIo write s serialControlAddress value =
        .ok (writeSerialControl value s) := rfl
    rw [hcontrol, Except.ok.injEq] at h
    rw [← h, transferFlag_writeSerialControl_iff hl]
    simpa [cancelGuard, hl, or_comm] using ha
  · rcases writeIo_cases h with
      ⟨rfl, rfl⟩ | ⟨-, v, rfl⟩ | rfl | hp | hp | ho | ⟨-, hm⟩ | ⟨hsc', -⟩
    · exact transferFlag_setIo hs hsc _
    · exact transferFlag_setIo hs hsc v
    · exact hs.of_eq rfl rfl
    · refine hrun (writePaletteData_updates hnested ?_ hp) hs
      exact fun _ _ ht => ht.of_eq rfl rfl
    · refine hrun (writePaletteData_updates hnested ?_ hp) hs
      exact fun _ _ ht => ht.of_eq rfl rfl
    · exact hrun (copy_updates hnested ho) hs
    · exact hrun (writeDmaMode_updates hnested
        (fun t v ht => transferFlag_setIo ht (by decide) v) hm) hs
    · exact absurd hsc' hsc

theorem transferFlag_guardedWrite {depth : Nat} {s s' : Bus} {address : UInt16} {value : UInt8}
    (h : guardedWrite cancelGuard depth s address value = .ok s') (hs : s.TransferFlag) :
    s'.TransferFlag := by
  refine guardedWrite_keeps (fun t t' r a v hr hw ht => ?_)
    (fun write hw t t' a v ha hio ht => transferFlag_writeIo hw ha hio ht) h hs
  rcases writeRegion_cases hr hw with
    rfl | ⟨c, rfl⟩ | ⟨m, rfl⟩ | ⟨m, rfl⟩ | ⟨m, rfl⟩ | ⟨-, rfl⟩
  · exact ht
  all_goals exact ht.of_eq rfl rfl

/-! ## The cycle -/

theorem finishState_not_transferring (l : ConsoleLink) :
    ¬ ConsoleLink.Transferring { l with state := ConsoleLink.finishState l.state } := by
  unfold ConsoleLink.Transferring ConsoleLink.finishState
  split_ifs <;> simp

theorem transferFlag_finishTransfer {depth : Nat} {data : UInt8} {x y : Bus × List Interrupt}
    {l : ConsoleLink} (hl : x.1.link = some l)
    (h : finishTransfer (write depth) data x = .ok y) : y.1.TransferFlag := by
  obtain ⟨s, hs, rfl⟩ := Run.map_eq_ok.mp h
  cases depth with
  | zero => cases hs
  | succ depth =>
    have hport : x.1.find serialDataAddress = some .io := (x.1.find_io_iff _).mpr (by decide)
    rw [write_io x.1 depth hport, writeIo_plain (by decide), Except.ok.injEq] at hs
    subst hs
    refine ⟨_, congrArg (Option.map _) hl, iff_of_false ?_ (finishState_not_transferring l)⟩
    simp [transferBit, request, setIo, show serialControlAddress ≠ interruptFlagsAddress by decide,
      UInt8.and_assoc, show ~~~ConsoleLink.linkTransfer &&& ConsoleLink.linkTransfer = 0 by decide]

/-- The passes of a cycle that starts in `s`: only a transfer that SC showed then has
been finished. -/
def PassInv (s : Bus) (x : Bus × List Interrupt) : Prop :=
  x.1.TransferFlag ∧ (x.1.transferBit = true ∨ x.2 ≠ [] → s.transferBit = true)

theorem linkPass_inv {depth count : Nat} {answer : LinkThread} {s : Bus}
    {x y : Bus × List Interrupt} (hx : PassInv s x)
    (h : linkPass (write depth) answer count x = .ok y) : PassInv s y := by
  obtain ⟨⟨l, hl, hflag⟩, hbit⟩ := hx
  simp only [linkPass, hl] at h
  by_cases hrun : l.Transferring
  · -- the pass finishes the transfer
    have hset : s.transferBit = true := hbit (.inl (hflag.mpr hrun))
    refine ⟨?_, fun _ => hset⟩
    rcases hrun with hstate | hstate
    · simp only [check, hstate] at h
      exact transferFlag_finishTransfer rfl h
    · simp only [check, hstate] at h
      exact transferFlag_finishTransfer rfl h
  · have hidle : check (write depth) answer { l with ticks := l.ticks - count }
        ({ x.1 with link := some { l with ticks := l.ticks - count } }, x.2) =
        .ok ({ x.1 with link := some { l with ticks := l.ticks - count } }, x.2) := by
      unfold check
      cases hstate : l.state with
      | idle => rfl
      | disconnected => rfl
      | pending => exact absurd (.inl hstate) hrun
      | simResponse => exact absurd (.inr hstate) hrun
    rw [hidle, Except.ok.injEq] at h
    subst h
    exact ⟨⟨_, rfl, hflag⟩, hbit⟩

/-- A cycle keeps the flag, and requests an interrupt only if SC shows a transfer. -/
theorem transferFlag_cycleLink {depth : Nat} {answer : LinkThread} {ticks : UInt8} {s s' : Bus}
    {is : List Interrupt} (hs : s.TransferFlag)
    (h : s.cycleLink (write depth) answer ticks = .ok (s', is)) :
    s'.TransferFlag ∧ (is ≠ [] → s.transferBit = true) := by
  obtain ⟨l, hl, hflag⟩ := hs
  simp only [cycleLink, hl] at h
  have hfirst : PassInv s ({ s with link := some { l with
      ticks := (l.ticks + ticks.toNat) % 2 ^ 16 } }, []) :=
    ⟨⟨_, rfl, hflag⟩, fun hp => hp.elim id fun hne => absurd rfl hne⟩
  obtain ⟨hlast, hbit⟩ := Run.run_invariant (fun _ _ _ => linkPass_inv) h hfirst
  exact ⟨hlast, fun hne => hbit (.inr hne)⟩

/-! ## Runs -/

theorem transferFlag_step {s s' : Bus} (hs : s.TransferFlag)
    (h : SerialStep (GuardedStep cancelGuard) s s') : s'.TransferFlag := by
  cases h with
  | write hw =>
    obtain ⟨depth, address, value, hw⟩ := hw
    exact transferFlag_guardedWrite hw hs
  | cycle depth answer ticks is hc => exact (transferFlag_cycleLink hs hc).1
  | thread t =>
    obtain ⟨l, hl, hflag⟩ := hs
    exact ⟨l.update t, congrArg (Option.map _) hl, hflag⟩

theorem transferFlag_run {s₀ s : Bus} (hs₀ : s₀.TransferFlag)
    (hrun : Relation.ReflTransGen (SerialStep (GuardedStep cancelGuard)) s₀ s) :
    s.TransferFlag := by
  induction hrun with
  | refl => exact hs₀
  | tail _ hstep ih => exact transferFlag_step ih hstep

theorem transferFlag_powerOn (ndebug : Bool) (bios : Bios) (c : Option Cartridge)
    {l : ConsoleLink} (hl : l.state = .disconnected) :
    (powerOn ndebug bios c (some l)).TransferFlag := by
  refine ⟨l, rfl, iff_of_false ?_ ?_⟩
  · show ¬ ((0 : UInt8) &&& ConsoleLink.linkTransfer != 0) = true
    decide
  · simp [ConsoleLink.Transferring, hl]

/-- **Bit 7 of SC and the state of the link.** In every run from power-on without a
store that clears the bit under a transfer, the two agree, and the cycle requests
SERIAL only for a transfer that SC still shows. The store of a cleared bit under a
transfer is exactly what parts them. -/
theorem transferFlag_reachable {l : ConsoleLink} (hl : l.state = .disconnected) (ndebug : Bool)
    (bios : Bios) (c : Option Cartridge) :
    (∀ s, Relation.ReflTransGen (SerialStep (GuardedStep cancelGuard))
        (powerOn ndebug bios c (some l)) s →
      s.TransferFlag ∧ ∀ depth answer ticks s' is,
        s.cycleLink (write depth) answer ticks = .ok (s', is) → .serial ∈ is →
          s.transferBit = true) ∧
      ∀ (s s' : Bus) (depth : Nat) (value : UInt8), s.TransferFlag →
        write (depth + 1) s serialControlAddress value = .ok s' →
          (s'.TransferFlag ↔ cancelGuard s serialControlAddress value = true) := by
  constructor
  · intro s hrun
    have hs := transferFlag_run (transferFlag_powerOn ndebug bios c hl) hrun
    refine ⟨hs, fun depth answer ticks s' is hc hserial => ?_⟩
    exact (transferFlag_cycleLink hs hc).2 (List.ne_nil_of_mem hserial)
  · rintro s s' depth value ⟨l', hl', -⟩ hw
    have hport : s.find serialControlAddress = some .io := (s.find_io_iff _).mpr (by decide)
    have hcontrol : write (depth + 1) s serialControlAddress value =
        .ok (writeSerialControl value s) := write_io s depth hport value
    rw [hcontrol, Except.ok.injEq] at hw
    rw [← hw, transferFlag_writeSerialControl_iff hl']
    simp [cancelGuard, hl']

/-- A link as its constructor leaves it. -/
def detachedLink : ConsoleLink := ⟨0, false, .disconnected, false, 0, false, 0⟩

/-- A transfer that the guest starts with nobody at the other end. -/
theorem transferFlag_reachable_detached : ∃ s : Bus,
    guardedWrite cancelGuard 1 (powerOn true ⟨[], by decide⟩ none (some detachedLink))
      serialControlAddress 0x81 = .ok s ∧ s.transferBit = true ∧ s.TransferFlag := by
  let s := powerOn true ⟨[], by decide⟩ none (some detachedLink)
  have hport : s.find serialControlAddress = some .io := (s.find_io_iff _).mpr (by decide)
  have hw : guardedWrite cancelGuard 1 s serialControlAddress 0x81 =
      .ok (writeSerialControl 0x81 s) := by
    unfold guardedWrite route
    rw [if_pos (show s.cancelGuard serialControlAddress 0x81 = true by rfl), hport]
    rfl
  have hset : (writeSerialControl 0x81 s).transferBit = true := by
    rw [writeSerialControl_start (by decide)]
    exact transferBit_storedControl 0x81 s
  refine ⟨_, hw, hset, ?_⟩
  have hrun := (transferFlag_reachable (l := detachedLink) rfl true ⟨[], by decide⟩ none).1
  exact (hrun _ (.single (.write ⟨1, _, _, hw⟩))).1

/-- A store of 0x80 to SC starts a transfer, and one of 0 clears the bit under it. -/
theorem transferFlag_cancelled :
    ¬ ∀ (host : Host) (bytes : List UInt8) (c : Cartridge),
      Cartridge.load host (some bytes) = .ok c → c.valid = true →
        ∀ (bios : Bios) (l : ConsoleLink), l.state = .disconnected → ∀ s : Bus,
          Relation.ReflTransGen
            (SerialStep fun s s' => ∃ depth a v, write depth s a v = .ok s')
            (powerOn false bios (some c) (some l)) s → s.TransferFlag := by
  intro hall
  obtain ⟨c, hload, hv, -⟩ := Cartridge.load_headerImage_mode 0
  let s := powerOn false ⟨[], by decide⟩ (some c) (some detachedLink)
  have hcontrol : ∀ (t : Bus) (value : UInt8),
      write 1 t serialControlAddress value = .ok (writeSerialControl value t) :=
    fun t value => write_io t 0 ((t.find_io_iff _).mpr (by decide)) value
  obtain ⟨l, hl, hflag⟩ := hall _ _ c hload hv ⟨[], by decide⟩ detachedLink rfl _
    (.tail (.single (.write ⟨1, _, _, hcontrol s 0x80⟩)) (.write ⟨1, _, _, hcontrol _ 0⟩))
  have hpending : (writeSerialControl 0 (writeSerialControl 0x80 s)).link =
      some { detachedLink with state := .simResponse } := rfl
  obtain rfl := Option.some.inj (hl.symm.trans hpending)
  have hclear : (writeSerialControl 0 (writeSerialControl 0x80 s)).transferBit = false := by
    rw [writeSerialControl_clear (by decide)]
    exact transferBit_storedControl 0 _
  exact absurd (hflag.mpr (.inr rfl)) (by rw [hclear]; decide)

end Bus

end GbEmu
