import GbEmu.Bus.Update

/-!
Bus writes under a guard. Conditions on what a program stores have to cover the
writes that its transfers make in turn; the guarded bus is the bus of
`memorycontroller.cpp` on which a write that the guard does not allow fails, at any
depth. Whatever it finishes, the bus itself finishes in the same way.
-/

namespace GbEmu.Bus

/-- The registers that `MappedIO::write` does not simply store. -/
def specialRegisters : List UInt16 :=
  [gpuStatusAddress, joypadInputAddress, interruptMaskAddress, interruptFlagsAddress,
    cpuTimerControlAddress, cpuTimerDivAddress, gpuBgPaletteData, gpuSpritePaletteData, gpuDmaOam,
    gpuDmaMode, serialControlAddress]

/-- The body of `MemoryController::write`, over the writes that it makes in turn. -/
def route (write : Bus → UInt16 → UInt8 → Except Fault Bus) (s : Bus) (address : UInt16)
    (value : UInt8) : Except Fault Bus :=
  match s.find address with
  | none => s.fatal.map fun _ => s
  | some .io => writeIo write s address value
  | some r => if r.isWritable then s.writeRegion r address value else .ok s

theorem write_succ (depth : Nat) (s : Bus) (address : UInt16) (value : UInt8) :
    write (depth + 1) s address value = route (write depth) s address value := by
  unfold write route
  rfl

def guardedWrite (allowed : Bus → UInt16 → UInt8 → Bool) :
    Nat → Bus → UInt16 → UInt8 → Except Fault Bus
  | 0, _, _, _ => .error .depth
  | depth + 1, s, address, value =>
    if allowed s address value then route (guardedWrite allowed depth) s address value
    else .error .thrown

/-! ## A write by cases -/

section Route

variable {write : Bus → UInt16 → UInt8 → Except Fault Bus} {s s' : Bus} {address : UInt16}
  {value : UInt8}

theorem writeIo_plain (h : address ∉ specialRegisters) :
    writeIo write s address value = .ok (s.setIo address value) := by
  simp only [specialRegisters, List.mem_cons, List.not_mem_nil, or_false, not_or] at h
  obtain ⟨h1, h2, h3, h4, h5, h6, h7, h8, h9, h10, h11⟩ := h
  unfold writeIo
  rw [if_neg h1, if_neg h2, if_neg h3, if_neg h4, if_neg h5, if_neg h6, if_neg h7, if_neg h8,
    if_neg h9, if_neg h10, if_neg h11]

theorem route_cases (h : route write s address value = .ok s') :
    (s.find address = some .io ∧ writeIo write s address value = .ok s') ∨
      (∃ r, r ≠ .io ∧ s.find address = some r ∧ s.writeRegion r address value = .ok s') ∨
      s' = s := by
  obtain ⟨r, hr⟩ := s.find_isSome address
  unfold route at h
  by_cases hio : r = .io
  · subst hio
    simp only [hr] at h
    exact .inl ⟨hr, h⟩
  · simp only [hr] at h
    split_ifs at h with hw
    · exact .inr (.inl ⟨r, hio, hr, h⟩)
    · exact .inr (.inr (Except.ok.inj h).symm)

end Route

/-! ## Buses that agree -/

section Agree

variable {bad : Fault → Prop} {write write' : Bus → UInt16 → UInt8 → Except Fault Bus}
  (hw : ∀ s a v, Run.Settled bad (write s a v) → write' s a v = write s a v)

include hw

theorem copy_agree {source dest : UInt16} {length : Nat} {s : Bus}
    (h : Run.Settled bad (copy write source dest length s)) :
    copy write' source dest length s = copy write source dest length s := by
  refine Run.run_congr (fun i _ t ht => ?_) h
  unfold copyByte at ht ⊢
  exact Run.bind_congr (fun _ => rfl) (fun byte => hw t _ byte) ht

theorem writePaletteData_agree {index : UInt16} {store : Bus → UInt8 → Bus} {s : Bus}
    (h : Run.Settled bad (writePaletteData write index store s)) :
    writePaletteData write' index store s = writePaletteData write index store s := by
  simp only [writePaletteData] at h ⊢
  split_ifs at h ⊢
  · exact hw _ _ _ h
  · rfl

theorem writeDmaMode_agree {value : UInt8} {s : Bus}
    (h : Run.Settled bad (writeDmaMode write value s)) :
    writeDmaMode write' value s = writeDmaMode write value s := by
  simp only [writeDmaMode] at h ⊢
  split_ifs at h ⊢
  · exact Run.bind_congr (copy_agree hw) (fun _ _ => rfl) h
  · rfl

omit hw in
theorem ite_agree {c : Prop} [Decidable c] {x x' y y' : Except Fault Bus}
    (hx : Run.Settled bad x → x' = x) (hy : Run.Settled bad y → y' = y)
    (h : Run.Settled bad (if c then x else y)) :
    (if c then x' else y') = if c then x else y := by
  by_cases hc : c
  · simp only [if_pos hc] at h ⊢
    exact hx h
  · simp only [if_neg hc] at h ⊢
    exact hy h

theorem writeIo_agree {s : Bus} {address : UInt16} {value : UInt8}
    (h : Run.Settled bad (writeIo write s address value)) :
    writeIo write' s address value = writeIo write s address value := by
  have same : ∀ {x : Except Fault Bus}, Run.Settled bad x → x = x := fun _ => rfl
  unfold writeIo at h ⊢
  refine ite_agree same (ite_agree same (ite_agree same (ite_agree same ?_))) h
  refine ite_agree same (ite_agree same (ite_agree (writePaletteData_agree hw) ?_))
  refine ite_agree (writePaletteData_agree hw) (ite_agree (copy_agree hw) ?_)
  exact ite_agree (writeDmaMode_agree hw) (ite_agree same same)

/-- Buses that agree on the writes made in turn agree on the write. -/
theorem route_agree {s : Bus} {address : UInt16} {value : UInt8}
    (h : Run.Settled bad (route write s address value)) :
    route write' s address value = route write s address value := by
  unfold route at h ⊢
  obtain ⟨r, hr⟩ := s.find_isSome address
  by_cases hio : r = .io
  · subst hio
    simp only [hr] at h ⊢
    exact writeIo_agree hw h
  · simp only [hr]

end Agree

section Guarded

variable {allowed : Bus → UInt16 → UInt8 → Bool}

/-- What the guarded bus finishes, the bus does. -/
theorem write_of_guardedWrite {depth : Nat} {s s' : Bus} {address : UInt16} {value : UInt8}
    (h : guardedWrite allowed depth s address value = .ok s') :
    write depth s address value = .ok s' := by
  induction depth generalizing s s' address value with
  | zero => cases h
  | succ depth ih =>
    have hagree : ∀ s a v, Run.Settled (fun _ => True) (guardedWrite allowed depth s a v) →
        write depth s a v = guardedWrite allowed depth s a v := by
      intro s a v hs
      cases hg : guardedWrite allowed depth s a v with
      | error e => exact absurd trivial (hs e hg)
      | ok t => exact ih hg
    unfold guardedWrite at h
    split_ifs at h
    rw [write_succ, route_agree hagree (h ▸ Run.settled_ok s'), h]

/-- An elementary update of the guarded bus. A plain register takes the value of an
allowed write, in the state it was allowed in. -/
inductive GuardedUpdate (allowed : Bus → UInt16 → UInt8 → Bool) (s : Bus) : Bus → Prop
  | other {s' : Bus} (h : Update s s') (hio : s'.io = s.io) : GuardedUpdate allowed s s'
  | status (value : UInt8) : GuardedUpdate allowed s (s.writeBytes gpuStatusAddress value 0x78)
  | plain (address : UInt16) (value : UInt8) (hp : address ∉ specialRegisters)
      (h : allowed s address value = true) : GuardedUpdate allowed s (s.setIo address value)
  | special (address : UInt16) (stored : UInt8) (hp : address ∈ specialRegisters)
      (hs : address ≠ gpuStatusAddress) (h : ∃ t value, allowed t address value = true) :
      GuardedUpdate allowed s (s.setIo address stored)

abbrev GuardedUpdates (allowed : Bus → UInt16 → UInt8 → Bool) : Bus → Bus → Prop :=
  Relation.ReflTransGen (GuardedUpdate allowed)

theorem writeRegion_guardedUpdates {s s' : Bus} {r : Region} {address : UInt16} {value : UInt8}
    (hr : r ≠ .io) (h : s.writeRegion r address value = .ok s') : GuardedUpdates allowed s s' := by
  rcases writeRegion_cases hr h with
    rfl | ⟨c, rfl⟩ | ⟨m, rfl⟩ | ⟨m, rfl⟩ | ⟨m, rfl⟩ | ⟨-, rfl⟩
  · exact .refl
  · exact .single (.other (.cartridge c) rfl)
  · exact .single (.other (.working m) rfl)
  · exact .single (.other (.oam m) rfl)
  · exact .single (.other (.zero m) rfl)
  · exact .single (.other (.vram _) rfl)

theorem writeIo_guardedUpdates {write : Bus → UInt16 → UInt8 → Except Fault Bus}
    (hw : ∀ s a v s', write s a v = .ok s' → GuardedUpdates allowed s s') {s s' : Bus}
    {address : UInt16} {value : UInt8} (ha : allowed s address value = true)
    (h : writeIo write s address value = .ok s') : GuardedUpdates allowed s s' := by
  by_cases hp : address ∈ specialRegisters
  · rcases writeIo_cases h with
      ⟨rfl, rfl⟩ | ⟨hs, v, rfl⟩ | rfl | hp' | hp' | ho | ⟨rfl, hm⟩ | ⟨rfl, rfl⟩
    · exact .single (.status value)
    · exact .single (.special address v hp hs ⟨s, value, ha⟩)
    · exact .single (.other .divider rfl)
    · refine writePaletteData_updates hw ?_ hp'
      exact fun _ _ => .other (.bgPalette _) rfl
    · refine writePaletteData_updates hw ?_ hp'
      exact fun _ _ => .other (.spritePalette _) rfl
    · exact copy_updates hw ho
    · exact writeDmaMode_updates hw (fun t v => .special _ v hp (by decide) ⟨s, value, ha⟩) hm
    · exact writeSerialControl_updates (fun t v => .special _ v hp (by decide) ⟨s, value, ha⟩)
        (fun _ l => .other (.link l) rfl) value s
  · rw [writeIo_plain hp, Except.ok.injEq] at h
    exact h ▸ .single (.plain address value hp ha)

/-- **Every successful write of the guarded bus is a chain of its elementary updates.** -/
theorem guardedWrite_updates {depth : Nat} {s s' : Bus} {address : UInt16} {value : UInt8}
    (h : guardedWrite allowed depth s address value = .ok s') : GuardedUpdates allowed s s' := by
  induction depth generalizing s s' address value with
  | zero => cases h
  | succ depth ih =>
    unfold guardedWrite at h
    split_ifs at h with ha
    rcases route_cases h with ⟨-, hio⟩ | ⟨r, hr, -, hregion⟩ | rfl
    · exact writeIo_guardedUpdates (fun _ _ _ _ => ih) ha hio
    · exact writeRegion_guardedUpdates hr hregion
    · exact .refl

/-- A property that the regions keep, and the registers if the writes that they make in
turn keep it, is kept by every write. -/
theorem guardedWrite_keeps {P : Bus → Prop}
    (hregion : ∀ s s' r address value, r ≠ .io → s.writeRegion r address value = .ok s' →
      P s → P s')
    (hio : ∀ write : Bus → UInt16 → UInt8 → Except Fault Bus,
      (∀ s a v s', write s a v = .ok s' → P s → P s') → ∀ s s' address value,
        allowed s address value = true → writeIo write s address value = .ok s' → P s → P s')
    {depth : Nat} {s s' : Bus} {address : UInt16} {value : UInt8}
    (h : guardedWrite allowed depth s address value = .ok s') (hs : P s) : P s' := by
  induction depth generalizing s s' address value with
  | zero => cases h
  | succ depth ih =>
    unfold guardedWrite at h
    split_ifs at h with ha
    rcases route_cases h with ⟨-, hw⟩ | ⟨r, hr, -, hw⟩ | rfl
    · exact hio _ (fun _ _ _ _ hnext hs => ih hnext hs) _ _ _ _ ha hw hs
    · exact hregion _ _ _ _ _ hr hw hs
    · exact hs

/-- A plain register keeps to what the guard allows to be stored in it. -/
theorem guardedUpdates_register {port : UInt16} {P : UInt8 → Prop} (hport : port ∉ specialRegisters)
    (hallowed : ∀ t v, allowed t port v = true → P (t.io port) → P v) {s s' : Bus}
    (h : GuardedUpdates allowed s s') (hs : P (s.io port)) : P (s'.io port) := by
  induction h with
  | refl => exact hs
  | tail _ hu ih =>
    cases hu with
    | other _ hio =>
      rw [hio]
      exact ih
    | status value =>
      have hne : port ≠ gpuStatusAddress := fun e => hport (e ▸ by decide)
      rw [writeBytes, setIo_io_of_ne _ hne]
      exact ih
    | plain address value hp ha =>
      by_cases he : port = address
      · subst he
        rw [setIo_io_self]
        exact hallowed _ _ ha ih
      · rw [setIo_io_of_ne _ he]
        exact ih
    | special address stored hp =>
      have hne : port ≠ address := fun e => hport (e ▸ hp)
      rw [setIo_io_of_ne _ hne]
      exact ih

/-- A register that no allowed write names keeps its value. -/
theorem guardedUpdates_io {port : UInt16} (hport : ∀ s v, allowed s port v = false)
    (hs : port ≠ gpuStatusAddress) {s s' : Bus} (h : GuardedUpdates allowed s s') :
    s'.io port = s.io port := by
  have hne : ∀ {t : Bus} {address : UInt16} {v : UInt8}, allowed t address v = true →
      port ≠ address := by
    rintro t address v ha rfl
    rw [hport] at ha
    cases ha
  induction h with
  | refl => rfl
  | tail _ hu ih =>
    rw [← ih]
    cases hu with
    | other _ hio => rw [hio]
    | status value => exact setIo_io_of_ne _ hs _
    | plain address value hp ha => exact setIo_io_of_ne _ (hne ha) _
    | special address stored hp _ ha =>
      obtain ⟨t, v, ha⟩ := ha
      exact setIo_io_of_ne _ (hne ha) _

/-- One bus write under a guard. -/
def GuardedStep (allowed : Bus → UInt16 → UInt8 → Bool) (s s' : Bus) : Prop :=
  ∃ depth address value, guardedWrite allowed depth s address value = .ok s'

end Guarded

end GbEmu.Bus
