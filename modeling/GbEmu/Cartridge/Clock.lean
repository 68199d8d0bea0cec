import GbEmu.Cartridge
import GbEmu.Lib.BitField
import GbEmu.Lib.Run

/-!
The latch of the MBC3 clock over histories of writes. The ninth bit of the day is taken
from bit 7, so the day registers are right for the first 128 days of a year.
-/

namespace GbEmu

/-- The ranges of `std::tm`. -/
structure Tm.InRange (now : Tm) : Prop where
  sec : now.sec ≤ 60
  min : now.min ≤ 59
  hour : now.hour ≤ 23
  yday : now.yday ≤ 365

namespace MBC3

inductive Access
  | writeROM (address : UInt16) (value : UInt8)
  | writeRAM (address : UInt16) (value : UInt8)
  deriving DecidableEq, Repr

def step (m : MBC3) : Access → Except Fault MBC3
  | .writeROM address value => .ok (m.writeROM address value)
  | .writeRAM address value => m.writeRAM address value

/-! ## The history -/

/-- The value of a write to the latch register. -/
def latchWrite : Access → Option UInt8
  | .writeROM address value => if 0x6000 ≤ address ∧ address < 0x8000 then some value else none
  | .writeRAM _ _ => none

def latchWrites (before : List Access) : List UInt8 := before.filterMap latchWrite

/-- A write of 1 to the latch register, directly preceded there by a write of 0. -/
def Latches (before : List Access) (access : Access) : Prop :=
  latchWrite access = some 1 ∧ (latchWrites before).getLast?.getD 0 = 0

instance (before : List Access) (access : Access) : Decidable (Latches before access) :=
  inferInstanceAs (Decidable (_ ∧ _))

/-- How often a 1 directly follows a 0, behind `last`. -/
def risesFrom (last : UInt8) : List UInt8 → Nat
  | [] => 0
  | value :: values => (if last = 0 ∧ value = 1 then 1 else 0) + risesFrom value values

theorem risesFrom_snoc (last : UInt8) (values : List UInt8) (value : UInt8) :
    risesFrom last (values ++ [value]) =
      risesFrom last values + if values.getLast?.getD last = 0 ∧ value = 1 then 1 else 0 := by
  induction values generalizing last with
  | nil => exact (Nat.zero_add _).symm
  | cons first values ih =>
    rw [List.cons_append, risesFrom, ih, List.getLast?_cons, risesFrom, Nat.add_assoc]
    rfl

/-- The local time that a latch after this history reads; the constructor has read one. -/
def reading (host : Host) (before : List Access) : Option Tm :=
  host.localtime (1 + risesFrom 0 (latchWrites before))

/-- What the controller knows of its history. -/
structure Follows (host : Host) (before : List Access) (m : MBC3) : Prop where
  latched : m.latched = (latchWrites before).getLast?.getD 0
  localtime : m.localtime = host.localtime
  calls : m.calls = 1 + risesFrom 0 (latchWrites before)

theorem follows_init (host : Host) (game : List UInt8) (size : Nat) (battery : Bool) :
    Follows host [] (init host game size battery) := by
  unfold init latch
  split <;> exact ⟨rfl, rfl, rfl⟩

/-! ## Writes -/

section Write

variable {m m' : MBC3} {address : UInt16} {value : UInt8}

theorem latch_frame (m : MBC3) :
    m.latch.latched = m.latched ∧ m.latch.localtime = m.localtime ∧
      m.latch.calls = m.calls + 1 := by
  unfold latch
  split <;> exact ⟨rfl, rfl, rfl⟩

theorem latchWrite_eq_some {written : UInt8}
    (h : latchWrite (.writeROM address value) = some written) :
    0x6000 ≤ address ∧ address < 0x8000 ∧ value = written := by
  simp only [latchWrite] at h
  split_ifs at h with hrange
  exact ⟨hrange.1, hrange.2, Option.some.inj h⟩

/-- Elsewhere than to the latch register. -/
theorem writeROM_other (h : latchWrite (.writeROM address value) = none) :
    (m.writeROM address value).rtc = m.rtc ∧
      (m.writeROM address value).latched = m.latched ∧
      (m.writeROM address value).localtime = m.localtime ∧
      (m.writeROM address value).calls = m.calls := by
  have hrange : ¬ (0x6000 ≤ address ∧ address < 0x8000) := fun hrange => by
    cases h.symm.trans (if_pos hrange)
  unfold writeROM
  by_cases h6 : address < 0x6000
  · rw [if_pos h6]
    split_ifs <;> exact ⟨rfl, rfl, rfl, rfl⟩
  · have h8 : ¬ address < 0x8000 := fun h8 => hrange ⟨UInt16.not_lt.mp h6, h8⟩
    rw [if_neg h6, if_neg h8]
    split_ifs <;> exact ⟨rfl, rfl, rfl, rfl⟩

theorem writeROM_latch {written : UInt8} (h : latchWrite (.writeROM address value) = some written) :
    m.writeROM address value =
      if m.latched = 0 ∧ written = 1 then latch { m with latched := written }
      else { m with latched := written } := by
  obtain ⟨h6, h8, rfl⟩ := latchWrite_eq_some h
  have h4 : (0x4000 : UInt16) ≤ address := UInt16.le_trans (by decide) h6
  have h2 : (0x2000 : UInt16) ≤ address := UInt16.le_trans (by decide) h4
  unfold writeROM
  rw [if_neg (UInt16.not_lt.mpr h2), if_neg (UInt16.not_lt.mpr h4), if_neg (UInt16.not_lt.mpr h6),
    if_pos h8]

theorem writeRAM_frame (h : m.writeRAM address value = .ok m') :
    m'.latched = m.latched ∧ m'.localtime = m.localtime ∧ m'.calls = m.calls := by
  unfold writeRAM at h
  split_ifs at h
  · cases h
    exact ⟨rfl, rfl, rfl⟩
  · obtain ⟨c, -, rfl⟩ := Run.map_eq_ok.mp h
    exact ⟨rfl, rfl, rfl⟩
  all_goals
    cases h
    exact ⟨rfl, rfl, rfl⟩

end Write

/-! ## Histories -/

theorem latchWrites_snoc_none {access : Access} (before : List Access)
    (h : latchWrite access = none) : latchWrites (before ++ [access]) = latchWrites before := by
  simp [latchWrites, h]

theorem latchWrites_snoc_some {access : Access} {written : UInt8} (before : List Access)
    (h : latchWrite access = some written) :
    latchWrites (before ++ [access]) = latchWrites before ++ [written] := by
  simp [latchWrites, h]

section Step

variable {host : Host} {before : List Access} {m m' : MBC3}

theorem follows_other {access : Access} (h : Follows host before m)
    (hnone : latchWrite access = none)
    (hframe : m'.latched = m.latched ∧ m'.localtime = m.localtime ∧ m'.calls = m.calls) :
    Follows host (before ++ [access]) m' where
  latched := by
    rw [latchWrites_snoc_none before hnone, hframe.1]
    exact h.latched
  localtime := hframe.2.1.trans h.localtime
  calls := by
    rw [latchWrites_snoc_none before hnone, hframe.2.2]
    exact h.calls

theorem follows_step (h : Follows host before m) {access : Access}
    (hstep : step m access = .ok m') : Follows host (before ++ [access]) m' := by
  cases access with
  | writeRAM address value => exact follows_other h rfl (writeRAM_frame hstep)
  | writeROM address value =>
    obtain rfl := Except.ok.inj hstep
    cases hwrite : latchWrite (.writeROM address value) with
    | none => exact follows_other h hwrite (writeROM_other hwrite).2
    | some written =>
      rw [writeROM_latch hwrite]
      have hcalls : 1 + risesFrom 0 (latchWrites before ++ [written]) =
          m.calls + if m.latched = 0 ∧ written = 1 then 1 else 0 := by
        rw [risesFrom_snoc, h.calls, h.latched, Nat.add_assoc]
      split_ifs at hcalls ⊢ with hlatch
      · obtain ⟨hlatched, hlocaltime, hcount⟩ := latch_frame { m with latched := written }
        refine ⟨?_, hlocaltime.trans h.localtime, ?_⟩
        · rw [latchWrites_snoc_some before hwrite, hlatched]
          simp
        · rw [latchWrites_snoc_some before hwrite, hcalls, hcount]
      · refine ⟨?_, h.localtime, ?_⟩
        · rw [latchWrites_snoc_some before hwrite]
          simp
        · rw [latchWrites_snoc_some before hwrite, hcalls, Nat.add_zero]

/-! ## The clock -/

/-- The clock registers show a local time, and the flags next to the ninth bit of the day
stay as they were. -/
structure SetsClock (now : Tm) (rtc rtc' : Rtc) : Prop where
  seconds : rtc'.seconds.toNat = now.sec
  minutes : rtc'.minutes.toNat = now.min
  hours : rtc'.hours.toNat = now.hour
  day : (rtc'.day1 &&& 1).toNat <<< 8 ||| rtc'.day0.toNat = now.yday
  flags : rtc'.day1 &&& 0xFE = rtc.day1 &&& 0xFE

/-- The bit that `latch` takes for the ninth. -/
def msb (now : Tm) : UInt8 := ((UInt16.ofNat now.yday >>> 7) &&& 0x01).toUInt8

theorem latch_rtc {now : Tm} (hnow : m.localtime m.calls = some now) :
    m.latch.rtc =
      { seconds := UInt8.ofNat now.sec
        minutes := UInt8.ofNat now.min
        hours := UInt8.ofNat now.hour
        day0 := (UInt16.ofNat now.yday &&& 0xFF).toUInt8
        day1 := (m.rtc.day1 &&& 0xFE) ||| msb now } := by
  unfold latch
  rw [hnow]
  rfl

theorem toNat_yday {now : Tm} (h : now.InRange) : (UInt16.ofNat now.yday).toNat = now.yday :=
  UInt16.toNat_ofNat_of_lt' (Nat.lt_of_le_of_lt h.yday (by decide))

theorem toNat_msb {now : Tm} (h : now.InRange) : (msb now).toNat = now.yday / 128 % 2 := by
  have hseven : (7 : UInt16).toNat % 16 = 7 := rfl
  rw [msb, UInt16.toNat_toUInt8, UInt16.toNat_and, UInt16.toNat_shiftRight, toNat_yday h, hseven,
    Nat.shiftRight_eq_div_pow]
  have hbit : now.yday / 2 ^ 7 &&& (1 : UInt16).toNat = now.yday / 128 % 2 := Nat.and_one_is_mod _
  rw [hbit]
  omega

theorem toNat_day0 {now : Tm} (h : now.InRange) :
    (UInt16.ofNat now.yday &&& 0xFF).toUInt8.toNat = now.yday % 256 := by
  have hlow : now.yday &&& (0xFF : UInt16).toNat = now.yday % 256 :=
    Nat.and_two_pow_sub_one_eq_mod now.yday 8
  rw [UInt16.toNat_toUInt8, UInt16.toNat_and, toNat_yday h, hlow, Nat.mod_mod]

/-- The low bit of the upper day register is the new one, and the other bits stay. -/
theorem day1_latched {bit : UInt8} (hbit : bit.toNat < 2) (day1 : UInt8) :
    ((day1 &&& 0xFE) ||| bit) &&& 1 = bit ∧ ((day1 &&& 0xFE) ||| bit) &&& 0xFE = day1 &&& 0xFE := by
  have hsmall : bit &&& 1 = bit ∧ bit &&& 0xFE = 0 :=
    BitField.forall_byte (P := fun x => x.toNat < 2 → x &&& 1 = x ∧ x &&& 0xFE = 0)
      (by decide +kernel) bit hbit
  have hone : (0xFE : UInt8) &&& 1 = 0 := rfl
  have hflags : (0xFE : UInt8) &&& 0xFE = 0xFE := rfl
  constructor
  · rw [BitField.or_and_right, UInt8.and_assoc, hone, hsmall.1, UInt8.and_zero, UInt8.zero_or]
  · rw [BitField.or_and_right, UInt8.and_assoc, hflags, hsmall.2, UInt8.or_zero]

/-- Bit 7 of the day stands in both registers, and the ninth bit in neither. -/
theorem latch_day {now : Tm} (hnow : m.localtime m.calls = some now) (h : now.InRange) :
    (m.latch.rtc.day1 &&& 1).toNat <<< 8 ||| m.latch.rtc.day0.toNat =
      now.yday / 128 % 2 * 2 ^ 8 + now.yday % 256 := by
  have hmsb := toNat_msb h
  have hlow : now.yday % 256 < 2 ^ 8 := Nat.mod_lt _ (by decide)
  rw [latch_rtc hnow]
  simp only [(day1_latched (by omega : (msb now).toNat < 2) m.rtc.day1).1, toNat_day0 h, hmsb]
  rw [← Nat.shiftLeft_add_eq_or_of_lt hlow, Nat.shiftLeft_eq]

theorem setsClock_latch_iff {now : Tm} (hnow : m.localtime m.calls = some now) (h : now.InRange) :
    SetsClock now m.rtc m.latch.rtc ↔ now.yday < 128 := by
  have hday := latch_day hnow h
  have hrange := h.yday
  constructor
  · intro hsets
    have hshown := hday.symm.trans hsets.day
    omega
  · intro hearly
    have hmsb := toNat_msb h
    refine ⟨?_, ?_, ?_, hday.trans (by omega), ?_⟩
    · rw [latch_rtc hnow]
      exact UInt8.toNat_ofNat_of_lt' (Nat.lt_of_le_of_lt h.sec (by decide))
    · rw [latch_rtc hnow]
      exact UInt8.toNat_ofNat_of_lt' (Nat.lt_of_le_of_lt h.min (by decide))
    · rw [latch_rtc hnow]
      exact UInt8.toNat_ofNat_of_lt' (Nat.lt_of_le_of_lt h.hour (by decide))
    · rw [latch_rtc hnow]
      exact (day1_latched (by omega : (msb now).toNat < 2) m.rtc.day1).2

theorem writeROM_of_latches (h : Follows host before m) {address : UInt16} {value : UInt8}
    (hlatches : Latches before (.writeROM address value)) :
    m.writeROM address value = latch { m with latched := 1 } := by
  obtain ⟨hwrite, hlast⟩ := hlatches
  rw [writeROM_latch hwrite, if_pos ⟨h.latched.trans hlast, rfl⟩]

theorem writeROM_of_not_latches (h : Follows host before m) {address : UInt16} {value : UInt8}
    (hlatches : ¬ Latches before (.writeROM address value)) :
    (m.writeROM address value).rtc = m.rtc := by
  cases hwrite : latchWrite (.writeROM address value) with
  | none => exact (writeROM_other hwrite).1
  | some written =>
    have hnot : ¬ (m.latched = 0 ∧ written = 1) := by
      rintro ⟨hlast, rfl⟩
      exact hlatches ⟨hwrite, h.latched.symm.trans hlast⟩
    rw [writeROM_latch hwrite, if_neg hnot]

end Step

section Histories

variable (host : Host) (game : List UInt8) (size : Nat) (battery : Bool)

/-- Every latch along the way sets the clock, and no other write to the ROM touches it. -/
def ClockRight (accesses : List Access) : Prop :=
  ∀ before address value after m, accesses = before ++ .writeROM address value :: after →
    Run.run step (init host game size battery) before = .ok m →
      (Latches before (.writeROM address value) → ∀ now, reading host before = some now →
        SetsClock now m.rtc (m.writeROM address value).rtc) ∧
      (¬ Latches before (.writeROM address value) → (m.writeROM address value).rtc = m.rtc)

/-- The clock is right all along a history exactly if no day is latched from the 128th on,
counted from zero. -/
theorem clockRight_iff (hclock : ∀ n now, host.localtime n = some now → now.InRange)
    (accesses : List Access) :
    ClockRight host game size battery accesses ↔
      ∀ before access after m now, accesses = before ++ access :: after →
        Run.run step (init host game size battery) before = .ok m → Latches before access →
          reading host before = some now → now.yday < 128 := by
  have hfollows {before : List Access} {m : MBC3}
      (hrun : Run.run step (init host game size battery) before = .ok m) :
      Follows host before m :=
    Run.run_history (P := Follows host) (fun _ _ _ _ h => follows_step h) hrun
      (follows_init host game size battery)
  have hlatch {before : List Access} {m : MBC3} {now : Tm} (h : Follows host before m)
      (hnow : reading host before = some now) :
      SetsClock now m.rtc (latch { m with latched := 1 }).rtc ↔ now.yday < 128 := by
    have hlocaltime : m.localtime m.calls = some now := by
      rw [h.localtime, h.calls]
      exact hnow
    exact setsClock_latch_iff (m := { m with latched := 1 }) hlocaltime (hclock _ _ hnow)
  constructor
  · intro hright before access after m now hsplit hrun hlatches hnow
    have h := hfollows hrun
    cases access with
    | writeRAM address value => cases hlatches.1
    | writeROM address value =>
      have hsets := (hright before address value after m hsplit hrun).1 hlatches now hnow
      rw [writeROM_of_latches h hlatches] at hsets
      exact (hlatch h hnow).mp hsets
  · intro hearly before address value after m hsplit hrun
    have h := hfollows hrun
    refine ⟨fun hlatches now hnow => ?_, writeROM_of_not_latches h⟩
    rw [writeROM_of_latches h hlatches]
    exact (hlatch h hnow).mpr (hearly before _ after m now hsplit hrun hlatches hnow)

end Histories

/-- A host on whose clock it is always the same day. -/
def hostOn (yday : Nat) : Host :=
  { emuMode := 0, saveFile := fun _ => none
    localtime := fun _ => some { sec := 30, min := 15, hour := 12, yday := yday } }

theorem clockRight_iff_january :
    ClockRight (hostOn 4) [] 0x2000 false [.writeROM 0x6000 1] ↔
      ∀ before access after m now, [Access.writeROM 0x6000 1] = before ++ access :: after →
        Run.run step (init (hostOn 4) [] 0x2000 false) before = .ok m → Latches before access →
          reading (hostOn 4) before = some now → now.yday < 128 :=
  clockRight_iff (hostOn 4) [] 0x2000 false
    (fun _ _ h => Option.some.inj h ▸ ⟨by decide, by decide, by decide, by decide⟩) _

/-- On the 20th of July the registers show day 456. -/
theorem clock_wrong_july : ¬ ClockRight (hostOn 200) [] 0x2000 false [.writeROM 0x6000 1] := by
  intro hright
  have hsets := (hright [] 0x6000 1 [] _ rfl rfl).1 (by decide) _ rfl
  exact absurd hsets.day (by decide)

end MBC3

end GbEmu
