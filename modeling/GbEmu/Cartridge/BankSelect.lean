import Mathlib.Tactic.IntervalCases
import GbEmu.Cartridge
import GbEmu.Lib.BitField

/-!
The ROM bank that an MBC1 selects, as a function of the history of its register
writes. The low five bits follow the last write; the upper bits are or'ed into
the bank, so they are the union of every value written in ROM mode, and agree
with the last one exactly when that one contains the others.
-/

namespace GbEmu.MBC1

/-- A run of register writes. -/
def writes (m : MBC1) (ws : List (UInt16 × UInt8)) : MBC1 :=
  ws.foldl (fun m w => m.writeROM w.1 w.2) m

theorem writes_append (m : MBC1) (ws us : List (UInt16 × UInt8)) :
    m.writes (ws ++ us) = (m.writes ws).writes us := by
  simp [writes]

/-! ## The history -/

def lowWrites (ws : List (UInt16 × UInt8)) : List UInt8 :=
  ws.filterMap fun w => if 0x2000 ≤ w.1 ∧ w.1 < 0x4000 then some w.2 else none

/-- Mode after `ws`, starting from `mode`: the last write to 0x6000-0x7FFF. -/
def modeAfter (mode : BankMode) : List (UInt16 × UInt8) → BankMode
  | [] => mode
  | w :: ws =>
    modeAfter (if 0x6000 ≤ w.1 ∧ w.1 < 0x8000 then (if w.2 = 0 then .rom else .ram) else mode) ws

/-- Values written to 0x4000-0x5FFF while in ROM mode. -/
def upperWritesFrom (mode : BankMode) : List (UInt16 × UInt8) → List UInt8
  | [] => []
  | w :: ws =>
    (if 0x4000 ≤ w.1 ∧ w.1 < 0x6000 ∧ mode = .rom then [w.2] else []) ++
      upperWritesFrom (modeAfter mode [w]) ws

def upperWrites (ws : List (UInt16 × UInt8)) : List UInt8 := upperWritesFrom .rom ws

/-- Low five bits of the last low write, 1 for zero or for no write at all. -/
def lo (ws : List (UInt16 × UInt8)) : UInt8 :=
  match (lowWrites ws).getLast? with
  | none => 1
  | some v => if v &&& 0x1F = 0 then 1 else v &&& 0x1F

/-- Low three bits of the last upper write in ROM mode, 0 if there is none. -/
def hi (ws : List (UInt16 × UInt8)) : UInt8 := (upperWrites ws).getLast?.getD 0 &&& 0x07

theorem modeAfter_append (mode : BankMode) (ws us : List (UInt16 × UInt8)) :
    modeAfter mode (ws ++ us) = modeAfter (modeAfter mode ws) us := by
  induction ws generalizing mode with
  | nil => rfl
  | cons w ws ih => exact ih _

theorem upperWritesFrom_append (mode : BankMode) (ws us : List (UInt16 × UInt8)) :
    upperWritesFrom mode (ws ++ us) =
      upperWritesFrom mode ws ++ upperWritesFrom (modeAfter mode ws) us := by
  induction ws generalizing mode with
  | nil => rfl
  | cons w ws ih => simp [upperWritesFrom, ih, modeAfter]

theorem upperWrites_snoc (ws : List (UInt16 × UInt8)) (w : UInt16 × UInt8) :
    upperWrites (ws ++ [w]) = upperWrites ws ++
      if 0x4000 ≤ w.1 ∧ w.1 < 0x6000 ∧ modeAfter .rom ws = .rom then [w.2] else [] := by
  simp [upperWrites, upperWritesFrom_append, upperWritesFrom]

theorem lo_snoc (ws : List (UInt16 × UInt8)) (w : UInt16 × UInt8) :
    lo (ws ++ [w]) =
      if 0x2000 ≤ w.1 ∧ w.1 < 0x4000 then (if w.2 &&& 0x1F = 0 then 1 else w.2 &&& 0x1F)
      else lo ws := by
  by_cases h : 0x2000 ≤ w.1 ∧ w.1 < 0x4000 <;> simp [lo, lowWrites, h]

/-! ## Bits of the bank number -/

theorem lo_high (ws : List (UInt16 × UInt8)) : lo ws &&& 0xE0 = 0 := by
  have hv : ∀ v : UInt8, v &&& 0x1F &&& 0xE0 = 0 := by
    intro v
    rw [UInt8.and_assoc, show (0x1F &&& 0xE0 : UInt8) = 0 from rfl, UInt8.and_zero]
  unfold lo
  split
  · rfl
  · split
    · rfl
    · exact hv _

theorem replace_low (acc l b : UInt8) (hl : l &&& 0xE0 = 0) :
    (((acc <<< (5 : UInt8)) ||| l) &&& 0xE0) ||| b = (acc <<< (5 : UInt8)) ||| b := by
  rw [BitField.or_and_right, hl]
  congr 1
  apply UInt8.toBitVec_inj.mp
  ext i hi
  interval_cases i <;> simp

theorem merge_upper (acc v l : UInt8) :
    ((v <<< (5 : UInt8)) &&& 0xE0) ||| ((acc <<< (5 : UInt8)) ||| l) =
      ((acc ||| (v &&& 0x07)) <<< (5 : UInt8)) ||| l := by
  have hv : (v &&& 0x07) <<< (5 : UInt8) = (v <<< (5 : UInt8)) &&& 0xE0 := UInt8.shiftLeft_and
  rw [UInt8.shiftLeft_or, hv, ← UInt8.or_assoc]
  congr 1
  exact UInt8.or_comm _ _

theorem shift_injective (a b l : UInt8) (ha : a &&& 0x07 = a) (hb : b &&& 0x07 = b)
    (hl : l &&& 0xE0 = 0) : (a <<< (5 : UInt8)) ||| l = (b <<< (5 : UInt8)) ||| l ↔ a = b := by
  constructor
  · intro h
    have h' := congrArg (fun x => (x &&& 0xE0) >>> (5 : UInt8)) h
    have hs : ∀ x : UInt8, (((x <<< (5 : UInt8)) ||| l) &&& 0xE0) >>> (5 : UInt8) = x &&& 0x07 := by
      intro x
      rw [BitField.or_and_right, hl, UInt8.or_zero]
      apply UInt8.toBitVec_inj.mp
      ext i hi
      interval_cases i <;> simp
    simp only [hs] at h'
    rw [← ha, ← hb, h']
  · rintro rfl
    rfl

/-! ## The selected bank -/

/-- The low three bits of each upper write. -/
def upperBits (ws : List (UInt16 × UInt8)) : List UInt8 := (upperWrites ws).map (· &&& 0x07)

theorem orAll_upperBits_masked (ws : List (UInt16 × UInt8)) :
    BitField.orAll (upperBits ws) &&& 0x07 = BitField.orAll (upperBits ws) := by
  rw [BitField.orAll_and, upperBits, List.map_map]
  congr 2
  funext x
  simp [UInt8.and_assoc]

theorem hi_masked (ws : List (UInt16 × UInt8)) : hi ws &&& 0x07 = hi ws := by
  rw [hi, UInt8.and_assoc, UInt8.and_self]

/-- The union of the upper writes is the last of them when that one contains the others. -/
theorem orAll_upperBits_eq_hi_iff (ws : List (UInt16 × UInt8)) :
    BitField.orAll (upperBits ws) = hi ws ↔
      ∀ u ∈ upperWrites ws, (u &&& 0x07) ||| hi ws = hi ws := by
  unfold upperBits hi
  rcases List.eq_nil_or_concat (upperWrites ws) with h | ⟨us, u, h⟩
  · simp [h]
  · rw [h, BitField.orAll_eq_iff (by simp), List.forall_mem_map]

/-- The value the low register takes: zero selects bank 1. -/
theorem low_bank (v : UInt8) :
    (if v &&& 0x1F = 0x00 ∨ v &&& 0x1F = 0x20 ∨ v &&& 0x1F = 0x40 ∨ v &&& 0x1F = 0x60
      then (v &&& 0x1F) ||| 0x01 else v &&& 0x1F) =
      if v &&& 0x1F = 0 then 1 else v &&& 0x1F := by
  have h : ∀ k : UInt8, k &&& 0x1F = 0 → k ≠ 0 → v &&& 0x1F ≠ k := by
    rintro k hk hk0 rfl
    rw [UInt8.and_assoc, UInt8.and_self] at hk
    exact hk0 hk
  by_cases h0 : v &&& 0x1F = 0
  · simp [h0]
  · simp [h0, h 0x20 (by decide) (by decide), h 0x40 (by decide) (by decide),
      h 0x60 (by decide) (by decide)]

theorem writeROM_mode (m : MBC1) (a : UInt16) (v : UInt8) :
    (m.writeROM a v).mode = modeAfter m.mode [(a, v)] := by
  simp only [writeROM, modeAfter, UInt16.lt_iff_toNat_lt, UInt16.le_iff_toNat_le,
    UInt16.reduceToNat]
  split_ifs <;> first | rfl | omega | (cases m.mode <;> rfl)

theorem writeROM_romBank (m : MBC1) (a : UInt16) (v : UInt8) :
    (m.writeROM a v).romBank =
      if 0x2000 ≤ a ∧ a < 0x4000 then
        (m.romBank &&& 0xE0) ||| (if v &&& 0x1F = 0 then 1 else v &&& 0x1F)
      else if 0x4000 ≤ a ∧ a < 0x6000 ∧ m.mode = .rom then
        ((v <<< (5 : UInt8)) &&& 0xE0) ||| m.romBank
      else m.romBank := by
  rw [← low_bank]
  simp only [writeROM, UInt16.lt_iff_toNat_lt, UInt16.le_iff_toNat_le, UInt16.reduceToNat]
  cases m.mode <;> split_ifs <;> first | rfl | omega | simp_all

/-- After any run the controller is in the mode of the last mode write, and its
bank holds the union of the upper writes above the last low write. -/
theorem writes_init (host : Host) (game : List UInt8) (size : Nat) (battery : Bool)
    (ws : List (UInt16 × UInt8)) :
    ((init host game size battery).writes ws).mode = modeAfter .rom ws ∧
      ((init host game size battery).writes ws).romBank =
        (BitField.orAll (upperBits ws) <<< (5 : UInt8)) ||| lo ws := by
  induction ws using List.reverseRecOn with
  | nil =>
    cases battery <;> exact ⟨rfl, rfl⟩
  | append_singleton ws w ih =>
    obtain ⟨hm, hb⟩ := ih
    rw [writes_append, upperBits, upperWrites_snoc, lo_snoc, modeAfter_append]
    generalize (init host game size battery).writes ws = m at hm hb
    rw [← hm]
    refine ⟨writeROM_mode m w.1 w.2, (writeROM_romBank m w.1 w.2).trans ?_⟩
    by_cases h2 : 0x2000 ≤ w.1 ∧ w.1 < 0x4000
    · have h4 : ¬ (0x4000 ≤ w.1 ∧ w.1 < 0x6000 ∧ m.mode = .rom) := by
        simp only [UInt16.lt_iff_toNat_lt, UInt16.le_iff_toNat_le, UInt16.reduceToNat] at h2 ⊢
        omega
      rw [if_pos h2, if_pos h2, if_neg h4, hb, replace_low _ _ _ (lo_high ws), List.append_nil]
      rfl
    · rw [if_neg h2, if_neg h2, hb]
      by_cases h4 : 0x4000 ≤ w.1 ∧ w.1 < 0x6000 ∧ m.mode = .rom
      · rw [if_pos h4, if_pos h4, merge_upper, List.map_append, List.map_singleton,
          BitField.orAll_snoc]
        rfl
      · rw [if_neg h4, if_neg h4, List.append_nil]
        rfl

/-- **Bank selection.** The selected bank is the pair of the last two register
values exactly when the last upper write contains all the earlier ones. -/
theorem romBank_eq_selected_iff (host : Host) (game : List UInt8) (size : Nat) (battery : Bool)
    (ws : List (UInt16 × UInt8)) :
    ((init host game size battery).writes ws).romBank = (hi ws <<< (5 : UInt8)) ||| lo ws ↔
      ∀ u ∈ upperWrites ws, (u &&& 0x07) ||| hi ws = hi ws := by
  rw [(writes_init host game size battery ws).2, ← orAll_upperBits_eq_hi_iff]
  exact shift_injective _ _ _ (orAll_upperBits_masked ws) (hi_masked ws) (lo_high ws)

/-- Rewriting the upper register accumulates: after 1 and then 2, bank 0x61. -/
theorem romBank_not_selected :
    ¬ ∀ (host : Host) (game : List UInt8) (size : Nat) (battery : Bool)
      (ws : List (UInt16 × UInt8)), (∀ w ∈ ws, w.1 < 0x8000) →
      ((init host game size battery).writes ws).romBank = (hi ws <<< (5 : UInt8)) ||| lo ws := by
  intro h
  exact absurd (h ⟨0, fun _ => none, fun _ => none⟩ [] 0x2000 false [(0x4000, 1), (0x4000, 2)]
    (by simp)) (by decide)

end GbEmu.MBC1
