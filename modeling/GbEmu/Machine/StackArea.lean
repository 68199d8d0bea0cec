import GbEmu.Bus.Cells
import GbEmu.Machine.Tick

/-!
The areas of RAM in which a stack can lie. Whatever bank of work RAM is selected, a byte
stored at one address of an area is seen there and nowhere else in it.
-/

namespace GbEmu

open Run

/-- The areas of RAM for a stack: work RAM, less its echo, and the high area. -/
inductive StackArea
  | work
  | high
  deriving DecidableEq, Repr

namespace StackArea

def low : StackArea → Nat
  | work => 0xC000
  | high => 0xFF80

/-- The first address behind; that of IE is not for a stack. -/
def limit : StackArea → Nat
  | work => 0xE000
  | high => 0xFFFF

def Contains (area : StackArea) (address : UInt16) : Prop :=
  area.low ≤ address.toNat ∧ address.toNat < area.limit

def region : StackArea → Region
  | work => .working
  | high => .zero

variable {area : StackArea} {s s' : Bus} {a b : UInt16}

theorem find_contains (s : Bus) (h : area.Contains a) : s.find a = some area.region := by
  obtain ⟨hlow, hlimit⟩ := h
  cases area with
  | work => exact (s.find_working_iff a).mpr ⟨hlow, by simp only [limit] at hlimit; omega⟩
  | high => exact (s.find_zero_iff a).mpr hlow

/-- The index of an address in work RAM. -/
theorem index_work (h : work.Contains a) :
    Bus.workingIndex a.toNat < 0x2000 ∧ a.toNat = Bus.workingIndex a.toNat + 0xC000 := by
  obtain ⟨hlow, hlimit⟩ := h
  simp only [low, limit] at hlow hlimit
  rw [Bus.workingIndex_eq hlow (by omega)]
  omega

theorem workingBank_low {i bank : Nat} (hi : i < 0x1000) (h : s.workingBank i = .ok bank) :
    bank = 0 := by
  unfold Bus.workingBank at h
  cases hcgb : s.isCGB with
  | false =>
    simp only [hcgb, Bool.not_false, if_true, workingRamSize, Except.ok.injEq] at h
    omega
  | true =>
    simp only [hcgb, Bool.not_true, Bool.false_eq_true, if_false, workingRamSize, Nat.reduceDiv,
      if_pos hi, Nat.ofNat_pos, if_true, Except.ok.injEq] at h
    exact h.symm

theorem workingBank_high {i bank : Nat} (hi : 0x1000 ≤ i) (h : s.workingBank i = .ok bank) :
    1 ≤ bank := by
  unfold Bus.workingBank at h
  cases hcgb : s.isCGB with
  | false =>
    simp only [hcgb, Bool.not_false, if_true, workingRamSize, Except.ok.injEq] at h
    omega
  | true =>
    simp only [hcgb, Bool.not_true, Bool.false_eq_true, if_false, workingRamSize, Nat.reduceDiv,
      if_neg (Nat.not_lt.mpr hi)] at h
    split_ifs at h
    rw [← Except.ok.inj h]
    exact Nat.le_max_left ..

/-- Different indices into work RAM have different banks or places in the bank. -/
theorem place_ne {i j bank bank' : Nat} (hi : i < 0x2000) (hj : j < 0x2000) (hne : j ≠ i)
    (h : s.workingBank i = .ok bank) (h' : s.workingBank j = .ok bank') :
    ¬ (bank = bank' ∧ i % 0x1000 = j % 0x1000) := by
  rintro ⟨rfl, hmod⟩
  rcases Nat.lt_or_ge i 0x1000 with hlow | hlow <;> rcases Nat.lt_or_ge j 0x1000 with hlow' | hlow'
  · omega
  · have hzero := workingBank_low hlow h
    have hone := workingBank_high hlow' h'
    omega
  · have hzero := workingBank_low hlow' h'
    have hone := workingBank_high hlow h
    omega
  · omega

/-- What a byte written to the stack changes. -/
theorem peek_write {depth : Nat} {value : UInt8} (ha : area.Contains a) (hb : area.Contains b)
    (h : Bus.write depth s a value = .ok s') :
    s'.peek b = if b = a then .ok value else s.peek b := by
  cases depth with
  | zero => cases h
  | succ depth =>
    unfold Bus.peek
    rw [find_contains s hb, find_contains s' hb]
    rw [Bus.write, find_contains s ha] at h
    cases area with
    | work =>
      obtain ⟨bank, hbank, rfl⟩ := map_eq_ok.mp h
      obtain ⟨hi, hia⟩ := index_work ha
      obtain ⟨hj, hjb⟩ := index_work hb
      have hbank' : ({ s with working := Function.update s.working bank (Function.update
          (s.working bank) (Bus.workingIndex a.toNat % 0x1000) value) } : Bus).workingBank
            (Bus.workingIndex b.toNat) = s.workingBank (Bus.workingIndex b.toNat) := rfl
      simp only [region, Bus.readRegion, Bus.readWorking, workingRamSize, Nat.reduceDiv, hbank',
        Bus.update_two]
      by_cases heq : b = a
      · rw [heq, hbank, if_pos rfl]
        simp only [Except.map, and_self, if_true]
      · have hne : Bus.workingIndex b.toNat ≠ Bus.workingIndex a.toNat := fun h =>
          heq (UInt16.toNat_inj.mp (by omega))
        rw [if_neg heq]
        cases hother : s.workingBank (Bus.workingIndex b.toNat) with
        | error e => rfl
        | ok bank' => simp only [Except.map, if_neg (place_ne hi hj hne hbank hother)]
    | high =>
      obtain rfl := Except.ok.inj h
      simp only [region, Bus.readRegion, Function.update_apply]
      split_ifs <;> rfl

theorem peek_kept (h : s.Kept s') (ha : area.Contains a) : s'.peek a = s.peek a := by
  unfold Bus.peek
  rw [find_contains s ha, find_contains s' ha]
  cases area with
  | work =>
    have hcgb : s'.isCGB = s.isCGB := by
      unfold Bus.isCGB
      rw [h.cartridge]
    have hbank : s'.workingBank = s.workingBank := by
      funext i
      unfold Bus.workingBank
      rw [hcgb, h.bank]
    simp only [region, Bus.readRegion, Bus.readWorking, hbank, h.working]
  | high => simp only [region, Bus.readRegion, h.zero]

end StackArea

end GbEmu
