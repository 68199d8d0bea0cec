import GbEmu.Bus.Frame
import GbEmu.JoyPad

/-!
The joypad register against the history of the calls and of the writes: the eight buttons
keep out of each other's way in two bytes, which `cycle` merges into a register whose
upper half belongs to the guest.
-/

namespace GbEmu.JoyPad

open BitField

/-! ## Buttons -/

/-- `GameBoyInterface::JoyPadButton`. -/
inductive JoyPadButton
  | a
  | b
  | select
  | start
  | right
  | left
  | up
  | down
  deriving DecidableEq, Repr

/-- The two halves of the buttons. -/
inductive ShadowSelect
  | dirs
  | buttons
  deriving DecidableEq, Repr

/-- `SHADOW_MAP`. -/
def ShadowSelect.index : ShadowSelect → Nat
  | dirs => 0
  | buttons => 1

namespace JoyPadButton

def toInt : JoyPadButton → Int
  | a => 0x10
  | b => 0x20
  | select => 0x40
  | start => 0x80
  | right => 0x01
  | left => 0x02
  | up => 0x04
  | down => 0x08

/-- `BUTTON_MAP`. -/
def shadow : JoyPadButton → ShadowSelect
  | a | b | select | start => .buttons
  | right | left | up | down => .dirs

/-- The bit of a button in its shadow byte, and in the register. -/
def line : JoyPadButton → Nat
  | a | right => 0
  | b | left => 1
  | select | up => 2
  | start | down => 3

/-- No two buttons share a line. -/
theorem eq_of_line {button other : JoyPadButton} (hshadow : button.shadow = other.shadow)
    (hline : button.line = other.line) : button = other := by
  cases button <;> cases other <;> simp_all [shadow, line]

theorem line_lt (button : JoyPadButton) : button.line < 4 := by
  cases button <;> decide

/-- What `clr` sets and `set` clears. -/
def mask (button : JoyPadButton) : UInt8 :=
  UInt8.ofInt button.toInt >>> (4 * UInt8.ofNat button.shadow.index)

theorem bit_mask (button : JoyPadButton) (k : Nat) :
    bit button.mask k = decide (k = button.line) := by
  have hmask : button.mask.toNat = 2 ^ button.line := by
    cases button <;> rfl
  unfold bit
  rw [hmask, Nat.testBit_two_pow]
  exact decide_eq_decide.mpr eq_comm

end JoyPadButton

/-! ## Calls -/

/-- `m_shadow`, by its index. -/
def shadow (j : JoyPad) : ShadowSelect → UInt8
  | .dirs => j.directions
  | .buttons => j.buttons

def setShadow (j : JoyPad) (value : UInt8) : ShadowSelect → JoyPad
  | .dirs => { j with directions := value }
  | .buttons => { j with buttons := value }

theorem shadow_setShadow (j : JoyPad) (value : UInt8) (g g' : ShadowSelect) :
    (j.setShadow value g).shadow g' = if g' = g then value else j.shadow g' := by
  cases g <;> cases g' <;> rfl

/-- The line of `button` becomes `value`, and no other bit of the two bytes changes. -/
def SetsLine (button : JoyPadButton) (value : Bool) (j j' : JoyPad) : Prop :=
  ∀ g k, bit (j'.shadow g) k =
    if g = button.shadow ∧ k = button.line then value else bit (j.shadow g) k

section Calls

variable (j : JoyPad) (button : JoyPadButton)

theorem clr_eq : j.clr button.toInt =
    .ok (j.setShadow (j.shadow button.shadow ||| button.mask) button.shadow) := by
  cases button <;> rfl

theorem set_eq : j.set button.toInt =
    .ok (j.setShadow (j.shadow button.shadow &&& ~~~button.mask) button.shadow) := by
  cases button <;> rfl

theorem setsLine_setShadow {value : Bool} {byte : UInt8}
    (h : ∀ k, bit byte k =
      if k = button.line then value else bit (j.shadow button.shadow) k) :
    SetsLine button value j (j.setShadow byte button.shadow) := by
  intro g k
  rw [shadow_setShadow]
  by_cases hg : g = button.shadow
  · rw [if_pos hg, h k, hg]
    simp only [true_and]
  · rw [if_neg hg, if_neg fun hboth => hg hboth.1]

theorem clr_ok : ∃ j', j.clr button.toInt = .ok j' ∧ SetsLine button true j j' := by
  refine ⟨_, clr_eq j button, setsLine_setShadow j button fun k => ?_⟩
  rw [bit_or, JoyPadButton.bit_mask]
  split_ifs with hk <;> simp [hk]

theorem set_ok : ∃ j', j.set button.toInt = .ok j' ∧ SetsLine button false j j' := by
  refine ⟨_, set_eq j button, setsLine_setShadow j button fun k => ?_⟩
  rw [bit_and_not, JoyPadButton.bit_mask]
  split_ifs with hk <;> simp [hk]

end Calls

/-- Every number that `BUTTON_MAP` has is a button. -/
theorem exists_toInt {value : Int} {i : Nat} (h : index value = .ok i) :
    ∃ button : JoyPadButton, button.toInt = value := by
  unfold index at h
  split_ifs at h with hbuttons hdirs
  · simp only [List.mem_cons, List.not_mem_nil, or_false] at hbuttons
    rcases hbuttons with rfl | rfl | rfl | rfl
    · exact ⟨.a, rfl⟩
    · exact ⟨.b, rfl⟩
    · exact ⟨.select, rfl⟩
    · exact ⟨.start, rfl⟩
  · simp only [List.mem_cons, List.not_mem_nil, or_false] at hdirs
    rcases hdirs with rfl | rfl | rfl | rfl
    · exact ⟨.right, rfl⟩
    · exact ⟨.left, rfl⟩
    · exact ⟨.up, rfl⟩
    · exact ⟨.down, rfl⟩

/-! ## The register -/

/-- A call from the server, a write of the guest to the register, or a cycle. -/
inductive Action
  | set (button : JoyPadButton)
  | clr (button : JoyPadButton)
  | write (value : UInt8)
  | cycle
  deriving DecidableEq, Repr

def step (depth : Nat) (x : JoyPad × Bus) : Action → Except Fault (JoyPad × Bus)
  | .set button => (x.1.set button.toInt).map fun j => (j, x.2)
  | .clr button => (x.1.clr button.toInt).map fun j => (j, x.2)
  | .write value => (Bus.write (depth + 1) x.2 joypadInputAddress value).map fun s => (x.1, s)
  | .cycle => .ok (x.1, x.1.cycle x.2)

/-- What a call says about a button. -/
def call (button : JoyPadButton) : Action → Option Bool
  | .set pad => if pad = button then some true else none
  | .clr pad => if pad = button then some false else none
  | _ => none

/-- Whether the last call for a button was to `set`. -/
def pressed (button : JoyPadButton) (actions : List Action) : Bool :=
  (actions.filterMap (call button)).getLast?.getD false

def written : Action → Option UInt8
  | .write value => some value
  | _ => none

/-- The last byte that the guest has written, or what the constructor did. -/
def lastWritten (actions : List Action) : UInt8 :=
  (actions.filterMap written).getLast?.getD 0xFF

theorem pressed_snoc (button : JoyPadButton) (actions : List Action) (action : Action) :
    pressed button (actions ++ [action]) = (call button action).getD (pressed button actions) := by
  unfold pressed
  rw [List.filterMap_append]
  cases h : call button action <;> simp [h]

theorem lastWritten_snoc (actions : List Action) (action : Action) :
    lastWritten (actions ++ [action]) = (written action).getD (lastWritten actions) := by
  unfold lastWritten
  rw [List.filterMap_append]
  cases h : written action <;> simp [h]

/-- The joypad and its register after a history. -/
structure Follows (actions : List Action) (x : JoyPad × Bus) : Prop where
  lines : ∀ button, bit (x.1.shadow button.shadow) button.line = !pressed button actions
  idle : ∀ g k, 4 ≤ k → bit (x.1.shadow g) k = false
  upper : x.2.io joypadInputAddress &&& 0xF0 = 0xC0 ||| (lastWritten actions &&& 0x30)

section Step

variable {actions : List Action} {x : JoyPad × Bus}

theorem follows_call (h : Follows actions x) {button : JoyPadButton} {value : Bool} {j : JoyPad}
    (hj : SetsLine button value x.1 j) {action : Action}
    (hcall : ∀ other, call other action = if button = other then some (!value) else none)
    (hwritten : written action = none) : Follows (actions ++ [action]) (j, x.2) where
  lines := by
    intro other
    rw [hj, pressed_snoc, hcall]
    by_cases hother : button = other
    · subst hother
      simp
    · have hline : ¬ (other.shadow = button.shadow ∧ other.line = button.line) := by
        rintro ⟨hshadow, hline⟩
        exact hother (JoyPadButton.eq_of_line hshadow hline).symm
      rw [if_neg hline, if_neg hother]
      exact h.lines other
  idle := by
    intro g k hk
    have hline : ¬ (g = button.shadow ∧ k = button.line) := by
      rintro ⟨-, rfl⟩
      exact absurd button.line_lt (Nat.not_lt.mpr hk)
    rw [hj, if_neg hline]
    exact h.idle g k hk
  upper := by
    rw [lastWritten_snoc, hwritten]
    exact h.upper

/-- The guest gets at bits 4 and 5 only. -/
theorem write_register (depth : Nat) (s : Bus) (value : UInt8) :
    Bus.write (depth + 1) s joypadInputAddress value =
      .ok (s.writeBytes joypadInputAddress value 0x30) := by
  have hfind : s.find joypadInputAddress = some .io :=
    (s.find_io_iff joypadInputAddress).mpr (by decide)
  unfold Bus.write
  rw [hfind]
  rfl

theorem upper_insert {register last : UInt8} (h : register &&& 0xF0 = 0xC0 ||| (last &&& 0x30))
    (value : UInt8) : insert 0x30 register value &&& 0xF0 = 0xC0 ||| (value &&& 0x30) := by
  have hkept : register &&& 0xC0 = 0xC0 := by
    calc register &&& 0xC0 = (register &&& 0xF0) &&& 0xC0 := by rw [UInt8.and_assoc]; rfl
      _ = (0xC0 ||| (last &&& 0x30)) &&& 0xC0 := by rw [h]
      _ = 0xC0 ||| (last &&& 0) := by rw [BitField.or_and_right, UInt8.and_assoc]; rfl
      _ = 0xC0 := by simp
  have hsplit : (0xF0 : UInt8) = 0xC0 ||| 0x30 := rfl
  rw [hsplit, BitField.and_or_left, insert_and_of_disjoint rfl, insert_and_of_subset rfl, hkept]

/-- The upper half of the register stays, and the lower half is the state. -/
theorem bit_cycle (register : UInt8) {state : UInt8} (h : ∀ k, 4 ≤ k → bit state k = false)
    (k : Nat) :
    bit ((register &&& 0xF0) ||| state) k = if k < 4 then bit state k else bit register k := by
  have hupper : bit 0xF0 k = (decide (4 ≤ k) && decide (k < 8)) := by
    rcases Nat.lt_or_ge k 8 with hk | hk
    · revert k
      decide
    · rw [bit_of_le _ hk, decide_eq_false (Nat.not_lt.mpr hk), Bool.and_false]
  rw [bit_or, bit_and, hupper]
  split_ifs with hk
  · simp [Nat.not_le.mpr hk]
  · rw [h k (Nat.not_lt.mp hk), Bool.or_false, decide_eq_true (Nat.not_lt.mp hk), Bool.true_and]
    rcases Nat.lt_or_ge k 8 with h8 | h8
    · rw [decide_eq_true h8, Bool.and_true]
    · rw [bit_of_le _ h8, Bool.false_and]

theorem upper_cycle (register : UInt8) {state : UInt8} (h : ∀ k, 4 ≤ k → bit state k = false) :
    ((register &&& 0xF0) ||| state) &&& 0xF0 = register &&& 0xF0 := by
  have hnibble : state.toNat < 2 ^ 4 := Nat.lt_pow_two_of_testBit _ h
  have hstate : state &&& 0xF0 = 0 :=
    forall_byte (P := fun x => x.toNat < 2 ^ 4 → x &&& 0xF0 = 0) (by decide +kernel) state hnibble
  rw [BitField.or_and_right, hstate, UInt8.or_zero, UInt8.and_assoc]
  rfl

theorem bit_idle (k : Nat) : bit buttonsIdle k = decide (k < 4) := Nat.testBit_two_pow_sub_one 4 k

theorem bit_state (h : Follows actions x) (register : UInt8) {k : Nat} (hk : 4 ≤ k) :
    bit (x.1.state register) k = false := by
  unfold state
  split_ifs
  · exact h.idle .dirs k hk
  · exact h.idle .buttons k hk
  · rw [bit_idle, decide_eq_false (Nat.not_lt.mpr hk)]

theorem follows_step (depth : Nat) (h : Follows actions x) (action : Action) :
    ∃ x', step depth x action = .ok x' ∧ Follows (actions ++ [action]) x' := by
  cases action with
  | set button =>
    obtain ⟨j, hj, hline⟩ := set_ok x.1 button
    refine ⟨(j, x.2), Run.map_eq_ok.mpr ⟨j, hj, rfl⟩, ?_⟩
    exact follows_call h hline (fun _ => rfl) rfl
  | clr button =>
    obtain ⟨j, hj, hline⟩ := clr_ok x.1 button
    refine ⟨(j, x.2), Run.map_eq_ok.mpr ⟨j, hj, rfl⟩, ?_⟩
    exact follows_call h hline (fun _ => rfl) rfl
  | write value =>
    refine ⟨_, congrArg (Except.map _) (write_register depth x.2 value), ?_, h.idle, ?_⟩
    · intro button
      rw [pressed_snoc]
      exact h.lines button
    · rw [lastWritten_snoc, Bus.writeBytes, Bus.setIo_io_self]
      exact upper_insert h.upper value
  | cycle =>
    refine ⟨_, rfl, ?_, h.idle, ?_⟩
    · intro button
      rw [pressed_snoc]
      exact h.lines button
    · rw [lastWritten_snoc, JoyPad.cycle, Bus.setIo_io_self,
        upper_cycle _ fun k => bit_state h _]
      exact h.upper

/-- A line of the group that the register shows. -/
theorem line_cycle (h : Follows actions x) (register : UInt8) {button : JoyPadButton}
    (hstate : x.1.state register = x.1.shadow button.shadow) :
    bit ((register &&& 0xF0) ||| x.1.state register) button.line = false ↔
      pressed button actions = true := by
  rw [bit_cycle register fun k => bit_state h register, if_pos button.line_lt, hstate, h.lines]
  simp

end Step

/-- The joypad that the constructor leaves. -/
def released : JoyPad := { directions := buttonsIdle, buttons := buttonsIdle }

theorem shadow_released (g : ShadowSelect) : released.shadow g = buttonsIdle := by
  cases g <;> rfl

theorem follows_nil (ndebug : Bool) (bios : Bios) (cartridge : Option Cartridge)
    (link : Option ConsoleLink) :
    Follows [] (released, Bus.powerOn ndebug bios cartridge link) where
  lines := by
    intro button
    rw [shadow_released, bit_idle, decide_eq_true button.line_lt]
    rfl
  idle := by
    intro g k hk
    rw [shadow_released, bit_idle, decide_eq_false (Nat.not_lt.mpr hk)]
  upper := by
    have hregister : (Bus.powerOn ndebug bios cartridge link).io joypadInputAddress = 0xFF := rfl
    rw [hregister]
    decide

section Select

variable {register : UInt8}

theorem and_shadowDirs (register : UInt8) :
    register &&& shadowDirs = 0 ↔ bit register 4 = false :=
  forall_byte (P := fun x => x &&& shadowDirs = 0 ↔ bit x 4 = false) (by decide +kernel) register

theorem and_shadowButtons (register : UInt8) :
    register &&& shadowButtons = 0 ↔ bit register 5 = false :=
  forall_byte (P := fun x => x &&& shadowButtons = 0 ↔ bit x 5 = false) (by decide +kernel) register

theorem state_dirs (j : JoyPad) (h : bit register 4 = false) :
    j.state register = j.shadow .dirs :=
  if_pos ((and_shadowDirs register).mpr h)

theorem state_other (j : JoyPad) (h : bit register 4 = true) :
    j.state register = if register &&& shadowButtons = 0 then j.buttons else buttonsIdle :=
  if_neg fun hzero => absurd h (by rw [(and_shadowDirs register).mp hzero]; decide)

theorem state_buttons (j : JoyPad) (h4 : bit register 4 = true) (h5 : bit register 5 = false) :
    j.state register = j.shadow .buttons :=
  (state_other j h4).trans (if_pos ((and_shadowButtons register).mpr h5))

theorem state_idle (j : JoyPad) (h4 : bit register 4 = true) (h5 : bit register 5 = true) :
    j.state register = buttonsIdle :=
  (state_other j h4).trans
    (if_neg fun hzero => absurd h5 (by rw [(and_shadowButtons register).mp hzero]; decide))

end Select

/-- After each cycle the register shows the group that the guest has selected, the
directions before the buttons, and a line is low exactly if its button is pressed. -/
theorem register_after_cycle (ndebug : Bool) (bios : Bios) (cartridge : Option Cartridge)
    (link : Option ConsoleLink) (depth : Nat) (actions : List Action) :
    ∃ j s, Run.run (step depth) (released, Bus.powerOn ndebug bios cartridge link)
        (actions ++ [.cycle]) = .ok (j, s) ∧
      let register := s.io joypadInputAddress
      register &&& 0xF0 = 0xC0 ||| (lastWritten actions &&& 0x30) ∧
        (bit register 4 = false → ∀ button, button.shadow = .dirs →
          (bit register button.line = false ↔ pressed button actions = true)) ∧
        (bit register 4 = true → bit register 5 = false → ∀ button, button.shadow = .buttons →
          (bit register button.line = false ↔ pressed button actions = true)) ∧
        (bit register 4 = true → bit register 5 = true → register &&& 0x0F = 0x0F) := by
  obtain ⟨⟨j, s⟩, hrun, h⟩ := Run.run_history_total (P := Follows)
    (fun _ action _ h => follows_step depth h action) actions
    (follows_nil ndebug bios cartridge link)
  refine ⟨j, j.cycle s, Run.run_snoc_ok.mpr ⟨_, hrun, rfl⟩, ?_⟩
  have hstate (k : Nat) (hk : 4 ≤ k) : bit (j.state (s.io joypadInputAddress)) k = false :=
    bit_state h _ hk
  have hupper := upper_cycle (s.io joypadInputAddress) hstate
  have h4 := bit_cycle (s.io joypadInputAddress) hstate 4
  have h5 := bit_cycle (s.io joypadInputAddress) hstate 5
  rw [JoyPad.cycle, Bus.setIo_io_self]
  refine ⟨hupper.trans h.upper, fun hdirs button hshadow => ?_,
    fun hdirs hbuttons button hshadow => ?_, fun hdirs hbuttons => ?_⟩
  · apply line_cycle h
    rw [hshadow]
    exact state_dirs j (h4.symm.trans hdirs)
  · apply line_cycle h
    rw [hshadow]
    exact state_buttons j (h4.symm.trans hdirs) (h5.symm.trans hbuttons)
  · have hupper : (0xF0 : UInt8) &&& 0x0F = 0 := rfl
    rw [state_idle j (h4.symm.trans hdirs) (h5.symm.trans hbuttons), BitField.or_and_right,
      UInt8.and_assoc, hupper, UInt8.and_zero]
    rfl

end GbEmu.JoyPad
