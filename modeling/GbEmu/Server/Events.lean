import GbEmu.GameScreen
import GbEmu.JoyPad.Register
import GbEmu.Server

/-!
The event requests. One is taken apart by two splits and two numbers, and a number that
cannot be read, or that is no button, is an exception.
-/

namespace GbEmu.GameServer

open Text Util GbEmu.Configuration JoyPad

/-! ## Events -/

/-- The texts of key and value, if `handleEvent` gets to them. -/
def keyValue (request : Line) : Option (Line × Line) :=
  let parts := split request 0x3F
  if parts.length ≠ 2 then none
  else
    let tokens := split (parts.getD 1 []) 0x3D
    if tokens.length < 2 then none else some (tokens.getD 0 [], tokens.getD 1 [])

theorem handleEvent_eq (console : JoyPad) (request : Line) :
    handleEvent console request =
      match keyValue request with
      | none => .ok console
      | some (key, value) => (stoi key).bind fun event =>
        if event = keyUp then (stoi value).bind console.clr
        else if event = keyDown then (stoi value).bind console.set
        else .ok console := by
  unfold handleEvent keyValue
  by_cases hparts : (split request 0x3F).length ≠ 2
  · simp only [if_pos hparts]
    rfl
  · simp only [if_neg hparts]
    by_cases htokens : (split ((split request 0x3F).getD 1 []) 0x3D).length < 2
    · simp only [if_pos htokens]
      rfl
    · simp only [if_neg htokens]
      rfl

/-- An event request that presses or releases a button. -/
def Presses (request : Line) (key : Int) (button : JoyPadButton) : Prop :=
  ∃ k v, keyValue request = some (k, v) ∧ stoi k = .ok key ∧ (key = keyUp ∨ key = keyDown) ∧
    stoi v = .ok button.toInt

/-- The request is handled: it changes the line of its button, or nothing. -/
def Handled (console : JoyPad) (request : Line) (console' : JoyPad) : Prop :=
  (∀ key button, Presses request key button →
    SetsLine button (decide (key = keyUp)) console console') ∧
  ((∀ key button, ¬ Presses request key button) → console' = console)

/-- The key can be read, and the value too if the key asks for it. -/
def Reads (request : Line) : Prop :=
  ∀ k v, keyValue request = some (k, v) →
    ∃ key, stoi k = .ok key ∧
      (key = keyUp ∨ key = keyDown → ∃ button : JoyPadButton, stoi v = .ok button.toInt)

section HandleEvent

variable {console console' : JoyPad} {request : Line}

theorem handleEvent_presses {key : Int} {button : JoyPadButton} (h : Presses request key button)
    (console : JoyPad) :
    ∃ console', handleEvent console request = .ok console' ∧
      SetsLine button (decide (key = keyUp)) console console' := by
  obtain ⟨k, v, hkeyValue, hkey, hpress, hvalue⟩ := h
  rw [handleEvent_eq, hkeyValue]
  simp only [hkey, hvalue, Except.bind]
  rcases hpress with rfl | rfl
  · exact clr_ok console button
  · exact set_ok console button

theorem handleEvent_other (hreads : Reads request)
    (h : ∀ key button, ¬ Presses request key button) (console : JoyPad) :
    handleEvent console request = .ok console := by
  rw [handleEvent_eq]
  cases hkeyValue : keyValue request with
  | none => rfl
  | some texts =>
    obtain ⟨key, hkey, hvalue⟩ := hreads texts.1 texts.2 hkeyValue
    have hother : ¬ (key = keyUp ∨ key = keyDown) := by
      intro hpress
      obtain ⟨button, hbutton⟩ := hvalue hpress
      exact h key button ⟨texts.1, texts.2, hkeyValue, hkey, hpress, hbutton⟩
    rw [not_or] at hother
    simp only [hkey, Except.bind]
    rw [if_neg hother.1, if_neg hother.2]

/-- A call that returns was for a button. -/
theorem button_of_call {value : Int} {f : Nat → JoyPad} (h : (index value).map f = .ok console') :
    ∃ button : JoyPadButton, button.toInt = value := by
  obtain ⟨i, hi, -⟩ := Run.map_eq_ok.mp h
  exact exists_toInt hi

theorem reads_of_ok (h : handleEvent console request = .ok console') : Reads request := by
  intro k v hkeyValue
  rw [handleEvent_eq, hkeyValue] at h
  obtain ⟨key, hkey, hrest⟩ := Run.bind_eq_ok.mp h
  refine ⟨key, hkey, fun hpress => ?_⟩
  by_cases hup : key = keyUp
  · rw [if_pos hup] at hrest
    obtain ⟨value, hvalue, hclr⟩ := Run.bind_eq_ok.mp hrest
    obtain ⟨button, rfl⟩ := button_of_call hclr
    exact ⟨button, hvalue⟩
  · rw [if_neg hup, if_pos (hpress.resolve_left hup)] at hrest
    obtain ⟨value, hvalue, hset⟩ := Run.bind_eq_ok.mp hrest
    obtain ⟨button, rfl⟩ := button_of_call hset
    exact ⟨button, hvalue⟩

theorem handled_of_ok (h : handleEvent console request = .ok console') :
    Handled console request console' := by
  constructor
  · intro key button hpresses
    obtain ⟨other, hother, hline⟩ := handleEvent_presses hpresses console
    exact Except.ok.inj (h.symm.trans hother) ▸ hline
  · intro hnone
    exact Except.ok.inj (h.symm.trans (handleEvent_other (reads_of_ok h) hnone console))

theorem handleEvent_ok_iff (console : JoyPad) (request : Line) :
    (∃ console', handleEvent console request = .ok console') ↔ Reads request := by
  constructor
  · rintro ⟨console', h⟩
    exact reads_of_ok h
  · intro hreads
    by_cases hpresses : ∃ key button, Presses request key button
    · obtain ⟨key, button, hpresses⟩ := hpresses
      obtain ⟨console', h, -⟩ := handleEvent_presses hpresses console
      exact ⟨console', h⟩
    · refine ⟨console, handleEvent_other hreads (fun key button h => ?_) console⟩
      exact hpresses ⟨key, button, h⟩

end HandleEvent

/-! ## The page -/

/-- The button that a key stands for. -/
def keyButton : Key → JoyPadButton
  | .keyA => .a
  | .keyB => .b
  | .keyF => .select
  | .space => .start
  | .arrowRight => .right
  | .arrowLeft => .left
  | .arrowUp => .up
  | .arrowDown => .down

/-- The table of the page has the values of the enumeration. -/
theorem gameKeyMap_eq (key : Key) : (gameKeyMap key : Int) = (keyButton key).toInt := by
  cases key <;> rfl

theorem keyValue_path (event : EventType) (key : Key) :
    keyValue (Message.path ⟨event, gameKeyMap key⟩) =
      some (decimal event.toNat, decimal (gameKeyMap key)) := by
  cases event <;> cases key <;> decide +kernel

/-- What the page sends, the server reads. -/
theorem presses_path (event : EventType) (key : Key) :
    Presses (Message.path ⟨event, gameKeyMap key⟩) event.toNat (keyButton key) := by
  refine ⟨_, _, keyValue_path event key, stoi_decimal (by cases event <;> decide), ?_, ?_⟩
  · cases event
    · exact .inl rfl
    · exact .inr rfl
  · rw [stoi_decimal (by cases key <;> decide), gameKeyMap_eq]

end GbEmu.GameServer
