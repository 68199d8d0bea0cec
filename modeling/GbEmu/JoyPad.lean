import GbEmu.Bus

/-!
The joypad of `joypad.cpp`. Its register is a cell of the IO region; the two shadow
bytes are written by another thread.
-/

namespace GbEmu

/-- `m_shadow`: a cleared bit is a pressed button. -/
structure JoyPad where
  directions : UInt8
  buttons : UInt8
  deriving DecidableEq, Repr

namespace JoyPad

def buttonsIdle : UInt8 := 0x0F

def shadowDirs : UInt8 := 0x10
def shadowButtons : UInt8 := 0x20

/-- The local `state` of `cycle`. -/
def state (j : JoyPad) (register : UInt8) : UInt8 :=
  if register &&& shadowDirs = 0 then j.directions
  else if register &&& shadowButtons = 0 then j.buttons
  else buttonsIdle

/-- `SHADOW_MAP.at(BUTTON_MAP.at(button))`. -/
def index (button : Int) : Except Fault Nat :=
  if button ∈ [(0x10 : Int), 0x20, 0x40, 0x80] then .ok 1
  else if button ∈ [(0x01 : Int), 0x02, 0x04, 0x08] then .ok 0
  else .error .outOfRange

def clr (j : JoyPad) (button : Int) : Except Fault JoyPad :=
  (index button).map fun index =>
    let bit := UInt8.ofInt button >>> (4 * UInt8.ofNat index)
    if index = 0 then { j with directions := j.directions ||| bit }
    else { j with buttons := j.buttons ||| bit }

def set (j : JoyPad) (button : Int) : Except Fault JoyPad :=
  (index button).map fun index =>
    let bit := UInt8.ofInt button >>> (4 * UInt8.ofNat index)
    if index = 0 then { j with directions := j.directions &&& ~~~bit }
    else { j with buttons := j.buttons &&& ~~~bit }

def cycle (j : JoyPad) (s : Bus) : Bus :=
  let register := s.io joypadInputAddress
  s.setIo joypadInputAddress ((register &&& 0xF0) ||| j.state register)

end JoyPad

end GbEmu
