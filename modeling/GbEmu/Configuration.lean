import Mathlib.Algebra.Group.Int.Defs
import Mathlib.Logic.Function.Basic
import GbEmu.Cartridge
import GbEmu.Lib.Run
import GbEmu.Util

/-!
The settings of `configuration.cpp`. The map always holds the eight keys, so it is a
function of the key here; listeners and the files themselves are left to the callers.
-/

namespace GbEmu

open Text Util

inductive ConfigKey
  | rom
  | linkMaster
  | speed
  | emuMode
  | linkPort
  | linkType
  | linkAddr
  | linkEnable
  deriving DecidableEq, Repr

namespace ConfigKey

def toByte : ConfigKey → UInt8
  | rom => 0
  | linkMaster => 1
  | speed => 2
  | emuMode => 3
  | linkPort => 4
  | linkType => 5
  | linkAddr => 6
  | linkEnable => 7

/-- `KEYS`. -/
def keys : List ConfigKey :=
  [rom, linkMaster, speed, emuMode, linkPort, linkType, linkAddr, linkEnable]

/-- `Configuration::toString`. -/
def toString : ConfigKey → List UInt8
  | rom => ascii "ConfigKey::ROM"
  | linkMaster => ascii "ConfigKey::LINK_MASTER"
  | speed => ascii "ConfigKey::SPEED"
  | emuMode => ascii "ConfigKey::EMU_MODE"
  | linkPort => ascii "ConfigKey::LINK_PORT"
  | linkType => ascii "ConfigKey::LINK_TYPE"
  | linkAddr => ascii "ConfigKey::LINK_ADDR"
  | linkEnable => ascii "ConfigKey::LINK_ENABLE"

/-- `m_settings.find`. -/
def find (b : UInt8) : Option ConfigKey := keys.find? fun k => k.toByte == b

end ConfigKey

inductive EmuMode
  | auto
  | cgb
  | dmg
  deriving DecidableEq, Repr

inductive EmuSpeed
  | normal
  | twice
  | free
  deriving DecidableEq, Repr

inductive LinkType
  | socket
  | pipe
  deriving DecidableEq, Repr

def EmuMode.toByte : EmuMode → UInt8
  | auto => 0
  | cgb => 1
  | dmg => 2

def EmuSpeed.toByte : EmuSpeed → UInt8
  | normal => 0
  | twice => 1
  | free => 2

def LinkType.toByte : LinkType → UInt8
  | socket => 0
  | pipe => 1

/-! ## Numbers of the standard library -/

/-- `std::stoi`. -/
def stoi (str : List UInt8) : Except Fault Int :=
  match readSigned (str.dropWhile isSpace) with
  | none => .error .thrown
  | some v => if -2 ^ 31 ≤ v ∧ v < 2 ^ 31 then .ok v else .error .thrown

/-- `istringstream(value) >> i`. Without anything to read `i` stays what it was, which
is indeterminate; a number out of range becomes the nearest one that is in range. -/
def readInt (junk : Int32) (value : List UInt8) : Int32 :=
  match value.dropWhile isSpace with
  | [] => junk
  | c :: s =>
    match readSigned (c :: s) with
    | none => 0
    | some v => Int32.ofInt (max (-2 ^ 31) (min v (2 ^ 31 - 1)))

/-- `std::to_string`. -/
def intText (value : Int32) : List UInt8 := signedDecimal value.toInt

def boolText (value : Bool) : List UInt8 := decimal value.toNat

theorem stoi_decimal {n : Nat} (h : n < 2 ^ 31) : stoi (decimal n) = .ok n := by
  have hsigned : decimal n = signedDecimal n :=
    (if_neg (Int.not_lt.mpr (Int.natCast_nonneg n))).symm
  unfold stoi
  rw [hsigned, dropWhile_signedDecimal, readSigned_signedDecimal]
  exact if_pos ⟨by omega, by omega⟩

/-! ## Settings -/

/-- A `SettingValue`: `m_value`, and the value that `IntValue` and `BoolValue` keep. -/
inductive Setting
  | int (value : List UInt8) (iValue : Int32)
  | string (value : List UInt8)
  | bool (value : List UInt8) (bValue : Bool)
  deriving DecidableEq, Repr

def colon : UInt8 := 0x3A
def newline : UInt8 := 0x0A
def hash : UInt8 := 0x23

namespace Setting

def typeInt : List UInt8 := ascii "int"
def typeString : List UInt8 := ascii "string"
def typeBool : List UInt8 := ascii "bool"

def type : Setting → List UInt8
  | int _ _ => typeInt
  | string _ => typeString
  | bool _ _ => typeBool

def toString : Setting → List UInt8
  | int value _ => value
  | string value => value
  | bool value _ => value

def toInt : Setting → Int32
  | int _ iValue => iValue
  | string _ => 0
  | bool _ bValue => if bValue then 1 else 0

/-- An `IntValue` is true when it is zero. -/
def toBool : Setting → Bool
  | int _ iValue => iValue == 0
  | string _ => false
  | bool _ bValue => bValue

/-- `SettingValue::set`, with its overrides. -/
def setString (value : List UInt8) : Setting → Setting
  | int _ iValue => int value iValue
  | string _ => string value
  | bool _ bValue => bool value bValue

def setInt (value : Int32) : Setting → Setting
  | int _ _ => int (intText value) value
  | string _ => string (intText value)
  | bool _ bValue => bool (intText value) bValue

def setBool (value : Bool) : Setting → Setting
  | int _ iValue => int (boolText value) iValue
  | string _ => string (boolText value)
  | bool _ _ => bool (boolText value) value

def ofInt (value : Int32) : Setting := int (intText value) value

/-- `IntValue` of an enumerator. -/
def ofByte (value : UInt8) : Setting := ofInt (Int32.ofNat value.toNat)

def ofBool (value : Bool) : Setting := bool (boolText value) value

/-- The setting that a line with this type and value stands for. -/
def read (junk : Int32) (type value : List UInt8) : Option Setting :=
  if type = typeString then some (string value)
  else if type = typeInt then some (int value (readInt junk value))
  else if type = typeBool then some (bool value (value == ascii "1"))
  else none

def output (setting : Setting) (key : ConfigKey) : List UInt8 :=
  decimal key.toByte.toNat ++ [colon] ++ setting.type ++ [colon] ++ setting.toString

end Setting

/-! ## The configuration -/

abbrev Configuration := ConfigKey → Setting

namespace Configuration

/-- `DEFAULT_CONFIG`. -/
def default : Configuration
  | .rom => .string []
  | .linkMaster => .ofBool true
  | .speed => .ofByte EmuSpeed.free.toByte
  | .emuMode => .ofByte EmuMode.auto.toByte
  | .linkPort => .ofInt 8008
  | .linkType => .ofByte LinkType.socket.toByte
  | .linkAddr => .string (ascii "127.0.0.1")
  | .linkEnable => .ofBool false

/-- `std::getline`, until it fails: a last line without a line break counts if it is not
empty. -/
def lines (content : List UInt8) : List (List UInt8) :=
  let pieces := content.splitOn newline
  if pieces.getLast? = some [] then pieces.dropLast else pieces

/-- The local `value` of `parse`. -/
def valueField (tokens : List (List UInt8)) : List UInt8 := join (tokens.drop 2) colon

/-- The end of a pass of the loop of `parse`, from the look-up of the key on. -/
def assign (junk : Int32) (settings : Configuration) (tokens : List (List UInt8)) (key : Int) :
    Configuration :=
  match ConfigKey.find (UInt8.ofInt key) with
  | none => settings
  | some k =>
    match Setting.read junk (tokens.getD 1 []) (valueField tokens) with
    | none => settings
    | some setting => Function.update settings k setting

/-- A pass of the loop of `parse`. -/
def parseLine (junk : Int32) (settings : Configuration) (line : List UInt8) :
    Except Fault Configuration :=
  if line.isEmpty || line.head? == some hash then .ok settings
  else
    let tokens := split line colon
    if tokens.length < 3 then .ok settings
    else (stoi (tokens.getD 0 [])).map (assign junk settings tokens)

/-- `parse`, of a file that can be opened. -/
def parse (junk : Int32) (settings : Configuration) (content : List UInt8) :
    Except Fault Configuration :=
  Run.run (parseLine junk) settings (lines content)

def str (settings : Configuration) : List UInt8 :=
  ConfigKey.keys.flatMap fun key =>
    ascii "# " ++ key.toString ++ [newline] ++ ((settings key).output key ++ [newline])

/-- A call of `updateString`, `updateInt` or `updateBool`. -/
inductive Update
  | string (key : ConfigKey) (value : List UInt8)
  | int (key : ConfigKey) (value : Int32)
  | bool (key : ConfigKey) (value : Bool)
  deriving DecidableEq, Repr

def Update.key : Update → ConfigKey
  | string key _ => key
  | int key _ => key
  | bool key _ => key

def Update.type : Update → List UInt8
  | string _ _ => Setting.typeString
  | int _ _ => Setting.typeInt
  | bool _ _ => Setting.typeBool

def Update.set : Update → Setting → Setting
  | string _ value => Setting.setString value
  | int _ value => Setting.setInt value
  | bool _ value => Setting.setBool value

/-- `update`, and what it returns; less the save and the broadcast. -/
def update (settings : Configuration) (u : Update) : Configuration × Bool :=
  let setting := settings u.key
  if u.type ≠ setting.type then (settings, false)
  else (Function.update settings u.key (u.set setting), true)

section Update

variable {settings : Configuration} {u : Update}

/-- Types are the same only for an update of the setting's own kind. -/
theorem type_cases {setting : Setting} (h : u.type = setting.type) :
    (∃ key value old, u = .string key value ∧ setting = .string old) ∨
      (∃ key value old v, u = .int key value ∧ setting = .int old v) ∨
      ∃ key value old v, u = .bool key value ∧ setting = .bool old v := by
  cases u with
  | string key value =>
    cases setting with
    | string old => exact .inl ⟨key, value, old, rfl, rfl⟩
    | int => exact absurd h (show Setting.typeString ≠ Setting.typeInt by decide)
    | bool => exact absurd h (show Setting.typeString ≠ Setting.typeBool by decide)
  | int key value =>
    cases setting with
    | int old v => exact .inr (.inl ⟨key, value, old, v, rfl, rfl⟩)
    | string => exact absurd h (show Setting.typeInt ≠ Setting.typeString by decide)
    | bool => exact absurd h (show Setting.typeInt ≠ Setting.typeBool by decide)
  | bool key value =>
    cases setting with
    | bool old v => exact .inr (.inr ⟨key, value, old, v, rfl, rfl⟩)
    | string => exact absurd h (show Setting.typeBool ≠ Setting.typeString by decide)
    | int => exact absurd h (show Setting.typeBool ≠ Setting.typeInt by decide)

theorem type_set (u : Update) (setting : Setting) : (u.set setting).type = setting.type := by
  cases u <;> cases setting <;> rfl

theorem update_refused (h : u.type ≠ (settings u.key).type) :
    settings.update u = (settings, false) :=
  if_pos h

theorem update_taken (h : u.type = (settings u.key).type) :
    settings.update u = (Function.update settings u.key (u.set (settings u.key)), true) :=
  if_neg (not_not.mpr h)

theorem update_key (h : u.type = (settings u.key).type) :
    (settings.update u).1 u.key = u.set (settings u.key) := by
  rw [update_taken h]
  exact Function.update_self _ _ _

theorem update_other {k : ConfigKey} (hk : u.key ≠ k) : (settings.update u).1 k = settings k := by
  by_cases h : u.type = (settings u.key).type
  · rw [update_taken h]
    exact Function.update_of_ne hk.symm _ _
  · rw [update_refused h]

/-- An update keeps the type of every setting. -/
theorem type_update (settings : Configuration) (u : Update) (k : ConfigKey) :
    ((settings.update u).1 k).type = (settings k).type := by
  by_cases hk : u.key = k
  · subst hk
    by_cases h : u.type = (settings u.key).type
    · rw [update_key h, type_set]
    · rw [update_refused h]
  · rw [update_other hk]

end Update

def getString (settings : Configuration) (key : ConfigKey) : List UInt8 := (settings key).toString
def getInt (settings : Configuration) (key : ConfigKey) : Int32 := (settings key).toInt
def getBool (settings : Configuration) (key : ConfigKey) : Bool := (settings key).toBool

/-- `getEnum`, of an enumeration whose underlying type is `uint8_t`. -/
def getEnum (settings : Configuration) (key : ConfigKey) : UInt8 :=
  UInt8.ofInt (settings.getInt key).toInt

end Configuration

end GbEmu
