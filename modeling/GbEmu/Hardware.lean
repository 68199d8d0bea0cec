import GbEmu.Configuration

/-!
What the settings decide in `gameboy.cpp`: the speed of the clock and the link. The
handler of a change runs between `pause` and `resume`.
-/

namespace GbEmu

/-- A `SocketLink`, by the settings that its constructor reads. -/
structure SocketLink where
  master : Bool
  port : Int32
  deriving DecidableEq, Repr

def SocketLink.new (settings : Configuration) : SocketLink :=
  { master := settings.getBool .linkMaster, port := settings.getInt .linkPort }

/-- The members of a `GameBoy` that the settings decide. -/
structure Hardware where
  /-- `m_clock.m_speed`. -/
  speed : UInt32
  link : Option SocketLink
  deriving DecidableEq, Repr

namespace Hardware

def refreshMs : Nat := 20
def ticksNormal : UInt32 := UInt32.ofNat (4000000 / (1000 / refreshMs))
def ticksDouble : UInt32 := ticksNormal * 2
def ticksFree : UInt32 := 0

variable (settings : Configuration) (g : Hardware)

def readSpeed : Except Fault Hardware :=
  let speed := settings.getEnum .speed
  if speed = EmuSpeed.normal.toByte then .ok { g with speed := ticksNormal }
  else if speed = EmuSpeed.twice.toByte then .ok { g with speed := ticksDouble }
  else if speed = EmuSpeed.free.toByte then .ok { g with speed := ticksFree }
  else .error .assertFailed

def initLink : Except Fault Hardware :=
  if settings.getBool .linkEnable then
    let link := settings.getEnum .linkType
    if link = LinkType.socket.toByte then .ok { g with link := some (SocketLink.new settings) }
    else if link = LinkType.pipe.toByte then .ok { g with link := none }
    else .error .assertFailed
  else .ok g

/-- The constructor. `readSpeed` sets the speed, which has no value before. -/
def new : Except Fault Hardware := do
  let g ← initLink settings { speed := ticksFree, link := none }
  readSpeed settings g

/-- The end of `onConfigChange` for the settings of the link. -/
def restartLink (key : ConfigKey) : Except Fault Hardware :=
  let g := { g with link := none }
  if settings.getBool key then g.initLink settings else .ok g

def onConfigChange (key : ConfigKey) : Except Fault Hardware :=
  match key with
  | .speed => g.readSpeed settings
  | .linkPort | .linkAddr =>
    if settings.getEnum .linkType ≠ LinkType.socket.toByte then .ok g
    else g.restartLink settings key
  | .linkMaster | .linkType | .linkEnable => g.restartLink settings key
  | _ => .ok g

/-- A call of an update function with the `GameBoy` as listener. -/
def configure (s : Configuration × Hardware) (u : Configuration.Update) :
    Except Fault (Configuration × Hardware) :=
  let (settings, taken) := s.1.update u
  if taken then (s.2.onConfigChange settings u.key).map fun g => (settings, g)
  else .ok (settings, s.2)

end Hardware

end GbEmu
