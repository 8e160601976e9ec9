import OrangeBox.Hal.Timer
import OrangeBox.PassStore.Record
/-!
# Locks, contacts and the light

`gpio_hal.h` and `gpio_hal.cpp`. The three arrays over the doors are one list
of entries. The level of a pin is the one last written to it.
-/
open Clock

namespace OrangeBox.Hal

open PassStore (doorUnknown)

/-! ## Doors -/

abbrev doorCount : Nat := 20
/-- `DOOR_DELAY`, the length of the pulse that opens a door. -/
abbrev doorDelay : UInt32 := 500
abbrev doorContactDebounceMs : UInt32 := 100
abbrev doorOpen : UInt8 := 1
abbrev doorClosed : UInt8 := 2
abbrev doorMixed : UInt8 := 3
abbrev invalidPin : UInt8 := 255

structure DoorMapping where
  logDoorNum : UInt8
  gpioPin : UInt8
  statePin : UInt8
  extenderNum : UInt8
  lastState : Bool
  deriving DecidableEq

/-- A physical door: its mapping, with `sampledDoorState` and `doorSampleStartedAt`. -/
structure Door extends DoorMapping where
  sampledDoorState : Bool
  doorSampleStartedAt : UInt32
  deriving DecidableEq

/-- The door belongs to the logical door and has a lock. -/
def DoorMapping.locks (doorNum : UInt8) (x : DoorMapping) : Bool := x.logDoorNum = doorNum && x.gpioPin ≠ invalidPin

/-- The door belongs to the logical door and has a contact. -/
def DoorMapping.senses (doorNum : UInt8) (x : DoorMapping) : Bool := x.logDoorNum = doorNum && x.statePin ≠ invalidPin

/-- The state its contact shows. -/
def DoorMapping.contactState (x : DoorMapping) : UInt8 := if x.lastState then doorOpen else doorClosed

/-- `GpioHAL`, and the levels of the pins. -/
structure GpioHAL where
  doors : List Door
  ambientPin : UInt8
  pins : UInt8 → Bool

def digitalWrite (pin : UInt8) (level : Bool) (pins : UInt8 → Bool) : UInt8 → Bool := Function.update pins pin level

namespace GpioHAL

/-! ## Setting up -/

/-- A mapping as `initializeGpioHAL` takes it over, with the first sample of its contact. -/
def firstSample (millis : UInt32) (sample : Bool) (x : DoorMapping) : Door :=
  let lastState := x.statePin ≠ invalidPin && sample
  { x with lastState := lastState, sampledDoorState := lastState, doorSampleStartedAt := millis }

/-- The pins of the locks go low. -/
def releaseAll (mappings : List DoorMapping) (pins : UInt8 → Bool) : UInt8 → Bool :=
  mappings.foldl (fun pins x => if x.gpioPin ≠ invalidPin then digitalWrite x.gpioPin false pins else pins) pins

/-- `initializeGpioHAL`. The contact of the door `i` reads `samples i`. -/
def initializeGpioHAL (mappings : List DoorMapping) (ambientPin : UInt8) (samples : Nat → Bool) (millis : UInt32)
    (pins : UInt8 → Bool) : GpioHAL :=
  let mappings := mappings.take doorCount
  let pins := releaseAll mappings pins
  let doors := mappings.mapIdx fun i x => firstSample millis (samples i) x
  let pins := if ambientPin ≠ invalidPin then digitalWrite ambientPin false pins else pins
  { doors := doors, ambientPin := ambientPin, pins := pins }

/-! ## Locks -/

/-- Write to the lock pins of a logical door. -/
def drive (doorNum : UInt8) (level : Bool) (doors : List Door) (pins : UInt8 → Bool) : UInt8 → Bool :=
  doors.foldl (fun pins x => if x.locks doorNum then digitalWrite x.gpioPin level pins else pins) pins

/-- The loop of `openDoor` and of `lockDeactivate`, and whether it wrote to a pin. -/
def writeLocks (doorNum : UInt8) (level : Bool) (g : GpioHAL) : Bool × GpioHAL :=
  (g.doors.any (·.locks doorNum), { g with pins := drive doorNum level g.doors g.pins })

/-- `openDoor`. Whether a timer was found for the end of the pulse is not looked at. -/
def openDoor (doorNum : UInt8) (millis : UInt32) (g : GpioHAL) (tm : TimerManager) : UInt8 × GpioHAL × TimerManager :=
  let (lockActivated, g) := g.writeLocks doorNum true
  if lockActivated then (doorNum, g, (tm.scheduleOnce doorDelay lockDeactivateAction (doorText doorNum) millis).2)
  else (doorUnknown, g, tm)

def lockDeactivate (doorNum : UInt8) (g : GpioHAL) : UInt8 × GpioHAL :=
  let (lockDeactivated, g) := g.writeLocks doorNum false
  (if lockDeactivated then doorNum else doorUnknown, g)

/-! ## The light -/

/-- `ambientOn` and `ambientOff`. -/
def setAmbient (level : Bool) (g : GpioHAL) : GpioHAL :=
  if g.ambientPin = invalidPin then g else { g with pins := digitalWrite g.ambientPin level g.pins }

def ambientOn : GpioHAL → GpioHAL := setAmbient true

def ambientOff : GpioHAL → GpioHAL := setAmbient false

/-! ## Contacts -/

/-- The loop of `readDoorState`. -/
def readDoors (doorNum : UInt8) : List Door → UInt8 → UInt8
  | [], doorState => doorState
  | x :: doors, doorState =>
    if x.senses doorNum then
      if doorState = doorUnknown then readDoors doorNum doors x.contactState
      else if doorState ≠ x.contactState then doorMixed
      else readDoors doorNum doors doorState
    else readDoors doorNum doors doorState

def readDoorState (doorNum : UInt8) (g : GpioHAL) : UInt8 := readDoors doorNum g.doors doorUnknown

end GpioHAL

/-- A sample restarts the delay when it differs from the one before. -/
def Door.noteSample (now : UInt32) (sample : Bool) (x : Door) : Door :=
  if sample ≠ x.sampledDoorState then { x with sampledDoorState := sample, doorSampleStartedAt := now } else x

/-- The sample is taken over as the state of the door. -/
def Door.changes (now : UInt32) (sample : Bool) (x : Door) : Bool :=
  x.statePin ≠ invalidPin && sample ≠ x.lastState &&
    timeoutElapsed (x.noteSample now sample).doorSampleStartedAt doorContactDebounceMs now

/-- One round of the loop of `updateDoorStates`. -/
def Door.poll (now : UInt32) (sample : Bool) (x : Door) : Door :=
  if x.statePin = invalidPin then x
  else if x.changes now sample then { x.noteSample now sample with lastState := sample }
  else x.noteSample now sample

namespace GpioHAL

/-- Some contact of the logical door changes. -/
def doorChanges (now : UInt32) (samples : Nat → Bool) (g : GpioHAL) (doorNum : UInt8) : Bool :=
  g.doors.zipIdx.any fun (x, i) => x.logDoorNum = doorNum && x.changes now (samples i)

/-- `updateDoorStates`, and the doors that `onChange` is called for, in order.
The contact of the door `i` reads `samples i`. -/
def updateDoorStates (now : UInt32) (samples : Nat → Bool) (g : GpioHAL) : List UInt8 × GpioHAL :=
  (((List.range doorUnknown.toNat).map UInt8.ofNat).filter (g.doorChanges now samples),
    { g with doors := List.mapIdx (fun i x => x.poll now (samples i)) g.doors })

end GpioHAL

end OrangeBox.Hal
