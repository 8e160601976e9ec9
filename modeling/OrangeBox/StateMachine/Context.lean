import OrangeBox.PassStore.Record
import OrangeBox.Timeout
/-!
# The data of the state machine

`state_machine.h`: the states, the events and the context. What the machine
calls outside itself (the credential store, the GPIO layer, the display, the
two callbacks and `rand`) is a `Devices` over some state of the rest of the box.
-/
open OrangeBox.PassStore

namespace OrangeBox.StateMachine

/-! ## Configuration -/

/-- `PASS_ERR_DELAY`, in seconds. -/
abbrev passErrDelay : UInt32 := 5
abbrev passErrMaxMultiply : UInt8 := 7
/-- `PASS_ENTRY_TIMEOUT * 1000`. -/
abbrev passEntryMillis : UInt32 := 30000
/-- `PRESENCE_CODE_VALIDITY * 1000`. -/
abbrev presenceCodeMillis : UInt32 := 30000
abbrev ambientTimeout : UInt32 := 5000
abbrev actionlineRefreshInterval : UInt32 := 1000
abbrev qrScannerScanTimeoutMs : UInt32 := 9000
abbrev doorOpeningTimeout : UInt32 := 1000
abbrev presenceCodeLength : Nat := 6
abbrev doorOpen : UInt8 := 1
abbrev uiDisableDoorControls : UInt8 := 1
abbrev uiEnableDoorControls : UInt8 := 2

/-! ## States and events -/

/-- `BoxState`; `opened` is `BoxState::Open`. -/
inductive BoxState where
  | home
  | password
  | presence
  | opening
  | opened
  | closed
  | external
  | badPass
  | scan
  deriving DecidableEq, Repr

/-- `BoxEventType` with the data `BoxEventData` carries for it. -/
inductive BoxEvent where
  | keyboardKey1
  | keyboardKey2
  | keyboardEnter (password : CText 33)
  | keyboardCancel
  | keyboardKey3
  | webOpenBox (doorNum : UInt8)
  | doorOpened (doorNum : UInt8)
  | doorClosed (doorNum : UInt8)
  | passwordTimeout
  | presenceTimeout
  | ambientTimeout
  | doorOpenTimeout
  | scanTimeout
  | scannerCodeReceived (cred : CText (packetScanMax + 1))
  | scannerFailed
  | scannerInvalidCode
  | tick
  | invalid
  deriving DecidableEq

/-- `BoxStateContext`. The presence code is its digits, empty when zeroed. -/
structure BoxStateContext where
  state : BoxState
  doorToOpen : UInt8
  credVerified : Bool
  scannedCredVerified : Bool
  retryScanAfterBadCode : Bool
  scanStartedAt : UInt32
  badPasswordCount : UInt8
  doorOpenStartedAt : UInt32
  passwordEntryStartedAt : UInt32
  badPasswordStartedAt : UInt32
  presenceCodeStartedAt : UInt32
  ambientOffStartedAt : UInt32
  displayRefreshStartedAt : UInt32
  currentPasswordEntryMillis : UInt32
  currentBadPasswordMillis : UInt32
  doorOpenDuration : UInt32
  badPasswordActive : Bool
  presenceCodeActive : Bool
  displayRefreshActive : Bool
  presenceCode : List UInt8
  deriving DecidableEq

/-- The context as constructed. -/
def BoxStateContext.zero : BoxStateContext :=
  { state := .home, doorToOpen := 0, credVerified := false, scannedCredVerified := false, retryScanAfterBadCode := false,
    scanStartedAt := 0, badPasswordCount := 0, doorOpenStartedAt := 0, passwordEntryStartedAt := 0,
    badPasswordStartedAt := 0, presenceCodeStartedAt := 0, ambientOffStartedAt := 0, displayRefreshStartedAt := 0,
    currentPasswordEntryMillis := 0, currentBadPasswordMillis := 0, doorOpenDuration := 0, badPasswordActive := false,
    presenceCodeActive := false, displayRefreshActive := false, presenceCode := [] }

/-! ## What the machine acts on -/

inductive InfoLine where
  | home
  | pass
  | cancel
  | empty
  deriving DecidableEq

inductive ActionLine where
  | home
  | badPass
  | scan
  | close
  | closeThx
  deriving DecidableEq

inductive ResponseLine where
  | home
  | opening
  | empty
  | badScan
  | badPass
  deriving DecidableEq

/-- A call of the display. -/
inductive Display where
  | writeInfoLine (line : InfoLine)
  | writeActionLine (line : ActionLine)
  | writeResponseLine (line : ResponseLine)
  | writeStatusLine
  | setOpenDoorList
  | setPasswordLength (length : UInt8)
  | setProgressBar (progress : UInt8)
  | setVerifyCode (code : List UInt8)
  deriving DecidableEq

/-- The objects the machine calls. An event that the state change callback
raises is processed after the transition, as the next event. -/
structure Devices (W : Type) where
  verifyCred : List UInt8 → CredType → W → UInt8 × W
  usedCred : UInt8 → W → Bool × W
  openDoor : UInt8 → W → UInt8 × W
  readDoorState : UInt8 → W → UInt8
  ambientOn : W → W
  ambientOff : W → W
  display : Display → W → W
  rand : W → Nat × W
  onUIUpdate : UInt8 → W → W
  onStateChange : BoxState → BoxState → UInt32 → W → W

/-- `BoxStateMachine` and the rest of the box. -/
structure Machine (W : Type) where
  context : BoxStateContext
  lastUIAction : UInt8
  scannerTestKeepCred : Bool
  world : W

namespace Machine
variable {W : Type}

/-- Change the context. -/
def set (f : BoxStateContext → BoxStateContext) (m : Machine W) : Machine W := { m with context := f m.context }

/-- Call a device that returns nothing. -/
def call (f : W → W) (m : Machine W) : Machine W := { m with world := f m.world }

variable (m : Machine W) (f : BoxStateContext → BoxStateContext) (g : W → W)

@[simp] theorem set_context : (m.set f).context = f m.context := rfl
@[simp] theorem set_world : (m.set f).world = m.world := rfl
@[simp] theorem set_lastUIAction : (m.set f).lastUIAction = m.lastUIAction := rfl
@[simp] theorem set_scannerTestKeepCred : (m.set f).scannerTestKeepCred = m.scannerTestKeepCred := rfl
@[simp] theorem call_context : (m.call g).context = m.context := rfl
@[simp] theorem call_world : (m.call g).world = g m.world := rfl
@[simp] theorem call_lastUIAction : (m.call g).lastUIAction = m.lastUIAction := rfl
@[simp] theorem call_scannerTestKeepCred : (m.call g).scannerTestKeepCred = m.scannerTestKeepCred := rfl

end Machine

end OrangeBox.StateMachine
