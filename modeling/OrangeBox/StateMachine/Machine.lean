import OrangeBox.StateMachine.Context
/-!
# The state machine

`state_machine.cpp`, one definition a function. A function that reads the clock
takes the reading as `currentMillis`. `onEnterOpening` reads it once more; that
later reading is `millis`. Log calls are left out.
-/
open OrangeBox.PassStore

namespace OrangeBox.StateMachine

variable {W : Type} (dev : Devices W)

/-! ## The display, the UI and the presence code -/

def write (d : Display) (m : Machine W) : Machine W := m.call (dev.display d)

/-- `enableExternal` and `disableExternal`. -/
def setExternal (action : UInt8) (m : Machine W) : Machine W :=
  if m.lastUIAction ≠ action then { m with lastUIAction := action, world := dev.onUIUpdate action m.world } else m

def enableExternal : Machine W → Machine W := setExternal dev uiEnableDoorControls

def disableExternal : Machine W → Machine W := setExternal dev uiDisableDoorControls

def isExternalEnabled (m : Machine W) : Bool := m.lastUIAction = uiEnableDoorControls

/-- The digits `'0' + rand() % 10`. -/
def presenceDigits : Nat → W → List UInt8 × W
  | 0, w => ([], w)
  | n + 1, w =>
    let (random, w) := dev.rand w
    let (digits, w) := presenceDigits n w
    ((48 + UInt8.ofNat (random % 10)) :: digits, w)

def generatePresenceCode (m : Machine W) : Machine W :=
  let (digits, w) := presenceDigits dev presenceCodeLength m.world
  { m with context := { m.context with presenceCode := digits }, world := w }

def isPresenceCodeValid (now : UInt32) (m : Machine W) : Bool :=
  m.context.presenceCodeActive && !timeoutElapsed m.context.presenceCodeStartedAt presenceCodeMillis now

def isDisplayRefreshDue (currentMillis : UInt32) (m : Machine W) : Bool :=
  m.context.displayRefreshActive && timeoutElapsed m.context.displayRefreshStartedAt actionlineRefreshInterval currentMillis

def scheduleNextDisplayRefresh (currentMillis : UInt32) : Machine W → Machine W :=
  .set ({ · with displayRefreshStartedAt := currentMillis, displayRefreshActive := true })

/-- The share of a timeout that is left, in percent. -/
def percentLeft (startedAt length currentMillis : UInt32) : UInt8 :=
  (timeoutRemaining startedAt length currentMillis * 100 / length).toUInt8

def refreshPeriodicDisplay (currentMillis : UInt32) (m : Machine W) : Bool × Machine W :=
  let m := write dev .writeStatusLine (write dev .setOpenDoorList m)
  match m.context.state with
  | .home => (true, write dev (.writeActionLine .home) m)
  | .password =>
    (true, if m.context.currentPasswordEntryMillis > 0 then
      write dev (.setProgressBar (percentLeft m.context.passwordEntryStartedAt m.context.currentPasswordEntryMillis
        currentMillis)) m
    else m)
  | .badPass =>
    let m := write dev (.writeActionLine .badPass) m
    (true, if m.context.currentBadPasswordMillis > 0 && !m.context.retryScanAfterBadCode then
      write dev (.setProgressBar (percentLeft m.context.badPasswordStartedAt m.context.currentBadPasswordMillis
        currentMillis)) m
    else m)
  | .scan =>
    -- Computed in 64 bits here.
    let remaining := timeoutRemaining m.context.scanStartedAt qrScannerScanTimeoutMs currentMillis
    (true, write dev (.setProgressBar (remaining.toUInt64 * 100 / qrScannerScanTimeoutMs.toUInt64).toUInt8) m)
  | .presence =>
    (true, write dev (.setProgressBar (percentLeft m.context.presenceCodeStartedAt presenceCodeMillis currentMillis)) m)
  | _ => (false, m)

/-! ## Entry and exit actions -/

def onEnterHome (m : Machine W) : Machine W :=
  let m := (m.call dev.ambientOff).set ({ · with credVerified := false })
  let m := (enableExternal dev m).set ({ · with scannedCredVerified := false })
  let m := write dev (.writeInfoLine .home) m
  let m := write dev (.writeActionLine .home) m
  let m := write dev (.writeResponseLine .home) m
  write dev .writeStatusLine m

def onEnterPassword (currentMillis : UInt32) (m : Machine W) : Machine W :=
  let m := (disableExternal dev m).set ({ · with retryScanAfterBadCode := false })
  let m := write dev (.setPasswordLength 0) (write dev (.writeInfoLine .pass) m)
  let m := m.set ({ · with
    badPasswordStartedAt := 0
    currentBadPasswordMillis := 0
    badPasswordActive := false
    currentPasswordEntryMillis := passEntryMillis
    passwordEntryStartedAt := currentMillis })
  write dev (.setProgressBar 100) m

def onExitPassword : Machine W → Machine W :=
  .set ({ · with passwordEntryStartedAt := 0, currentPasswordEntryMillis := 0 })

def onEnterScan (currentMillis : UInt32) (m : Machine W) : Machine W :=
  let m := (disableExternal dev m).set ({ · with
    scanStartedAt := currentMillis
    credVerified := false
    scannedCredVerified := false
    badPasswordActive := false
    currentBadPasswordMillis := 0 })
  let m := write dev (.writeInfoLine .cancel) m
  let m := write dev (.writeActionLine .scan) m
  write dev (.setProgressBar 100) m

def onExitScan : Machine W → Machine W := .set ({ · with scanStartedAt := 0 })

def onEnterPresence (currentMillis : UInt32) (m : Machine W) : Machine W :=
  let m := (generatePresenceCode dev m).set ({ · with presenceCodeStartedAt := currentMillis, presenceCodeActive := true })
  let m := write dev (.writeInfoLine .cancel) m
  let m := write dev (.setVerifyCode m.context.presenceCode) m
  write dev (.setProgressBar 100) m

/-- The attempt to activate the lock. -/
def activateLock (m : Machine W) : Bool × Machine W :=
  if m.context.doorToOpen ≠ doorUnknown then
    let (opened, w) := dev.openDoor m.context.doorToOpen m.world
    (opened = m.context.doorToOpen, { m with world := w })
  else (false, m)

def onEnterOpening (millis : UInt32) (m : Machine W) : Machine W :=
  let m := write dev (.writeResponseLine .opening) (disableExternal dev m)
  let (activated, m) := activateLock dev m
  if activated then
    (m.set ({ · with doorOpenStartedAt := millis, doorOpenDuration := doorOpeningTimeout })).call dev.ambientOn
  else m.set ({ · with doorOpenStartedAt := millis, doorOpenDuration := 0 })

def onExitOpening : Machine W → Machine W := .set ({ · with doorOpenStartedAt := 0 })

def onEnterOpen (m : Machine W) : Machine W :=
  let consumeCred := m.context.credVerified && !(m.scannerTestKeepCred && m.context.scannedCredVerified)
  let m := if consumeCred then m.call fun w => (dev.usedCred m.context.doorToOpen w).2 else m
  let m := m.set ({ · with credVerified := false, scannedCredVerified := false })
  let m := write dev (.writeActionLine .close) m
  let m := write dev (.writeInfoLine .empty) m
  let m := write dev (.writeResponseLine .empty) m
  write dev .writeStatusLine m

def onEnterClosed (currentMillis : UInt32) (m : Machine W) : Machine W :=
  let m := write dev (.writeActionLine .closeThx) m
  let m := write dev (.writeInfoLine .empty) m
  let m := write dev (.writeResponseLine .empty) m
  let m := write dev .writeStatusLine m
  m.set ({ · with ambientOffStartedAt := currentMillis, doorToOpen := doorUnknown })

def onExitClosed (m : Machine W) : Machine W := m.call dev.ambientOff

/-- The delay after a bad code, in milliseconds. -/
def badPasswordDelay (badPasswordCount : UInt8) : UInt32 :=
  if badPasswordCount > passErrMaxMultiply then passErrDelay * passErrMaxMultiply.toUInt32 * 1000
  else passErrDelay * badPasswordCount.toUInt32 * 1000

/-- No delay is running. -/
def badPasswordOver (currentMillis : UInt32) (c : BoxStateContext) : Bool :=
  !c.badPasswordActive || timeoutElapsed c.badPasswordStartedAt c.currentBadPasswordMillis currentMillis

def onEnterBadPass (currentMillis : UInt32) (m : Machine W) : Machine W :=
  let m := write dev (.writeResponseLine (if m.context.retryScanAfterBadCode then .badScan else .badPass)) m
  let m := if badPasswordOver currentMillis m.context then
      m.set fun c => { c with
        currentBadPasswordMillis := badPasswordDelay c.badPasswordCount
        badPasswordStartedAt := currentMillis
        badPasswordActive := true }
    else m
  write dev (.writeActionLine .badPass) m

/-! ## Transitions -/

/-- The exit action of a state; most have none. -/
def onExit (state : BoxState) (m : Machine W) : Machine W :=
  match state with
  | .password => onExitPassword m
  | .scan => onExitScan m
  | .opening => onExitOpening m
  | .closed => onExitClosed dev m
  | _ => m

/-- The entry action of a state. -/
def onEnter (state : BoxState) (currentMillis millis : UInt32) (m : Machine W) : Machine W :=
  match state with
  | .home => onEnterHome dev m
  | .password => onEnterPassword dev currentMillis m
  | .presence => onEnterPresence dev currentMillis m
  | .opening => onEnterOpening dev millis m
  | .opened => onEnterOpen dev m
  | .closed => onEnterClosed dev currentMillis m
  | .external => m
  | .badPass => onEnterBadPass dev currentMillis m
  | .scan => onEnterScan dev currentMillis m

def transitionTo (newState : BoxState) (currentMillis millis : UInt32) (m : Machine W) : Machine W :=
  if newState = m.context.state then m
  else
    let oldState := m.context.state
    let m := (onExit dev oldState m).set ({ · with state := newState })
    let m := scheduleNextDisplayRefresh currentMillis (onEnter dev newState currentMillis millis m)
    m.call (dev.onStateChange oldState newState currentMillis)

/-! ## Events -/

/-- Note a bad code; the count saturates. -/
def countBadPassword (c : BoxStateContext) : BoxStateContext :=
  { c with badPasswordCount := if c.badPasswordCount < 255 then c.badPasswordCount + 1 else c.badPasswordCount }

/-- The result of `verifyCred` for a text goes into `doorToOpen`. -/
def verify (value : List UInt8) (credType : CredType) (m : Machine W) : Machine W :=
  let (door, w) := dev.verifyCred value credType m.world
  { m with context := { m.context with doorToOpen := door }, world := w }

def handleKeyboardEvent (event : BoxEvent) (currentMillis millis : UInt32) (m : Machine W) : Machine W :=
  match m.context.state, event with
  | .home, .keyboardKey1 =>
    if !badPasswordOver currentMillis m.context then
      transitionTo dev .badPass currentMillis millis (m.set ({ · with retryScanAfterBadCode := false }))
    else transitionTo dev .password currentMillis millis m
  | .home, .keyboardKey2 => transitionTo dev .presence currentMillis millis m
  | .home, .keyboardKey3 =>
    if !badPasswordOver currentMillis m.context then
      transitionTo dev .badPass currentMillis millis (m.set ({ · with retryScanAfterBadCode := true }))
    else transitionTo dev .scan currentMillis millis m
  | .password, .keyboardEnter password =>
    let m := verify dev password.bytes .password m
    if m.context.doorToOpen ≠ doorUnknown then
      transitionTo dev .opening currentMillis millis (m.set ({ · with
        credVerified := true
        scannedCredVerified := false
        badPasswordCount := 0 }))
    else
      transitionTo dev .badPass currentMillis millis
        (m.set fun c => countBadPassword { c with retryScanAfterBadCode := false })
  | .password, .keyboardCancel | .badPass, .keyboardCancel | .presence, .keyboardCancel | .scan, .keyboardCancel =>
    transitionTo dev .home currentMillis millis m
  | _, _ => m

def handleScannerEvent (event : BoxEvent) (currentMillis millis : UInt32) (m : Machine W) : Machine W :=
  if m.context.state ≠ .scan then m
  else if timeoutElapsed m.context.scanStartedAt qrScannerScanTimeoutMs currentMillis || event = .scannerFailed then
    transitionTo dev .home currentMillis millis m
  else
    let m := match event with
      | .scannerCodeReceived cred => verify dev cred.bytes .packetNumber m
      | _ => m.set ({ · with doorToOpen := doorUnknown })
    if m.context.doorToOpen = doorUnknown then
      transitionTo dev .badPass currentMillis millis
        (m.set fun c => countBadPassword { c with retryScanAfterBadCode := true })
    else
      transitionTo dev .opening currentMillis millis (m.set ({ · with
        credVerified := true
        scannedCredVerified := true
        badPasswordCount := 0 }))

def handleWebEvent (doorNum : UInt8) (currentMillis millis : UInt32) (m : Machine W) : Machine W :=
  transitionTo dev .opening currentMillis millis (m.set ({ · with
    doorToOpen := doorNum
    credVerified := false
    scannedCredVerified := false }))

def handleSensorEvent (event : BoxEvent) (currentMillis millis : UInt32) (m : Machine W) : Machine W :=
  let m := write dev .setOpenDoorList m
  match m.context.state, event with
  | .opening, .doorOpened doorNum =>
    if doorNum = m.context.doorToOpen then transitionTo dev .opened currentMillis millis m else m
  | .opened, .doorClosed doorNum =>
    if doorNum = m.context.doorToOpen then transitionTo dev .closed currentMillis millis m else m
  | _, _ => m

/-- The state that a timer event ends. -/
def timedState : BoxEvent → Option BoxState
  | .passwordTimeout => some .password
  | .scanTimeout => some .scan
  | .presenceTimeout => some .presence
  | .ambientTimeout => some .closed
  | .doorOpenTimeout => some .opening
  | _ => none

def handleTimerEvent (event : BoxEvent) (currentMillis millis : UInt32) (m : Machine W) : Machine W :=
  if timedState event = some m.context.state then transitionTo dev .home currentMillis millis m else m

def processEvent (event : BoxEvent) (currentMillis millis : UInt32) (m : Machine W) : Machine W :=
  match event with
  | .keyboardKey1 | .keyboardKey2 | .keyboardKey3 | .keyboardEnter _ | .keyboardCancel =>
    handleKeyboardEvent dev event currentMillis millis m
  | .webOpenBox doorNum => handleWebEvent dev doorNum currentMillis millis m
  | .doorOpened _ | .doorClosed _ => handleSensorEvent dev event currentMillis millis m
  | .passwordTimeout | .presenceTimeout | .ambientTimeout | .doorOpenTimeout | .scanTimeout =>
    handleTimerEvent dev event currentMillis millis m
  | .scannerCodeReceived _ | .scannerFailed | .scannerInvalidCode => handleScannerEvent dev event currentMillis millis m
  | .tick | .invalid => m

/-! ## Time -/

/-- The delay after a bad code ends. -/
def endBadPassword (currentMillis : UInt32) (c : BoxStateContext) : BoxStateContext :=
  if c.badPasswordActive && timeoutElapsed c.badPasswordStartedAt c.currentBadPasswordMillis currentMillis then
    { c with badPasswordActive := false }
  else c

/-- The presence code expires. -/
def endPresenceCode (currentMillis : UInt32) (c : BoxStateContext) : BoxStateContext :=
  if c.presenceCodeActive && timeoutElapsed c.presenceCodeStartedAt presenceCodeMillis currentMillis then
    { c with presenceCodeActive := false }
  else c

/-- The first part of `update`, before it looks at the state. -/
def refresh (currentMillis : UInt32) (m : Machine W) : Machine W :=
  let m := (m.set (endBadPassword currentMillis)).set (endPresenceCode currentMillis)
  if isDisplayRefreshDue currentMillis m then
    let (again, m) := refreshPeriodicDisplay dev currentMillis m
    if again then scheduleNextDisplayRefresh currentMillis m else m.set ({ · with displayRefreshActive := false })
  else m

def update (currentMillis millis : UInt32) (m : Machine W) : Machine W :=
  let m := refresh dev currentMillis m
  match m.context.state with
  | .password =>
    if timeoutElapsed m.context.passwordEntryStartedAt m.context.currentPasswordEntryMillis currentMillis then
      transitionTo dev .home currentMillis millis m
    else m
  | .scan =>
    if timeoutElapsed m.context.scanStartedAt qrScannerScanTimeoutMs currentMillis then
      transitionTo dev .home currentMillis millis m
    else m
  | .badPass =>
    if timeoutElapsed m.context.badPasswordStartedAt m.context.currentBadPasswordMillis currentMillis then
      transitionTo dev (if m.context.retryScanAfterBadCode then .scan else .password) currentMillis millis m
    else m
  | .presence =>
    if timeoutElapsed m.context.presenceCodeStartedAt presenceCodeMillis currentMillis then
      transitionTo dev .home currentMillis millis m
    else m
  | .opening =>
    if dev.readDoorState m.context.doorToOpen m.world = doorOpen then transitionTo dev .opened currentMillis millis m
    else if timeoutElapsed m.context.doorOpenStartedAt m.context.doorOpenDuration currentMillis then
      transitionTo dev .home currentMillis millis m
    else m
  | .closed =>
    if timeoutElapsed m.context.ambientOffStartedAt ambientTimeout currentMillis then
      transitionTo dev .home currentMillis millis m
    else m
  | _ => m

/-- `initialize`. It keeps `doorOpenDuration` as it was. -/
def initializeMachine (currentMillis : UInt32) (m : Machine W) : Machine W :=
  let m := { m with lastUIAction := 0 }.set fun c => { BoxStateContext.zero with doorOpenDuration := c.doorOpenDuration }
  scheduleNextDisplayRefresh currentMillis (onEnterHome dev m)

end OrangeBox.StateMachine
