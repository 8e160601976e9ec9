import OrangeBox.Timeout
/-!
# The code scanner

`qr_scanner.cpp`. The UART and the switch pin are part of the scanner: `input`
is what can be read now, `output` what has been written. Bytes arrive between
the calls. A frame event carries its bytes; the others carry none.
-/

namespace OrangeBox.Scanner

abbrev qrScannerPinUnused : UInt8 := 255
abbrev qrScannerMaxFrameLen : Nat := 1024

inductive QrScannerActivationMode where
  | manual
  | command
  | switchPin
  | commandAndSwitch
  deriving DecidableEq, Repr

inductive QrScannerState where
  | idle
  | waitingActivationResponse
  | waitingCode
  | waitingCommandResponse
  deriving DecidableEq, Repr

inductive QrScannerEventType where
  | none
  | activated
  | activationResponse
  | commandResponse
  | codeReceived
  | scanTimeout
  | commandResponseTimeout
  | deactivated
  | rxOverflow
  | unexpectedFrame
  deriving DecidableEq, Repr

/-- `frameTerminators` is empty when it is the null pointer. -/
structure QrScannerConfig where
  activationMode : QrScannerActivationMode
  activateCommand : List UInt8
  deactivateCommand : List UInt8
  switchPin : UInt8
  switchActiveHigh : Bool
  frameTerminators : List UInt8
  activationResponseWindowMs : UInt32
  frameIdleMs : UInt32
  defaultScanTimeoutMs : UInt32
  trimFrames : Bool
  deriving DecidableEq, Repr

/-- The terminators are CR and LF. -/
def QrScannerConfig.default : QrScannerConfig :=
  { activationMode := .command, activateCommand := [], deactivateCommand := [], switchPin := qrScannerPinUnused,
    switchActiveHigh := true, frameTerminators := [13, 10], activationResponseWindowMs := 300, frameIdleMs := 40,
    defaultScanTimeoutMs := 10000, trimFrames := true }

structure QrScannerEvent where
  type : QrScannerEventType
  data : List UInt8
  deriving DecidableEq, Repr

structure QrScanner where
  config : QrScannerConfig
  attached : Bool
  input : List UInt8
  output : List UInt8
  switchHigh : Bool
  currentState : QrScannerState
  scanActive : Bool
  rxFrame : List UInt8
  lastByteMillis : UInt32
  lastFrame : List UInt8
  pendingEvent : QrScannerEventType
  responseStartedAt : UInt32
  responseTimeoutMs : UInt32
  scanStartedAt : UInt32
  scanTimeoutMs : UInt32
  deriving DecidableEq, Repr

namespace QrScanner

def constructed : QrScanner :=
  { config := .default, attached := false, input := [], output := [], switchHigh := false, currentState := .idle,
    scanActive := false, rxFrame := [], lastByteMillis := 0, lastFrame := [], pendingEvent := .none,
    responseStartedAt := 0, responseTimeoutMs := 0, scanStartedAt := 0, scanTimeoutMs := 0 }

/-! ## The hardware -/

def setSwitchActive (active : Bool) (s : QrScanner) : QrScanner :=
  if s.config.switchPin = qrScannerPinUnused then s
  else { s with switchHigh := if active then s.config.switchActiveHigh else !s.config.switchActiveHigh }

def writeCommand (bytes : List UInt8) (s : QrScanner) : QrScanner :=
  if s.attached then { s with output := s.output ++ bytes } else s

/-- The mode has a switch, or a command. -/
def usesSwitch (mode : QrScannerActivationMode) : Bool := mode = .switchPin || mode = .commandAndSwitch

def usesCommand (mode : QrScannerActivationMode) : Bool := mode = .command || mode = .commandAndSwitch

/-- Without an override command, as `BoxScanner` calls it. -/
def activateHardware (s : QrScanner) : QrScanner :=
  let s := if usesSwitch s.config.activationMode then setSwitchActive true s else s
  if usesCommand s.config.activationMode then writeCommand s.config.activateCommand s else s

def deactivateHardware (s : QrScanner) : QrScanner :=
  let s := writeCommand s.config.deactivateCommand s
  if usesSwitch s.config.activationMode then setSwitchActive false s else s

/-! ## Scans -/

def resetReceiver (s : QrScanner) : QrScanner := { s with rxFrame := [], lastByteMillis := 0, lastFrame := [] }

def begin (config : QrScannerConfig) (s : QrScanner) : QrScanner :=
  let s := resetReceiver { s with
    config := config
    attached := true
    currentState := .idle
    scanActive := false
    responseStartedAt := 0
    scanTimeoutMs := 0
    pendingEvent := .none }
  setSwitchActive false s

def deactivateAfterTerminalEvent (s : QrScanner) : QrScanner :=
  { deactivateHardware s with currentState := .idle, scanActive := false, scanTimeoutMs := 0, responseStartedAt := 0 }

def startScan (timeoutMs now : UInt32) (s : QrScanner) : Bool × QrScanner :=
  if s.attached = false then (false, s)
  else
    let timeoutMs := if timeoutMs = 0 then s.config.defaultScanTimeoutMs else timeoutMs
    let s := if s.scanActive then deactivateAfterTerminalEvent s else s
    let s := activateHardware (resetReceiver s)
    (true, { s with
      scanActive := true
      scanStartedAt := now
      scanTimeoutMs := timeoutMs
      responseStartedAt := now
      responseTimeoutMs := s.config.activationResponseWindowMs
      currentState := if s.config.activationResponseWindowMs = 0 then .waitingCode else .waitingActivationResponse
      pendingEvent := .activated })

def deactivate (s : QrScanner) : QrScanner :=
  { deactivateHardware s with
    currentState := .idle
    scanActive := false
    scanTimeoutMs := 0
    responseStartedAt := 0
    pendingEvent := .deactivated }

/-! ## Receiving -/

def makeEvent (type : QrScannerEventType) : QrScannerEvent := ⟨type, []⟩

def makeFrameEvent (type : QrScannerEventType) (data : List UInt8) (s : QrScanner) : QrScannerEvent × QrScanner :=
  (⟨type, data.take qrScannerMaxFrameLen⟩, { s with lastFrame := data.take qrScannerMaxFrameLen })

def isTerminator (value : UInt8) (s : QrScanner) : Bool := s.config.frameTerminators.contains value

def isBlank (value : UInt8) : Bool := value = 32 || value = 9

def trimFrame (data : List UInt8) (s : QrScanner) : List UInt8 :=
  if s.config.trimFrames then (data.dropWhile isBlank).rdropWhile isBlank else data

def finalizeFrame (s : QrScanner) : QrScannerEvent × QrScanner :=
  let data := trimFrame s.rxFrame s
  let s := { s with rxFrame := [] }
  if data.length = 0 then (makeEvent .none, s)
  else match s.currentState with
    | .waitingActivationResponse => makeFrameEvent .activationResponse data s
    | .waitingCommandResponse => makeFrameEvent .commandResponse data s
    | .waitingCode =>
      let (event, s) := makeFrameEvent .codeReceived data s
      (event, deactivateAfterTerminalEvent s)
    | .idle => makeFrameEvent .unexpectedFrame data s

def processByte (value : UInt8) (now : UInt32) (s : QrScanner) : QrScannerEvent × QrScanner :=
  let s := { s with lastByteMillis := now }
  if isTerminator value s then
    if s.rxFrame.length = 0 then (makeEvent .none, s) else finalizeFrame s
  else if qrScannerMaxFrameLen ≤ s.rxFrame.length then (makeEvent .rxOverflow, { s with rxFrame := [] })
  else (makeEvent .none, { s with rxFrame := s.rxFrame ++ [value] })

/-- The loop of `update`: bytes are read until one of them makes an event. -/
def readBytes (now : UInt32) : List UInt8 → QrScanner → QrScannerEvent × QrScanner
  | [], s => (makeEvent .none, { s with input := [] })
  | value :: rest, s =>
    let (event, s) := processByte value now s
    if event.type ≠ .none then (event, { s with input := rest }) else readBytes now rest s

/-- What `update` looks at when no byte made an event. -/
def updateTimeouts (now : UInt32) (s : QrScanner) : QrScannerEvent × QrScanner :=
  if s.rxFrame.length > 0 && s.config.frameIdleMs > 0 && timeoutElapsed s.lastByteMillis s.config.frameIdleMs now then
    finalizeFrame s
  else
    let s := if s.currentState = .waitingActivationResponse
        && timeoutElapsed s.responseStartedAt s.responseTimeoutMs now then { s with currentState := .waitingCode } else s
    if s.currentState = .waitingCommandResponse && timeoutElapsed s.responseStartedAt s.responseTimeoutMs now then
      (makeEvent .commandResponseTimeout, { s with currentState := if s.scanActive then .waitingCode else .idle })
    else if s.scanActive && s.scanTimeoutMs ≠ 0 && timeoutElapsed s.scanStartedAt s.scanTimeoutMs now then
      (makeEvent .scanTimeout, deactivateAfterTerminalEvent s)
    else (makeEvent .none, s)

def update (now : UInt32) (s : QrScanner) : QrScannerEvent × QrScanner :=
  if s.pendingEvent ≠ .none then (makeEvent s.pendingEvent, { s with pendingEvent := .none })
  else if s.attached = false then (makeEvent .none, s)
  else
    let (event, s) := readBytes now s.input s
    if event.type ≠ .none then (event, s) else updateTimeouts now s

end QrScanner

end OrangeBox.Scanner
