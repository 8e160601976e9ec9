import OrangeBox.Scanner.QrScanner
import OrangeBox.StateMachine.Opening
/-!
# The scanner at the state machine

`box_scanner.cpp`. The scanner hears of every state change through the callback
and turns what it reads into events. The callback is the last thing a
transition does, so an event it raises is processed after the event that caused
it: `failed` says that `ScannerFailed` is still to be processed.

`authorised`: a door is opened only by a web request for it, or by a text that
was verified for it in the same event.
-/
open OrangeBox.PassStore OrangeBox.StateMachine Clock Runs

namespace OrangeBox.Scanner

/-- `BoxScanner` and the rest of the box. `millis` is what the clock shows when
the callback runs. -/
structure Bridge (V : Type) where
  rest : V
  qr : QrScanner
  ready : Bool
  millis : UInt32
  failed : Bool

variable {V : Type}

/-! ## Setting up -/

def Bridge.constructed (v : V) : Bridge V := { rest := v, qr := .constructed, ready := false, millis := 0, failed := false }

/-- The configuration `begin` builds from the two commands and the switch pin. -/
def scannerConfig (activate deactivate : List UInt8) (switchPin : UInt8) (switchActiveHigh : Bool) : QrScannerConfig :=
  let hasSwitch := switchPin ≠ qrScannerPinUnused
  { QrScannerConfig.default with
    activateCommand := activate
    deactivateCommand := deactivate
    switchPin := switchPin
    switchActiveHigh := switchActiveHigh
    activationResponseWindowMs := 300
    frameIdleMs := 40
    defaultScanTimeoutMs := qrScannerScanTimeoutMs
    activationMode :=
      if activate.length ≠ 0 then if hasSwitch then .commandAndSwitch else .command
      else if hasSwitch then .switchPin else .manual }

/-- `begin`, given what the two command texts stand for, if anything. -/
def begin (activate deactivate : Option (List UInt8)) (switchPin : UInt8) (switchActiveHigh : Bool) (b : Bridge V) :
    Bool × Bridge V :=
  match activate, deactivate with
  | some activate, some deactivate =>
    (true, { b with qr := b.qr.begin (scannerConfig activate deactivate switchPin switchActiveHigh), ready := true })
  | _, _ => (false, { b with ready := false })

/-! ## State changes -/

def onStateChanged (oldState newState : BoxState) (b : Bridge V) : Bridge V :=
  let b := if oldState = .scan && b.ready && b.qr.scanActive then { b with qr := b.qr.deactivate } else b
  if newState ≠ .scan then b
  else if b.ready = false then { b with failed := true }
  else
    -- A frame left over from an earlier attempt is dropped.
    let (started, qr) := QrScanner.startScan qrScannerScanTimeoutMs b.millis { b.qr with input := [] }
    { b with qr := qr, failed := b.failed || !started }

/-- The devices of a machine whose state changes reach the scanner. -/
def attach (dev : Devices V) : Devices (Bridge V) where
  verifyCred value credType b :=
    let (door, v) := dev.verifyCred value credType b.rest
    (door, { b with rest := v })
  usedCred door b :=
    let (done, v) := dev.usedCred door b.rest
    (done, { b with rest := v })
  openDoor door b :=
    let (opened, v) := dev.openDoor door b.rest
    (opened, { b with rest := v })
  readDoorState door b := dev.readDoorState door b.rest
  ambientOn b := { b with rest := dev.ambientOn b.rest }
  ambientOff b := { b with rest := dev.ambientOff b.rest }
  display d b := { b with rest := dev.display d b.rest }
  rand b := ((dev.rand b.rest).1, { b with rest := (dev.rand b.rest).2 })
  onUIUpdate action b := { b with rest := dev.onUIUpdate action b.rest }
  onStateChange oldState newState t b :=
    onStateChanged oldState newState { b with rest := dev.onStateChange oldState newState t b.rest }

/-! ## Polling -/

/-- Every byte is printable and none is a blank. -/
def isText (scanned : QrScannerEvent) : Bool :=
  scanned.data.length ≠ 0 && scanned.data.all fun c => 33 ≤ c && c ≤ 126

/-- The event for what was scanned. -/
def translate (scanned : QrScannerEvent) : Option BoxEvent :=
  if scanned.type = .scanTimeout then some .scanTimeout
  else if scanned.type = .rxOverflow then some .scannerInvalidCode
  else if scanned.type = .codeReceived
      || scanned.type = .activationResponse && packetNumberMin ≤ scanned.data.length && isText scanned then
    if scanned.data.length < packetNumberMin || scanned.data.length > packetScanMax || !isText scanned then
      some .scannerInvalidCode
    else some (.scannerCodeReceived (CText.read (packetScanMax + 1) scanned.data))
  else none

/-- What `BoxScanner::update` does before it raises an event. -/
def poll (now : UInt32) (c : BoxStateContext) (b : Bridge V) : Option BoxEvent × Bridge V :=
  if b.ready = false then (none, b)
  else if c.state = .scan && timeoutElapsed c.scanStartedAt qrScannerScanTimeoutMs now then (some .scanTimeout, b)
  else
    let (scanned, qr) := b.qr.update now
    (if c.state ≠ .scan then none else translate scanned, { b with qr := qr })

/-! ## The machine with the scanner -/

/-- The bridge, with a record of the calls. -/
abbrev Watch (V : Type) := Bridge V × List DeviceCall

/-- Change the bridge. -/
def onBridge (f : Bridge V → Bridge V) (m : Machine (Watch V)) : Machine (Watch V) := m.call fun w => (f w.1, w.2)

/-- What happens to the machine and the scanner. An event is processed with the
readings `t` and `t'`, and its callback runs at `t''`. -/
inductive Happening (V : Type) where
  | event (e : BoxEvent) (t t' t'' : Nat)
  | update (t t' t'' : Nat)
  | scan (now t t' t'' : Nat)
  | callback (t t' t'' : Nat)
  | receive (bytes : List UInt8)
  | elsewhere (v : V)

/-- An event and its callback. -/
def process (dev : Devices V) (e : BoxEvent) (t t' t'' : Nat) (m : Machine (Watch V)) : Machine (Watch V) :=
  processEvent (attach dev).logged e (stamp t) (stamp t') (onBridge ({ · with millis := stamp t'' }) m)

/-- The machine after the part of `BoxScanner::update` before its event. -/
def polled (now : Nat) (m : Machine (Watch V)) : Machine (Watch V) := onBridge (fun b => (poll (stamp now) m.context b).2) m

/-- The event `BoxScanner::update` raises. -/
def scanned (now : Nat) (m : Machine (Watch V)) : Option BoxEvent := (poll (stamp now) m.context m.world.1).1

inductive Happens (dev : Devices V) (s : Moment (Watch V)) : Happening V → Moment (Watch V) → Prop
  | event {e : BoxEvent} {t t' t'' : Nat} : s.machine.world.1.failed = false → s.clock ≤ t → t ≤ t' → t' ≤ t'' →
      Happens dev s (.event e t t' t'') ⟨process dev e t t' t'' s.machine, t''⟩
  | update {t t' t'' : Nat} : s.machine.world.1.failed = false → s.clock ≤ t → t ≤ t' → t' ≤ t'' →
      Happens dev s (.update t t' t'')
        ⟨update (attach dev).logged (stamp t) (stamp t') (onBridge ({ · with millis := stamp t'' }) s.machine), t''⟩
  | scan {now t t' t'' : Nat} {e : BoxEvent} : s.machine.world.1.failed = false → s.clock ≤ now → now ≤ t → t ≤ t' →
      t' ≤ t'' → scanned now s.machine = some e →
      Happens dev s (.scan now t t' t'') ⟨process dev e t t' t'' (polled now s.machine), t''⟩
  | silent {now t t' t'' : Nat} : s.machine.world.1.failed = false → s.clock ≤ now → now ≤ t → t ≤ t' → t' ≤ t'' →
      scanned now s.machine = none → Happens dev s (.scan now t t' t'') ⟨polled now s.machine, t''⟩
  | callback {t t' t'' : Nat} : s.machine.world.1.failed = true → s.clock ≤ t → t ≤ t' → t' ≤ t'' →
      Happens dev s (.callback t t' t'')
        ⟨process dev .scannerFailed t t' t'' (onBridge ({ · with failed := false }) s.machine), t''⟩
  | receive {bytes : List UInt8} : Happens dev s (.receive bytes)
      ⟨onBridge (fun b => { b with qr := { b.qr with input := b.qr.input ++ bytes } }) s.machine, s.clock⟩
  | elsewhere {v : V} : Happens dev s (.elsewhere v) ⟨onBridge ({ · with rest := v }) s.machine, s.clock⟩

/-- The machine and the scanner as they start: constructed, `begin` called or
not, then `initialize` at `t`. -/
def booted (dev : Devices V) (t : Nat) (m : Machine (Watch V)) : Moment (Watch V) :=
  ⟨initializeMachine (attach dev).logged (stamp t) m, t⟩

/-- A box after `begin` with these commands, and `initialize` at time `t`. -/
def begun (dev : Devices V) (activate deactivate : Option (List UInt8)) (switchPin : UInt8) (switchActiveHigh keep : Bool)
    (t : Nat) (v : V) : Moment (Watch V) :=
  booted dev t { constructed ((begin activate deactivate switchPin switchActiveHigh (.constructed v)).2, []) with
    scannerTestKeepCred := keep }

end OrangeBox.Scanner
