import OrangeBox.Scanner.BoxScanner
import OrangeBox.Scanner.Frames
import OrangeBox.StateMachine.ClockOrigin
import OrangeBox.StateMachine.Countdown
/-!
# The clock may start anywhere

Two boxes that meet the same things, `k` milliseconds apart, behave alike: no
timestamp is looked at that the second box has not shifted as well, so none of
them has a special value (`clock_origin_independent`). While updates come at
least every `2 ^ 31` milliseconds, a delay or a presence code that is over
stays over.
-/
open OrangeBox.PassStore OrangeBox.StateMachine Clock Runs

namespace OrangeBox.Scanner

variable {V : Type} {dev : Devices V} {k : UInt32}

namespace QrScanner

variable {s s' : QrScanner} {value : UInt8} {now : UInt32}

/-! ## The scanner -/

/-- The scanner with other timestamps. -/
def retimed (lastByte response scan : UInt32) (s : QrScanner) : QrScanner :=
  { s with lastByteMillis := lastByte, responseStartedAt := response, scanStartedAt := scan }

/-- The scanners differ in timestamps only, and those that are looked at differ
by `k`. -/
structure Delayed (k : UInt32) (s s' : QrScanner) : Prop where
  same : s' = retimed s'.lastByteMillis s'.responseStartedAt s'.scanStartedAt s
  lastByte : s.rxFrame ≠ [] → s'.lastByteMillis = s.lastByteMillis + k
  response : s.currentState ≠ .idle → s.currentState ≠ .waitingCode → s'.responseStartedAt = s.responseStartedAt + k
  scan : s.scanActive = true → s'.scanStartedAt = s.scanStartedAt + k

variable {lastByte response scan : UInt32}

theorem setSwitchActive_retimed (active : Bool) (s : QrScanner) :
    setSwitchActive active (retimed lastByte response scan s) = retimed lastByte response scan (setSwitchActive active s) := by
  by_cases h : s.config.switchPin = qrScannerPinUnused
  · rw [setSwitchActive, setSwitchActive, if_pos h, if_pos (show (retimed lastByte response scan s).config.switchPin = _ from h)]
  · rw [setSwitchActive, setSwitchActive, if_neg h, if_neg (show (retimed lastByte response scan s).config.switchPin ≠ _ from h)]
    rfl

theorem writeCommand_retimed (command : List UInt8) (s : QrScanner) :
    writeCommand command (retimed lastByte response scan s) = retimed lastByte response scan (writeCommand command s) := by
  by_cases h : s.attached = true
  · rw [writeCommand, writeCommand, if_pos h, if_pos (show (retimed lastByte response scan s).attached = true from h)]
    rfl
  · rw [writeCommand, writeCommand, if_neg h, if_neg (show ¬(retimed lastByte response scan s).attached = true from h)]

theorem activateHardware_retimed (s : QrScanner) : activateHardware (retimed lastByte response scan s) =
    retimed lastByte response scan (activateHardware s) := by
  have hswitch : (if usesSwitch (retimed lastByte response scan s).config.activationMode then
        setSwitchActive true (retimed lastByte response scan s) else retimed lastByte response scan s) =
      retimed lastByte response scan (if usesSwitch s.config.activationMode then setSwitchActive true s else s) := by
    change (if usesSwitch s.config.activationMode then _ else _) = _
    split
    · exact setSwitchActive_retimed true s
    · rfl
  unfold activateHardware
  dsimp only
  rw [hswitch]
  generalize (if usesSwitch s.config.activationMode then setSwitchActive true s else s) = r
  change (if usesCommand r.config.activationMode then writeCommand r.config.activateCommand (retimed lastByte response scan r)
    else retimed lastByte response scan r) = _
  split
  · exact writeCommand_retimed _ r
  · rfl

theorem deactivateHardware_retimed (s : QrScanner) : deactivateHardware (retimed lastByte response scan s) =
    retimed lastByte response scan (deactivateHardware s) := by
  unfold deactivateHardware
  dsimp only
  rw [show (retimed lastByte response scan s).config.deactivateCommand = s.config.deactivateCommand from rfl,
    writeCommand_retimed]
  generalize writeCommand s.config.deactivateCommand s = r
  change (if usesSwitch r.config.activationMode then setSwitchActive false (retimed lastByte response scan r)
    else retimed lastByte response scan r) = _
  split
  · exact setSwitchActive_retimed false r
  · rfl

namespace Delayed

theorem rxFrame (h : Delayed k s s') : s'.rxFrame = s.rxFrame := by rw [h.same]; rfl

theorem config (h : Delayed k s s') : s'.config = s.config := by rw [h.same]; rfl

theorem currentState (h : Delayed k s s') : s'.currentState = s.currentState := by rw [h.same]; rfl

theorem scanActive (h : Delayed k s s') : s'.scanActive = s.scanActive := by rw [h.same]; rfl

theorem deactivateHardware (h : Delayed k s s') : QrScanner.deactivateHardware s' =
    retimed s'.lastByteMillis s'.responseStartedAt s'.scanStartedAt (QrScanner.deactivateHardware s) := by
  conv_lhs => rw [h.same]
  exact deactivateHardware_retimed s

/-- A scan ends; the rest of a frame stays. -/
theorem stop (h : Delayed k s s') {r r' : QrScanner} (hk : KeepsInput s r) (hk' : KeepsInput s' r')
    (hsame : r' = retimed r'.lastByteMillis r'.responseStartedAt r'.scanStartedAt r) (hidle : r.currentState = .idle)
    (hactive : r.scanActive = false) : Delayed k r r' := by
  refine ⟨hsame, fun hr => ?_, fun hne => absurd hidle hne, fun ha => by simp [hactive] at ha⟩
  rw [hk.lastByteMillis, hk'.lastByteMillis]
  exact h.lastByte fun he => hr (hk.rxFrame.trans he)

theorem deactivateAfterTerminalEvent (h : Delayed k s s') :
    Delayed k (deactivateAfterTerminalEvent s) (deactivateAfterTerminalEvent s') := by
  refine h.stop (deactivateAfterTerminalEvent_keeps s) (deactivateAfterTerminalEvent_keeps s') ?_ rfl rfl
  unfold QrScanner.deactivateAfterTerminalEvent
  rw [h.deactivateHardware]
  rfl

theorem deactivate (h : Delayed k s s') : Delayed k s.deactivate s'.deactivate := by
  refine h.stop (deactivate_keeps s) (deactivate_keeps s') ?_ rfl rfl
  unfold QrScanner.deactivate
  rw [h.deactivateHardware]
  rfl

theorem startScan (h : Delayed k s s') (timeoutMs now : UInt32) :
    (startScan timeoutMs (now + k) s').1 = (startScan timeoutMs now s).1 ∧
      Delayed k (startScan timeoutMs now s).2 (startScan timeoutMs (now + k) s').2 := by
  have hattached : s'.attached = s.attached := by rw [h.same]; rfl
  unfold QrScanner.startScan
  rw [hattached]
  split
  · exact ⟨rfl, h⟩
  dsimp only
  -- What matters is the same once the receiver is reset.
  have hstop : resetReceiver (if s'.scanActive then QrScanner.deactivateAfterTerminalEvent s' else s') =
      retimed 0 (if s'.scanActive then QrScanner.deactivateAfterTerminalEvent s' else s').responseStartedAt
        (if s'.scanActive then QrScanner.deactivateAfterTerminalEvent s' else s').scanStartedAt
        (resetReceiver (if s.scanActive then QrScanner.deactivateAfterTerminalEvent s else s)) := by
    rw [h.scanActive]
    split
    · unfold QrScanner.deactivateAfterTerminalEvent
      rw [h.deactivateHardware]
      rfl
    · conv_lhs => rw [h.same]
      rfl
  rw [hstop, activateHardware_retimed]
  have hframe : (activateHardware (resetReceiver (if s.scanActive then QrScanner.deactivateAfterTerminalEvent s else s))).rxFrame = [] :=
    (activateHardware_keeps _).rxFrame
  generalize activateHardware (resetReceiver (if s.scanActive then QrScanner.deactivateAfterTerminalEvent s else s)) = r at hframe ⊢
  have hconfig : s'.config.defaultScanTimeoutMs = s.config.defaultScanTimeoutMs := by rw [h.config]
  rw [hconfig]
  exact ⟨rfl, rfl, fun hr => absurd hframe hr, fun _ _ => rfl, fun _ => rfl⟩

/-- Dropping the frame that is being received. -/
theorem drop (h : Delayed k s s') : Delayed k { s with rxFrame := [] } { s' with rxFrame := [] } := by
  refine ⟨?_, fun hr => absurd rfl hr, h.response, h.scan⟩
  conv_lhs => rw [h.same]
  rfl

theorem makeFrameEvent (h : Delayed k s s') (type : QrScannerEventType) (data : List UInt8) :
    (makeFrameEvent type data s').1 = (makeFrameEvent type data s).1 ∧
      Delayed k (makeFrameEvent type data s).2 (makeFrameEvent type data s').2 := by
  refine ⟨rfl, ?_, h.lastByte, h.response, h.scan⟩
  unfold QrScanner.makeFrameEvent
  conv_lhs => rw [h.same]
  rfl

theorem finalizeFrame (h : Delayed k s s') : (finalizeFrame s').1 = (finalizeFrame s).1 ∧
    Delayed k (finalizeFrame s).2 (finalizeFrame s').2 := by
  have hdata : trimFrame s'.rxFrame s' = trimFrame s.rxFrame s := by
    unfold trimFrame
    rw [h.rxFrame, h.config]
  have hdrop := h.drop
  unfold QrScanner.finalizeFrame
  rw [hdata]
  generalize { s with rxFrame := [] } = r at hdrop ⊢
  generalize { s' with rxFrame := [] } = r' at hdrop ⊢
  dsimp only
  split
  · exact ⟨rfl, hdrop⟩
  · rw [hdrop.currentState]
    split
    · exact hdrop.makeFrameEvent _ _
    · exact hdrop.makeFrameEvent _ _
    · obtain ⟨hevent, hlast⟩ := hdrop.makeFrameEvent .codeReceived (trimFrame s.rxFrame s)
      exact ⟨hevent, hlast.deactivateAfterTerminalEvent⟩
    · exact hdrop.makeFrameEvent _ _

theorem processByte (h : Delayed k s s') (value : UInt8) (now : UInt32) :
    (processByte value (now + k) s').1 = (processByte value now s).1 ∧
      Delayed k (processByte value now s).2 (processByte value (now + k) s').2 := by
  have hbyte : Delayed k { s with lastByteMillis := now } { s' with lastByteMillis := now + k } := by
    refine ⟨?_, fun _ => rfl, h.response, h.scan⟩
    conv_lhs => rw [h.same]
    rfl
  have hstamp : { s' with lastByteMillis := now + k }.lastByteMillis = { s with lastByteMillis := now }.lastByteMillis + k := rfl
  unfold QrScanner.processByte
  generalize { s with lastByteMillis := now } = r at hbyte hstamp ⊢
  generalize { s' with lastByteMillis := now + k } = r' at hbyte hstamp ⊢
  have hterm : isTerminator value r' = isTerminator value r := by
    unfold isTerminator
    rw [hbyte.config]
  dsimp only
  rw [hterm, hbyte.rxFrame]
  split
  · split
    · exact ⟨rfl, hbyte⟩
    · exact hbyte.finalizeFrame
  · split
    · exact ⟨rfl, hbyte.drop⟩
    · refine ⟨rfl, ?_, fun _ => hstamp, hbyte.response, hbyte.scan⟩
      conv_lhs => rw [hbyte.same]
      rfl

theorem input (h : Delayed k s s') : s'.input = s.input := by rw [h.same]; rfl

theorem setInput (h : Delayed k s s') (input : List UInt8) : Delayed k { s with input := input } { s' with input := input } := by
  refine ⟨?_, h.lastByte, h.response, h.scan⟩
  conv_lhs => rw [h.same]
  rfl

theorem readBytes (h : Delayed k s s') (now : UInt32) (bytes : List UInt8) :
    (readBytes (now + k) bytes s').1 = (readBytes now bytes s).1 ∧
      Delayed k (readBytes now bytes s).2 (readBytes (now + k) bytes s').2 := by
  induction bytes generalizing s s' with
  | nil => exact ⟨rfl, h.setInput []⟩
  | cons value rest ih =>
    obtain ⟨hevent, hstate⟩ := h.processByte value now
    unfold QrScanner.readBytes
    dsimp only
    rw [hevent]
    split
    · exact ⟨rfl, hstate.setInput rest⟩
    · exact ih hstate

/-- An answer that is waited for is late in both. -/
theorem late (h : Delayed k s s') (now : UInt32) {state : QrScannerState} (h1 : state ≠ .idle) (h2 : state ≠ .waitingCode) :
    (decide (s'.currentState = state) && timeoutElapsed s'.responseStartedAt s'.responseTimeoutMs (now + k)) =
      (decide (s.currentState = state) && timeoutElapsed s.responseStartedAt s.responseTimeoutMs now) := by
  have hlength : s'.responseTimeoutMs = s.responseTimeoutMs := by rw [h.same]; rfl
  rw [h.currentState, hlength]
  by_cases hs : s.currentState = state
  · rw [h.response (hs ▸ h1) (hs ▸ h2), timeoutElapsed_add]
  · simp [hs]

/-- So is the scan. -/
theorem scanLate (h : Delayed k s s') (now : UInt32) :
    (s'.scanActive && s'.scanTimeoutMs ≠ 0 && timeoutElapsed s'.scanStartedAt s'.scanTimeoutMs (now + k)) =
      (s.scanActive && s.scanTimeoutMs ≠ 0 && timeoutElapsed s.scanStartedAt s.scanTimeoutMs now) := by
  have hlength : s'.scanTimeoutMs = s.scanTimeoutMs := by rw [h.same]; rfl
  rw [h.scanActive, hlength]
  cases ha : s.scanActive with
  | false => rfl
  | true => rw [h.scan ha, timeoutElapsed_add]

/-- And the rest of a frame. -/
theorem frameLate (h : Delayed k s s') (now : UInt32) :
    (s'.rxFrame.length > 0 && s'.config.frameIdleMs > 0 &&
        timeoutElapsed s'.lastByteMillis s'.config.frameIdleMs (now + k)) =
      (s.rxFrame.length > 0 && s.config.frameIdleMs > 0 && timeoutElapsed s.lastByteMillis s.config.frameIdleMs now) := by
  rw [h.rxFrame, h.config]
  by_cases hr : s.rxFrame = []
  · simp [hr]
  · rw [h.lastByte hr, timeoutElapsed_add]

theorem updateTimeouts (h : Delayed k s s') (now : UInt32) :
    (updateTimeouts (now + k) s').1 = (updateTimeouts now s).1 ∧
      Delayed k (updateTimeouts now s).2 (updateTimeouts (now + k) s').2 := by
  have hwait : Delayed k
      (if s.currentState = .waitingActivationResponse && timeoutElapsed s.responseStartedAt s.responseTimeoutMs now then
        { s with currentState := .waitingCode } else s)
      (if s.currentState = .waitingActivationResponse && timeoutElapsed s.responseStartedAt s.responseTimeoutMs now then
        { s' with currentState := .waitingCode } else s') := by
    split
    · refine ⟨?_, h.lastByte, fun _ hne => absurd rfl hne, h.scan⟩
      conv_lhs => rw [h.same]
      rfl
    · exact h
  unfold QrScanner.updateTimeouts
  rw [h.frameLate]
  split
  · exact h.finalizeFrame
  rw [h.late now (by simp) (by simp)]
  generalize (if s.currentState = .waitingActivationResponse && timeoutElapsed s.responseStartedAt s.responseTimeoutMs now then
    { s with currentState := .waitingCode } else s) = r at hwait ⊢
  generalize (if s.currentState = .waitingActivationResponse && timeoutElapsed s.responseStartedAt s.responseTimeoutMs now then
    { s' with currentState := .waitingCode } else s') = r' at hwait ⊢
  dsimp only
  rw [hwait.late now (by simp) (by simp), hwait.scanLate]
  split
  · rw [hwait.scanActive]
    refine ⟨rfl, ?_, hwait.lastByte, fun h1 h2 => ?_, hwait.scan⟩
    · conv_lhs => rw [hwait.same]
      rfl
    · dsimp only at h1 h2
      split at h1
      · rename_i hactive
        rw [if_pos hactive] at h2
        exact absurd rfl h2
      · exact absurd rfl h1
  split
  · exact ⟨rfl, hwait.deactivateAfterTerminalEvent⟩
  · exact ⟨rfl, hwait⟩

theorem update (h : Delayed k s s') (now : UInt32) : (update (now + k) s').1 = (update now s).1 ∧
    Delayed k (update now s).2 (update (now + k) s').2 := by
  have hpending : s'.pendingEvent = s.pendingEvent := by rw [h.same]; rfl
  have hattached : s'.attached = s.attached := by rw [h.same]; rfl
  unfold QrScanner.update
  rw [hpending, hattached, h.input]
  split
  · refine ⟨rfl, ?_, h.lastByte, h.response, h.scan⟩
    conv_lhs => rw [h.same]
    rfl
  split
  · exact ⟨rfl, h⟩
  · obtain ⟨hevent, hstate⟩ := h.readBytes now s.input
    dsimp only
    rw [hevent]
    split
    · exact ⟨rfl, hstate⟩
    · exact hstate.updateTimeouts now

end Delayed

end QrScanner

/-! ## The bridge -/

/-- The rest of the box is the same, and so are the calls. -/
structure Paired (k : UInt32) (w w' : Watch V) : Prop where
  rest : w'.1.rest = w.1.rest
  qr : w.1.qr.Delayed k w'.1.qr
  ready : w'.1.ready = w.1.ready
  failed : w'.1.failed = w.1.failed
  calls : w'.2 = w.2

/-- The callback runs `k` later. -/
structure Clocked (k : UInt32) (w w' : Watch V) : Prop extends Paired k w w' where
  millis : w'.1.millis = w.1.millis + k

variable {w w' : Watch V}

theorem Clocked.onStateChanged (h : Clocked k w w') (old new : BoxState) :
    Clocked k (onStateChanged old new w.1, w.2) (onStateChanged old new w'.1, w'.2) := by
  have hstop : Clocked k
      (if old = .scan && w.1.ready && w.1.qr.scanActive then { w.1 with qr := w.1.qr.deactivate } else w.1, w.2)
      (if old = .scan && w'.1.ready && w'.1.qr.scanActive then { w'.1 with qr := w'.1.qr.deactivate } else w'.1, w'.2) := by
    rw [h.ready, h.qr.scanActive]
    split
    · exact ⟨⟨h.rest, h.qr.deactivate, h.ready, h.failed, h.calls⟩, h.millis⟩
    · exact h
  unfold Scanner.onStateChanged
  generalize (if old = .scan && w.1.ready && w.1.qr.scanActive then { w.1 with qr := w.1.qr.deactivate } else w.1) = b at hstop ⊢
  generalize (if old = .scan && w'.1.ready && w'.1.qr.scanActive then { w'.1 with qr := w'.1.qr.deactivate } else w'.1) = b' at hstop ⊢
  obtain ⟨⟨hrest, hqr, hready, hfailed, hcalls⟩, hmillis⟩ := hstop
  dsimp only at hrest hqr hready hfailed hcalls hmillis ⊢
  rw [hready]
  split
  · exact ⟨⟨hrest, hqr, hready, hfailed, hcalls⟩, hmillis⟩
  split
  · exact ⟨⟨hrest, hqr, rfl, rfl, hcalls⟩, hmillis⟩
  · obtain ⟨hstarted, hscan⟩ := (hqr.setInput []).startScan qrScannerScanTimeoutMs b.millis
    rw [hmillis, hstarted, hfailed]
    exact ⟨⟨hrest, hscan, rfl, rfl, hcalls⟩, rfl⟩

/-- The callback of the rest of the box does not look at the time. -/
def Timeless (dev : Devices V) : Prop := ∀ old new t t' v, dev.onStateChange old new t v = dev.onStateChange old new t' v

theorem attach_answers (dev : Devices V) (k : UInt32) : Answers (attach dev).logged (Paired k) where
  verifyCred value credType w w' h := by
    have hrest : w'.1.rest = w.1.rest := h.rest
    unfold Devices.logged attach
    dsimp only
    rw [hrest, h.calls]
    exact ⟨rfl, rfl, h.qr, h.ready, h.failed, rfl⟩
  usedCred door w w' h := by
    unfold Devices.logged attach
    dsimp only
    rw [h.rest, h.calls]
    exact ⟨rfl, h.qr, h.ready, h.failed, rfl⟩
  openDoor door w w' h := by
    unfold Devices.logged attach
    dsimp only
    rw [h.rest, h.calls]
    exact ⟨rfl, rfl, h.qr, h.ready, h.failed, rfl⟩
  readDoorState door w w' h := congrArg (dev.readDoorState door) h.rest
  ambientOn h := ⟨congrArg dev.ambientOn h.rest, h.qr, h.ready, h.failed, h.calls⟩
  ambientOff h := ⟨congrArg dev.ambientOff h.rest, h.qr, h.ready, h.failed, h.calls⟩
  display d _ _ h := ⟨congrArg (dev.display d) h.rest, h.qr, h.ready, h.failed, h.calls⟩
  rand h := ⟨congrArg (fun v => (dev.rand v).1) h.rest, congrArg (fun v => (dev.rand v).2) h.rest, h.qr, h.ready, h.failed,
    h.calls⟩
  onUIUpdate action _ _ h := ⟨congrArg (dev.onUIUpdate action) h.rest, h.qr, h.ready, h.failed, h.calls⟩

theorem attach_blind (hdev : Timeless dev) (k : UInt32) : Blind (attach dev).logged k (Clocked k) where
  verifyCred value credType _ _ h :=
    ⟨((attach_answers dev k).verifyCred value credType h.toPaired).1,
      ((attach_answers dev k).verifyCred value credType h.toPaired).2, h.millis⟩
  usedCred door _ _ h := ⟨(attach_answers dev k).usedCred door h.toPaired, h.millis⟩
  openDoor door _ _ h :=
    ⟨((attach_answers dev k).openDoor door h.toPaired).1, ((attach_answers dev k).openDoor door h.toPaired).2, h.millis⟩
  readDoorState door _ _ h := (attach_answers dev k).readDoorState door h.toPaired
  ambientOn h := ⟨(attach_answers dev k).ambientOn h.toPaired, h.millis⟩
  ambientOff h := ⟨(attach_answers dev k).ambientOff h.toPaired, h.millis⟩
  display d _ _ h := ⟨(attach_answers dev k).display d h.toPaired, h.millis⟩
  rand h := ⟨((attach_answers dev k).rand h.toPaired).1, ((attach_answers dev k).rand h.toPaired).2, h.millis⟩
  onUIUpdate action _ _ h := ⟨(attach_answers dev k).onUIUpdate action h.toPaired, h.millis⟩
  onStateChange old new t w w' h := by
    have hrest : dev.onStateChange old new (t + k) w'.1.rest = dev.onStateChange old new t w.1.rest := by
      rw [h.rest]
      exact hdev _ _ _ _ _
    have hclocked : Clocked k ({ w.1 with rest := dev.onStateChange old new t w.1.rest }, w.2)
        ({ w'.1 with rest := dev.onStateChange old new (t + k) w'.1.rest }, w'.2) :=
      ⟨⟨hrest, h.qr, h.ready, h.failed, h.calls⟩, h.millis⟩
    exact hclocked.onStateChanged old new

/-! ## Two runs -/

variable {s s' r r' : Moment (Watch V)} {h : Happening V} {hs : List (Happening V)} {d : Nat}

/-- The same happening `d` milliseconds later. -/
def later (d : Nat) : Happening V → Happening V
  | .event e t t' t'' => .event e (t + d) (t' + d) (t'' + d)
  | .update t t' t'' => .update (t + d) (t' + d) (t'' + d)
  | .scan now t t' t'' => .scan (now + d) (t + d) (t' + d) (t'' + d)
  | .callback t t' t'' => .callback (t + d) (t' + d) (t'' + d)
  | .receive bytes => .receive bytes
  | .elsewhere v => .elsewhere v

/-- The machines and their scanners differ in timestamps only. -/
abbrev Twin (d : Nat) (s s' : Moment (Watch V)) : Prop := Alike (stamp d) (Paired (stamp d)) s.machine s'.machine

theorem Twin.onBridge (ht : Twin d s s') {f f' : Bridge V → Bridge V}
    (hf : Paired (stamp d) (f s.machine.world.1, s.machine.world.2) (f' s'.machine.world.1, s'.machine.world.2)) :
    Alike (stamp d) (Paired (stamp d)) (onBridge f s.machine) (onBridge f' s'.machine) :=
  ⟨ht.toNear.call hf, ht.shifted⟩

/-- The event that a poll raises, and what it leaves of the scanner. -/
theorem Twin.poll (ht : Twin d s s') (now : Nat) : scanned (now + d) s'.machine = scanned now s.machine ∧
    Alike (stamp d) (Paired (stamp d)) (polled now s.machine) (polled (now + d) s'.machine) := by
  have hw := ht.world
  have hover : (s'.machine.context.state = .scan && timeoutElapsed s'.machine.context.scanStartedAt
        qrScannerScanTimeoutMs (stamp (now + d))) =
      (s.machine.context.state = .scan && timeoutElapsed s.machine.context.scanStartedAt qrScannerScanTimeoutMs (stamp now)) := by
    rw [ht.state, stamp_add]
    by_cases hs : s.machine.context.state = .scan
    · rw [ht.shifted.scan hs, timeoutElapsed_add]
    · simp [hs]
  obtain ⟨hevent, hqr⟩ := hw.qr.update (stamp now)
  have hpoll : (Scanner.poll (stamp (now + d)) s'.machine.context s'.machine.world.1).1 =
        (Scanner.poll (stamp now) s.machine.context s.machine.world.1).1 ∧
      Paired (stamp d) ((Scanner.poll (stamp now) s.machine.context s.machine.world.1).2, s.machine.world.2)
        ((Scanner.poll (stamp (now + d)) s'.machine.context s'.machine.world.1).2, s'.machine.world.2) := by
    unfold Scanner.poll
    rw [hw.ready, hover, ht.state, stamp_add]
    split
    · exact ⟨rfl, hw⟩
    split
    · exact ⟨rfl, hw⟩
    · dsimp only
      rw [hevent]
      exact ⟨rfl, hw.rest, hqr, rfl, hw.failed, hw.calls⟩
  exact ⟨hpoll.1, ht.onBridge hpoll.2⟩

theorem alike_of_clocked {m m' : Machine (Watch V)} (h : Alike k (Clocked k) m m') : Alike k (Paired k) m m' :=
  ⟨⟨h.context, h.lastUIAction, h.keep, h.world.toPaired⟩, h.shifted⟩

/-- Both clocks are set for the callback. -/
theorem clocked {m m' : Machine (Watch V)} (h : Alike (stamp d) (Paired (stamp d)) m m') (t : Nat) :
    Alike (stamp d) (Clocked (stamp d)) (onBridge ({ · with millis := stamp t }) m)
      (onBridge ({ · with millis := stamp t + stamp d }) m') := by
  have hw := h.world
  exact ⟨⟨h.context, h.lastUIAction, h.keep, ⟨hw.rest, hw.qr, hw.ready, hw.failed, hw.calls⟩, rfl⟩, h.shifted⟩

theorem process_alike (hdev : Timeless dev) {m m' : Machine (Watch V)} (hm : Alike (stamp d) (Paired (stamp d)) m m')
    (e : BoxEvent) (t t' t'' : Nat) :
    Alike (stamp d) (Paired (stamp d)) (process dev e t t' t'' m) (process dev e (t + d) (t' + d) (t'' + d) m') := by
  unfold process
  rw [stamp_add, stamp_add, stamp_add]
  exact alike_of_clocked ((clocked hm t'').processEvent (attach_blind hdev _) e (stamp t) (stamp t'))

/-- One step of both. -/
theorem Twin.step (hdev : Timeless dev) (ht : Twin d s s') (hs : Happens dev s h r) (hs' : Happens dev s' (later d h) r') :
    Twin d r r' := by
  have hw := ht.world
  cases h with
  | event e t t' t'' =>
    cases hs with | event =>
    cases hs' with | event =>
    exact process_alike hdev ht e t t' t''
  | update t t' t'' =>
    cases hs with | update =>
    cases hs' with | update =>
    unfold Twin
    rw [stamp_add, stamp_add, stamp_add]
    exact alike_of_clocked ((clocked ht t'').update (attach_blind hdev _) (stamp t) (stamp t'))
  | scan now t t' t'' =>
    -- Both scanners report the same, an event or none.
    obtain ⟨hevent, hpolled⟩ := ht.poll now
    cases hs with
    | scan _ _ _ _ _ he =>
      cases hs' with
      | scan _ _ _ _ _ he' =>
        rw [hevent, he] at he'
        obtain rfl := Option.some.inj he'
        exact process_alike hdev hpolled _ t t' t''
      | silent _ _ _ _ _ he' =>
        rw [hevent, he] at he'
        contradiction
    | silent _ _ _ _ _ he =>
      cases hs' with
      | scan _ _ _ _ _ he' =>
        rw [hevent, he] at he'
        contradiction
      | silent => exact hpolled
  | callback t t' t'' =>
    cases hs with | callback =>
    cases hs' with | callback =>
    exact process_alike hdev (ht.onBridge ⟨hw.rest, hw.qr, hw.ready, rfl, hw.calls⟩) .scannerFailed t t' t''
  | receive bytes =>
    cases hs with | receive =>
    cases hs' with | receive =>
    have hqr := hw.qr.setInput (s.machine.world.1.qr.input ++ bytes)
    refine ⟨⟨ht.context, ht.lastUIAction, ht.keep, hw.rest, ?_, hw.ready, hw.failed, hw.calls⟩, ht.shifted⟩
    change QrScanner.Delayed _ { s.machine.world.1.qr with input := s.machine.world.1.qr.input ++ bytes }
      { s'.machine.world.1.qr with input := s'.machine.world.1.qr.input ++ bytes }
    rw [hw.qr.input]
    exact hqr
  | elsewhere v =>
    cases hs with | elsewhere =>
    cases hs' with | elsewhere =>
    exact ⟨⟨ht.context, ht.lastUIAction, ht.keep, rfl, hw.qr, hw.ready, hw.failed, hw.calls⟩, ht.shifted⟩

theorem begun_twin (dev : Devices V) (activate deactivate : Option (List UInt8)) (switchPin : UInt8)
    (switchActiveHigh keep : Bool) (t d : Nat) (v : V) :
    Twin d (begun dev activate deactivate switchPin switchActiveHigh keep t v)
      (begun dev activate deactivate switchPin switchActiveHigh keep (t + d) v) := by
  unfold Twin begun booted
  rw [stamp_add]
  refine initializeMachine_alike (attach_answers dev _) ⟨rfl, rfl, rfl, rfl, ?_, rfl, rfl, rfl⟩ (stamp t)
  -- No frame, no scan and no answer to wait for.
  have hidle : ∀ s : QrScanner, s.rxFrame = [] → s.currentState = .idle → s.scanActive = false → s.Delayed (stamp d) s :=
    fun s h1 h2 h3 => ⟨rfl, fun h => absurd h1 h, fun h => absurd h2 h, fun h => by simp [h3] at h⟩
  cases activate with
  | none => exact hidle _ rfl rfl rfl
  | some activate =>
    cases deactivate with
    | none => exact hidle _ rfl rfl rfl
    | some deactivate =>
      change QrScanner.Delayed _ (QrScanner.begin _ .constructed) (QrScanner.begin _ .constructed)
      unfold QrScanner.begin QrScanner.setSwitchActive
      dsimp only
      split <;> exact hidle _ rfl rfl rfl

/-- All that can be seen of two boxes, at any later reading of their clocks. -/
structure SameBehaviour (d : Nat) (s s' : Moment (Watch V)) : Prop where
  context : timeless s'.machine.context = timeless s.machine.context
  scanner : ∃ lastByte response scan, s'.machine.world.1.qr = s.machine.world.1.qr.retimed lastByte response scan
  rest : s'.machine.world.1.rest = s.machine.world.1.rest
  calls : s'.machine.world.2 = s.machine.world.2
  emitted : ∀ now, scanned (now + d) s'.machine = scanned now s.machine
  delay : ∀ now, badPasswordOver (stamp (now + d)) s'.machine.context = badPasswordOver (stamp now) s.machine.context
  presenceCode : ∀ now, isPresenceCodeValid (stamp (now + d)) s'.machine = isPresenceCodeValid (stamp now) s.machine

theorem Twin.same (ht : Twin d s s') : SameBehaviour d s s' where
  context := ht.context
  scanner := ⟨_, _, _, ht.world.qr.same⟩
  rest := ht.world.rest
  calls := ht.world.calls
  emitted now := (ht.poll now).1
  delay now := by
    rw [stamp_add]
    exact ht.delayed.over (stamp now)
  presenceCode now := by
    rw [stamp_add]
    exact ht.isPresenceCodeValid (stamp now)

/-! ## Expiry -/

variable {σ σ' : Moment (Watch V) × Nat} {count : BoxStateContext → Countdown}
  {starts : BoxStateContext → BoxStateContext → Prop} {P : Nat → Prop}

/-- The time of the last update. -/
def updatedAt (last : Nat) : Happening V → Nat
  | .update t _ _ => t
  | _ => last

/-- A step of a box that is updated at least every `2 ^ 31` milliseconds. -/
def Regular (dev : Devices V) (σ : Moment (Watch V) × Nat) (h : Happening V) (σ' : Moment (Watch V) × Nat) : Prop :=
  Happens dev σ.1 h σ'.1 ∧ σ'.1.clock < σ.2 + 2 ^ 31 ∧ σ'.2 = updatedAt σ.2 h

/-- What is known of a countdown, in every state of such a run. -/
structure Timed (count : BoxStateContext → Countdown) (P : Nat → Prop) (σ : Moment (Watch V) × Nat) : Prop where
  known : (count σ.1.machine.context).Known σ.1.clock σ.2 P
  past : σ.2 ≤ σ.1.clock

theorem process_next (hcount : Counts count starts) (dev : Devices V) (e : BoxEvent) (t t' t'' : Nat) (m : Machine (Watch V)) :
    Countdown.Next (stamp t) (starts m.context (process dev e t t' t'' m).context) (count m.context)
      (count (process dev e t t' t'' m).context) :=
  hcount.event (attach dev).logged e (stamp t) (stamp t') (onBridge ({ · with millis := stamp t'' }) m)

theorem Timed.step (hcount : Counts count starts) (ht : Timed count P σ) (hs : Regular dev σ h σ')
    (hstart : starts σ.1.machine.context σ'.1.machine.context → ∀ t, P t) : Timed count P σ' := by
  obtain ⟨s, last⟩ := σ
  obtain ⟨s', last'⟩ := σ'
  obtain ⟨hstep, hprompt, hlast⟩ := hs
  obtain ⟨hknown, hpast⟩ := ht
  dsimp only at hstep hprompt hlast hknown hpast hstart
  subst hlast
  cases hstep with
  | @event e t t' t'' _ h1 h2 h3 =>
    have hnext := process_next hcount dev e t t' t'' s.machine
    exact ⟨hknown.event hnext h1 (Nat.le_trans h2 h3) (Nat.le_trans hpast h1) fun hs => hstart hs _,
      Nat.le_trans hpast (Nat.le_trans h1 (Nat.le_trans h2 h3))⟩
  | @update t t' t'' _ h1 h2 h3 =>
    have hupdates := hcount.update (attach dev).logged (stamp t) (stamp t') (onBridge ({ · with millis := stamp t'' }) s.machine)
    refine ⟨hknown.update hupdates.next hupdates.running h1 (Nat.le_trans h2 h3) ?_ False.elim, Nat.le_trans h2 h3⟩
    exact Nat.lt_of_le_of_lt (Nat.le_trans h2 h3) hprompt
  | @scan now t t' t'' e _ h1 h2 h3 h4 =>
    have hle := Nat.le_trans h1 h2
    have hnext := process_next hcount dev e t t' t'' (polled now s.machine)
    exact ⟨hknown.event hnext hle (Nat.le_trans h3 h4) (Nat.le_trans hpast hle) fun hs => hstart hs _,
      Nat.le_trans hpast (Nat.le_trans hle (Nat.le_trans h3 h4))⟩
  | @silent now t t' t'' _ h1 h2 h3 h4 =>
    have hle : s.clock ≤ t'' := Nat.le_trans h1 (Nat.le_trans h2 (Nat.le_trans h3 h4))
    exact ⟨hknown.mono hle, Nat.le_trans hpast hle⟩
  | @callback t t' t'' _ h1 h2 h3 =>
    have hnext := process_next hcount dev .scannerFailed t t' t'' (onBridge ({ · with failed := false }) s.machine)
    exact ⟨hknown.event hnext h1 (Nat.le_trans h2 h3) (Nat.le_trans hpast h1) fun hs => hstart hs _,
      Nat.le_trans hpast (Nat.le_trans h1 (Nat.le_trans h2 h3))⟩
  | receive => exact ⟨hknown, hpast⟩
  | elsewhere => exact ⟨hknown, hpast⟩

/-- A reading of the clock before the next update is due. -/
def Reading (σ : Moment (Watch V) × Nat) (now : Nat) : Prop := σ.1.clock ≤ now ∧ now < σ.2 + 2 ^ 31

/-- A step that does not start the countdown. -/
def Unstarted (starts : BoxStateContext → BoxStateContext → Prop) (σ : Moment (Watch V) × Nat) (_ : Happening V)
    (σ' : Moment (Watch V) × Nat) : Prop :=
  ¬starts σ.1.machine.context σ'.1.machine.context

/-- A countdown that is over stays over until it is started again. -/
theorem Timed.stays (hcount : Counts count starts) {now now' : Nat} (ht : Timed count (fun _ => True) σ) (hr : Reading σ now)
    (hover : (count σ.1.machine.context).elapsed (stamp now) = true)
    (hrun : Run (Within (Regular dev) (Unstarted starts)) σ hs σ') (hr' : Reading σ' now') (hle : now ≤ now') :
    (count σ'.1.machine.context).elapsed (stamp now') = true := by
  have hended : Timed count (· ≤ now) σ := ⟨ht.known.ended hr.1 hr.2 hover, ht.past⟩
  have hlast : Timed count (· ≤ now) σ' :=
    hrun.inv (Timed count (· ≤ now)) hended fun _ _ _ h hs => h.step hcount hs.1 fun hstart => absurd hstart hs.2
  exact hlast.known.elapsed hr'.1 hr'.2 hle

/-- What is over when `now` is read in `σ` is over when `now'` is read in a
later state, if nothing starts it between. -/
def StaysOver (dev : Devices V) (count : BoxStateContext → Countdown) (starts : BoxStateContext → BoxStateContext → Prop)
    (σ : Moment (Watch V) × Nat) : Prop :=
  ∀ hs σ' now now', Run (Within (Regular dev) (Unstarted starts)) σ hs σ' → Reading σ now → Reading σ' now' → now ≤ now' →
    (count σ.1.machine.context).elapsed (stamp now) = true → (count σ'.1.machine.context).elapsed (stamp now') = true

/-! ## Independence -/

/-- Two boxes that are started `d` milliseconds apart and meet the same things
`d` milliseconds apart behave alike; and in a box that is updated regularly no
delay and no presence code comes back once it is over. -/
theorem clock_origin_independent (dev : Devices V) (hdev : Timeless dev) (activate deactivate : Option (List UInt8))
    (switchPin : UInt8) (switchActiveHigh keep : Bool) (t : Nat) (v : V) :
    (∀ d hs s s', Run (Happens dev) (begun dev activate deactivate switchPin switchActiveHigh keep t v) hs s →
      Run (Happens dev) (begun dev activate deactivate switchPin switchActiveHigh keep (t + d) v) (hs.map (later d)) s' →
        SameBehaviour d s s') ∧
    ∀ hs σ, Run (Regular dev) (begun dev activate deactivate switchPin switchActiveHigh keep t v, t) hs σ →
      StaysOver dev penalty Fails σ ∧ StaysOver dev presence ShowsCode σ := by
  constructor
  · intro d hs s s' hrun hrun'
    have hstart := begun_twin dev activate deactivate switchPin switchActiveHigh keep t d v
    have hstep : ∀ s s' h r r', Twin d s s' → Happens dev s h r → Happens dev s' (later d h) r' → Twin d r r' :=
      fun _ _ _ _ _ ht hs hs' => ht.step hdev hs hs'
    exact (Run.lockstep (Twin d) hstart hstep hrun hrun').same
  · intro hs σ hrun
    have hnone : ∀ {count : BoxStateContext → Countdown} {starts : BoxStateContext → BoxStateContext → Prop},
        Counts count starts →
        (count (begun dev activate deactivate switchPin switchActiveHigh keep t v).machine.context).active = false →
        StaysOver dev count starts σ := by
      intro count starts hcount hoff
      have hstart : Timed count (fun _ => True) (begun dev activate deactivate switchPin switchActiveHigh keep t v, t) :=
        ⟨fun h => by simp [hoff] at h, Nat.le_refl _⟩
      have ht : Timed count (fun _ => True) σ :=
        hrun.inv (Timed count fun _ => True) hstart fun _ _ _ h hs => h.step hcount hs fun _ _ => trivial
      intro hs σ' now now' hrun' hr hr' hle hover
      exact ht.stays hcount hr hover hrun' hr' hle
    exact ⟨hnone penalty_counts rfl, hnone presence_counts rfl⟩

/-- A box without credentials and without a scanner. -/
abbrev plainBox (t : Nat) : Moment (Watch Unit) := begun emptyBox none none qrScannerPinUnused true false t ()

theorem clock_origin_independent_wrapped : ∃ s s', Run (Happens emptyBox) (plainBox 0) [.event .keyboardKey1 10 10 11] s ∧
    Run (Happens emptyBox) (plainBox (0 + 4294967290))
      [later 4294967290 (.event .keyboardKey1 10 10 11)] s' ∧ SameBehaviour 4294967290 s s' ∧
    s.machine.context.passwordEntryStartedAt = 10 ∧ s'.machine.context.passwordEntryStartedAt = 4 := by
  have hkey : ∀ t, Happens emptyBox (plainBox t) (.event .keyboardKey1 (10 + t) (10 + t) (11 + t)) _ := fun t =>
    .event rfl (Nat.le_add_left t 10) (Nat.le_refl _) (by omega)
  have hrun := Run.single (hkey 0)
  have hrun' := Run.single (hkey 4294967290)
  exact ⟨_, _, hrun, hrun', (clock_origin_independent emptyBox (fun _ _ _ _ _ => rfl) none none qrScannerPinUnused true false
    0 ()).1 4294967290 _ _ _ hrun hrun', rfl, rfl⟩

end OrangeBox.Scanner
