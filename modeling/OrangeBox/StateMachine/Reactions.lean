import OrangeBox.StateMachine.Machine
/-!
# What a step can do

An event and an update each change a few fields and then move to one state,
which may be the current one. `Reaction` lists what an event can do and
`Elapse` what an update can do, so that no later proof looks at the handlers
again. The second half says what a transition does to the context.
-/
open OrangeBox.PassStore

namespace OrangeBox.StateMachine

variable {W : Type} {dev : Devices W} {m m' : Machine W} {e : BoxEvent} {target : BoxState} {now millis : UInt32}

/-! ## Events -/

/-- The text an event brings, and the kind of credential it is meant to be. -/
def presented : BoxEvent → Option (List UInt8 × CredType)
  | .keyboardEnter password => some (password.bytes, .password)
  | .scannerCodeReceived cred => some (cred.bytes, .packetNumber)
  | _ => none

/-- An attempt to open the box is evaluated. -/
def evaluated (now : UInt32) (c : BoxStateContext) : BoxEvent → Bool
  | .keyboardEnter _ => c.state = .password
  | .scannerCodeReceived _ | .scannerInvalidCode =>
    c.state = .scan && !timeoutElapsed c.scanStartedAt qrScannerScanTimeoutMs now
  | _ => false

theorem evaluated_state {c : BoxStateContext} (h : evaluated now c e = true) : c.state = .password ∨ c.state = .scan := by
  unfold evaluated at h
  split at h <;> simp_all

/-- The machine reacts to an event. -/
def handled (c : BoxStateContext) : BoxEvent → Bool
  | .keyboardKey1 | .keyboardKey2 | .keyboardKey3 => c.state = .home
  | .keyboardEnter _ => c.state = .password
  | .keyboardCancel => c.state = .password || c.state = .badPass || c.state = .presence || c.state = .scan
  | .webOpenBox _ => true
  | .doorOpened doorNum => c.state = .opening && doorNum = c.doorToOpen
  | .doorClosed doorNum => c.state = .opened && doorNum = c.doorToOpen
  | .scannerCodeReceived _ | .scannerFailed | .scannerInvalidCode => c.state = .scan
  | .passwordTimeout => c.state = .password
  | .presenceTimeout => c.state = .presence
  | .ambientTimeout => c.state = .closed
  | .doorOpenTimeout => c.state = .opening
  | .scanTimeout => c.state = .scan
  | .tick | .invalid => false

/-- A sensor event is shown whether or not the machine reacts to it. -/
def notice (dev : Devices W) (e : BoxEvent) (m : Machine W) : Machine W :=
  match e with
  | .doorOpened _ | .doorClosed _ => write dev .setOpenDoorList m
  | _ => m

/-- The credential is verified. -/
def accept (dev : Devices W) (value : List UInt8) (credType : CredType) (m : Machine W) : Machine W :=
  (verify dev value credType m).set ({ · with
    credVerified := true
    scannedCredVerified := credType = .packetNumber
    badPasswordCount := 0 })

/-- A code was bad; the next one is scanned or typed. -/
def refuse (retryScan : Bool) (m : Machine W) : Machine W :=
  m.set fun c => countBadPassword { c with retryScanAfterBadCode := retryScan }

/-- A web request names a door. -/
def request (doorNum : UInt8) (m : Machine W) : Machine W :=
  m.set ({ · with doorToOpen := doorNum, credVerified := false, scannedCredVerified := false })

/-- What an event changes before the transition, and where it leads. -/
inductive Reaction (dev : Devices W) (now : UInt32) (m : Machine W) : BoxEvent → Machine W → BoxState → Prop
  | ignored {e : BoxEvent} : handled m.context e = false → Reaction dev now m e (notice dev e m) m.context.state
  | penalty {e : BoxEvent} : m.context.state = .home → badPasswordOver now m.context = false →
      e = .keyboardKey1 ∨ e = .keyboardKey3 →
      Reaction dev now m e (m.set ({ · with retryScanAfterBadCode := e = .keyboardKey3 })) .badPass
  | password : m.context.state = .home → badPasswordOver now m.context = true →
      Reaction dev now m .keyboardKey1 m .password
  | scan : m.context.state = .home → badPasswordOver now m.context = true → Reaction dev now m .keyboardKey3 m .scan
  | presence : m.context.state = .home → Reaction dev now m .keyboardKey2 m .presence
  | home {e : BoxEvent} : handled m.context e = true → evaluated now m.context e = false → m.context.state ≠ .home →
      (m.context.state = .opening → e = .doorOpenTimeout) → m.context.state ≠ .opened → Reaction dev now m e m .home
  | accepted {e : BoxEvent} {value : List UInt8} {credType : CredType} : evaluated now m.context e = true →
      presented e = some (value, credType) → (dev.verifyCred value credType m.world).1 ≠ doorUnknown →
      Reaction dev now m e (accept dev value credType m) .opening
  | refused {e : BoxEvent} {value : List UInt8} {credType : CredType} : evaluated now m.context e = true →
      presented e = some (value, credType) → (dev.verifyCred value credType m.world).1 = doorUnknown →
      Reaction dev now m e (refuse (credType = .packetNumber) (verify dev value credType m)) .badPass
  | invalidCode : evaluated now m.context .scannerInvalidCode = true →
      Reaction dev now m .scannerInvalidCode (refuse true (m.set ({ · with doorToOpen := doorUnknown }))) .badPass
  | web {doorNum : UInt8} : Reaction dev now m (.webOpenBox doorNum) (request doorNum m) .opening
  | opened : m.context.state = .opening → Reaction dev now m (.doorOpened m.context.doorToOpen)
      (notice dev (.doorOpened m.context.doorToOpen) m) .opened
  | closed : m.context.state = .opened → Reaction dev now m (.doorClosed m.context.doorToOpen)
      (notice dev (.doorClosed m.context.doorToOpen) m) .closed

theorem Reaction.state (h : Reaction dev now m e m' target) : m'.context.state = m.context.state := by
  cases h with
  | ignored => unfold notice; split <;> rfl
  | _ => rfl

theorem transitionTo_self (h : target = m.context.state) : transitionTo dev target now millis m = m := by
  rw [transitionTo, if_pos h]

theorem processEvent_ignored (h : handled m.context e = false) : processEvent dev e now millis m = notice dev e m := by
  cases e with
  | keyboardKey1 | keyboardKey2 | keyboardKey3 | keyboardEnter _ | keyboardCancel =>
    simp only [processEvent, handleKeyboardEvent, notice]
    split <;> simp_all [handled]
  | webOpenBox _ => contradiction
  | doorOpened _ | doorClosed _ =>
    simp only [processEvent, handleSensorEvent, notice]
    split <;> simp_all [handled, write]
  | passwordTimeout | presenceTimeout | ambientTimeout | doorOpenTimeout | scanTimeout =>
    simp only [processEvent, handleTimerEvent, notice]
    rw [if_neg (by simpa [handled, timedState, eq_comm] using h)]
  | scannerCodeReceived _ | scannerFailed | scannerInvalidCode =>
    simp only [processEvent, handleScannerEvent, notice]
    rw [if_pos (by simpa [handled] using h)]
  | tick | invalid => rfl

theorem verify_context (value : List UInt8) (credType : CredType) : (verify dev value credType m).context =
    { m.context with doorToOpen := (dev.verifyCred value credType m.world).1 } := rfl

/-- An evaluated text opens the door it is for, or is refused. -/
theorem processEvent_presented {value : List UInt8} {credType : CredType} (he : evaluated now m.context e = true)
    (hp : presented e = some (value, credType)) : processEvent dev e now millis m =
      if (dev.verifyCred value credType m.world).1 = doorUnknown then
        transitionTo dev .badPass now millis (refuse (credType = .packetNumber) (verify dev value credType m))
      else transitionTo dev .opening now millis (accept dev value credType m) := by
  cases e with
  | keyboardEnter password =>
    obtain ⟨rfl, rfl⟩ := Prod.mk.inj (Option.some.inj hp)
    have hs : m.context.state = .password := by simpa [evaluated] using he
    simp only [processEvent, handleKeyboardEvent, hs, verify_context]
    by_cases hd : (dev.verifyCred password.bytes .password m.world).1 = doorUnknown
    · rw [if_neg (not_not.2 hd), if_pos hd]
      rfl
    · rw [if_pos hd, if_neg hd]
      rfl
  | scannerCodeReceived cred =>
    obtain ⟨rfl, rfl⟩ := Prod.mk.inj (Option.some.inj hp)
    simp only [evaluated, Bool.and_eq_true, decide_eq_true_eq, Bool.not_eq_true'] at he
    simp only [processEvent, handleScannerEvent, he.1, he.2, verify_context]
    by_cases hd : (dev.verifyCred cred.bytes .packetNumber m.world).1 = doorUnknown
    · rw [if_pos hd, if_pos hd]
      rfl
    · rw [if_neg hd, if_neg hd]
      rfl
  | _ => contradiction

/-- Every event is one of the reactions. -/
theorem processEvent_reaction (dev : Devices W) (e : BoxEvent) (now millis : UInt32) (m : Machine W) :
    ∃ m' target, Reaction dev now m e m' target ∧ processEvent dev e now millis m = transitionTo dev target now millis m' := by
  cases hh : handled m.context e with
  | false => exact ⟨_, _, .ignored hh, by rw [processEvent_ignored hh, transitionTo_self]; cases e <;> rfl⟩
  | true =>
    cases hev : evaluated now m.context e with
    | true =>
      -- Two events present a text; a code that is not valid is refused without one.
      cases hp : presented e with
      | some text =>
        obtain ⟨value, credType⟩ := text
        rw [processEvent_presented hev hp]
        by_cases hd : (dev.verifyCred value credType m.world).1 = doorUnknown
        · exact ⟨_, _, .refused hev hp hd, if_pos hd⟩
        · exact ⟨_, _, .accepted hev hp hd, if_neg hd⟩
      | none =>
        cases e with
        | scannerInvalidCode =>
          refine ⟨_, _, .invalidCode hev, ?_⟩
          simp only [evaluated, Bool.and_eq_true, decide_eq_true_eq, Bool.not_eq_true'] at hev
          simp [processEvent, handleScannerEvent, hev.1, hev.2]
          rfl
        | _ => simp [evaluated, presented] at hev hp
    | false =>
      -- The keys 1 and 3 stop at a running delay, the key 2 does not.
      cases e with
      | keyboardKey1 =>
        have hs : m.context.state = .home := by simpa [handled] using hh
        cases hover : badPasswordOver now m.context with
        | true => exact ⟨_, _, .password hs hover, by simp [processEvent, handleKeyboardEvent, hs, hover]⟩
        | false => exact ⟨_, _, .penalty hs hover (by simp), by simp [processEvent, handleKeyboardEvent, hs, hover]⟩
      | keyboardKey3 =>
        have hs : m.context.state = .home := by simpa [handled] using hh
        cases hover : badPasswordOver now m.context with
        | true => exact ⟨_, _, .scan hs hover, by simp [processEvent, handleKeyboardEvent, hs, hover]⟩
        | false => exact ⟨_, _, .penalty hs hover (by simp), by simp [processEvent, handleKeyboardEvent, hs, hover]⟩
      | keyboardKey2 =>
        have hs : m.context.state = .home := by simpa [handled] using hh
        exact ⟨_, _, .presence hs, by simp [processEvent, handleKeyboardEvent, hs]⟩
      | keyboardEnter _ => simp_all [handled, evaluated]
      | keyboardCancel =>
        have hs := hh
        simp only [handled, Bool.or_eq_true, decide_eq_true_eq] at hs
        refine ⟨_, _, .home hh hev (fun h => ?_) (fun h => ?_) fun h => ?_, ?_⟩
        · simp [h] at hs
        · simp [h] at hs
        · simp [h] at hs
        · rcases hs with ((hs | hs) | hs) | hs <;> simp [processEvent, handleKeyboardEvent, hs]
      | webOpenBox doorNum => exact ⟨_, _, .web, rfl⟩
      | doorOpened doorNum =>
        simp only [handled, Bool.and_eq_true, decide_eq_true_eq] at hh
        obtain ⟨hs, rfl⟩ := hh
        refine ⟨_, _, .opened hs, ?_⟩
        simp [processEvent, handleSensorEvent, notice, write, hs]
      | doorClosed doorNum =>
        simp only [handled, Bool.and_eq_true, decide_eq_true_eq] at hh
        obtain ⟨hs, rfl⟩ := hh
        refine ⟨_, _, .closed hs, ?_⟩
        simp [processEvent, handleSensorEvent, notice, write, hs]
      | passwordTimeout | presenceTimeout | ambientTimeout | doorOpenTimeout | scanTimeout =>
        have hs := of_decide_eq_true hh
        refine ⟨_, _, .home hh hev (by simp [hs]) (by simp [hs]) (by simp [hs]), ?_⟩
        exact if_pos (by rw [hs]; rfl)
      | scannerCodeReceived _ | scannerFailed | scannerInvalidCode =>
        have hs : m.context.state = .scan := by simpa [handled] using hh
        refine ⟨_, _, .home hh hev (by simp [hs]) (by simp [hs]) (by simp [hs]), ?_⟩
        simp_all [evaluated, processEvent, handleScannerEvent]
      | tick | invalid => contradiction

/-! ## Time passing -/

/-- What an update does after `refresh`, and where it leads. -/
inductive Elapse (dev : Devices W) (now : UInt32) (m : Machine W) : BoxState → Prop
  | stay : (m.context.state = .opening → dev.readDoorState m.context.doorToOpen m.world ≠ doorOpen) →
      Elapse dev now m m.context.state
  | home : m.context.state ≠ .home → m.context.state ≠ .opened → m.context.state ≠ .badPass →
      (m.context.state = .opening → dev.readDoorState m.context.doorToOpen m.world ≠ doorOpen ∧
        timeoutElapsed m.context.doorOpenStartedAt m.context.doorOpenDuration now = true) → Elapse dev now m .home
  | retry : m.context.state = .badPass →
      timeoutElapsed m.context.badPasswordStartedAt m.context.currentBadPasswordMillis now = true →
      Elapse dev now m (if m.context.retryScanAfterBadCode then .scan else .password)
  | opened : m.context.state = .opening → dev.readDoorState m.context.doorToOpen m.world = doorOpen →
      Elapse dev now m .opened

theorem update_elapse (dev : Devices W) (now millis : UInt32) (m : Machine W) :
    ∃ target, Elapse dev now (refresh dev now m) target ∧
      update dev now millis m = transitionTo dev target now millis (refresh dev now m) := by
  unfold update
  generalize refresh dev now m = r
  dsimp only
  have hstay : r.context.state ≠ .opening → ∃ target, Elapse dev now r target ∧
      r = transitionTo dev target now millis r := fun hne =>
    ⟨_, .stay fun hs => absurd hs hne, by rw [transitionTo_self rfl]⟩
  cases hs : r.context.state with
  | home | opened | external => exact hstay (by simp [hs])
  | password | scan | presence | closed =>
    dsimp only
    split
    · exact ⟨_, .home (by simp [hs]) (by simp [hs]) (by simp [hs]) (by simp [hs]), rfl⟩
    · exact hstay (by simp [hs])
  | badPass =>
    dsimp only
    split
    · rename_i hover
      exact ⟨_, .retry hs hover, rfl⟩
    · exact hstay (by simp [hs])
  | opening =>
    dsimp only
    split
    · rename_i hopen
      exact ⟨_, .opened hs hopen, rfl⟩
    · rename_i hopen
      split
      · rename_i hover
        exact ⟨_, .home (by simp [hs]) (by simp [hs]) (by simp [hs]) fun _ => ⟨hopen, hover⟩, rfl⟩
      · exact ⟨_, .stay fun _ => hopen, by rw [transitionTo_self rfl]⟩

/-! ## The context after a transition -/

@[simp] theorem write_context (d : Display) (m : Machine W) : (write dev d m).context = m.context := rfl

@[simp] theorem write_scannerTestKeepCred (d : Display) (m : Machine W) :
    (write dev d m).scannerTestKeepCred = m.scannerTestKeepCred := rfl

@[simp] theorem setExternal_context (action : UInt8) (m : Machine W) :
    (setExternal dev action m).context = m.context := by
  unfold setExternal; split <;> rfl

@[simp] theorem enableExternal_context (m : Machine W) : (enableExternal dev m).context = m.context :=
  setExternal_context _ _

@[simp] theorem disableExternal_context (m : Machine W) : (disableExternal dev m).context = m.context :=
  setExternal_context _ _

@[simp] theorem notice_context (e : BoxEvent) (m : Machine W) : (notice dev e m).context = m.context := by
  unfold notice; split <;> rfl

/-- The context after the exit action. -/
def exited (c : BoxStateContext) : BoxStateContext :=
  { c with
    passwordEntryStartedAt := if c.state = .password then 0 else c.passwordEntryStartedAt
    currentPasswordEntryMillis := if c.state = .password then 0 else c.currentPasswordEntryMillis
    scanStartedAt := if c.state = .scan then 0 else c.scanStartedAt
    doorOpenStartedAt := if c.state = .opening then 0 else c.doorOpenStartedAt }

theorem onExit_context (m : Machine W) : (onExit dev m.context.state m).context = exited m.context := by
  obtain ⟨⟨state, _⟩, _⟩ := m
  cases state <;> rfl

/-- What every transition does to the context. -/
def moved (target : BoxState) (now : UInt32) (c : BoxStateContext) : BoxStateContext :=
  { exited c with state := target, displayRefreshStartedAt := now, displayRefreshActive := true }

/-- The machine between the exit and the entry action. -/
def between (dev : Devices W) (target : BoxState) (m : Machine W) : Machine W :=
  (onExit dev m.context.state m).set ({ · with state := target })

theorem between_context (target : BoxState) (m : Machine W) :
    (between dev target m).context = { exited m.context with state := target } := by
  rw [between, Machine.set_context, onExit_context]

theorem transitionTo_eq (h : target ≠ m.context.state) : transitionTo dev target now millis m =
    (scheduleNextDisplayRefresh now (onEnter dev target now millis (between dev target m))).call
      (dev.onStateChange m.context.state target now) := if_neg h

/-- The attempt to activate the lock when the machine goes to Opening. -/
def tried (dev : Devices W) (m : Machine W) : Bool × Machine W :=
  activateLock dev (write dev (.writeResponseLine .opening) (disableExternal dev (between dev .opening m)))

theorem tried_context (m : Machine W) : (tried dev m).2.context = { exited m.context with state := .opening } := by
  unfold tried activateLock
  split <;> simp [between_context]

section
variable {c : BoxStateContext}

theorem transitionTo_home (dev : Devices W) (now millis : UInt32) (h : m.context.state ≠ .home) : (transitionTo dev .home now millis m).context =
    { moved .home now m.context with credVerified := false, scannedCredVerified := false } := by
  simp [transitionTo_eq h.symm, scheduleNextDisplayRefresh, onEnter, onEnterHome, between_context, moved]

theorem transitionTo_password (dev : Devices W) (now millis : UInt32) (h : m.context.state ≠ .password) : (transitionTo dev .password now millis m).context =
    { moved .password now m.context with
      retryScanAfterBadCode := false
      badPasswordStartedAt := 0
      currentBadPasswordMillis := 0
      badPasswordActive := false
      currentPasswordEntryMillis := passEntryMillis
      passwordEntryStartedAt := now } := by
  simp [transitionTo_eq h.symm, scheduleNextDisplayRefresh, onEnter, onEnterPassword, between_context, moved]

theorem transitionTo_scan (dev : Devices W) (now millis : UInt32) (h : m.context.state ≠ .scan) : (transitionTo dev .scan now millis m).context =
    { moved .scan now m.context with
      scanStartedAt := now
      credVerified := false
      scannedCredVerified := false
      badPasswordActive := false
      currentBadPasswordMillis := 0 } := by
  simp [transitionTo_eq h.symm, scheduleNextDisplayRefresh, onEnter, onEnterScan, between_context, moved]

theorem transitionTo_presence (dev : Devices W) (now millis : UInt32) (h : m.context.state ≠ .presence) : ∃ code,
    (transitionTo dev .presence now millis m).context =
      { moved .presence now m.context with
        presenceCodeStartedAt := now
        presenceCodeActive := true
        presenceCode := code } := by
  refine ⟨(presenceDigits dev presenceCodeLength (between dev .presence m).world).1, ?_⟩
  simp [transitionTo_eq h.symm, scheduleNextDisplayRefresh, onEnter, onEnterPresence, generatePresenceCode,
    between_context, moved]

theorem transitionTo_opening (dev : Devices W) (now millis : UInt32) (h : m.context.state ≠ .opening) :
    (transitionTo dev .opening now millis m).context =
    { moved .opening now m.context with
      doorOpenStartedAt := millis
      doorOpenDuration := if (tried dev m).1 then doorOpeningTimeout else 0 } := by
  rw [transitionTo_eq h.symm, onEnter, onEnterOpening, ← tried]
  cases htried : (tried dev m).1 <;> simp [htried, scheduleNextDisplayRefresh, tried_context, moved]

theorem transitionTo_opened (dev : Devices W) (now millis : UInt32) (h : m.context.state ≠ .opened) : (transitionTo dev .opened now millis m).context =
    { moved .opened now m.context with credVerified := false, scannedCredVerified := false } := by
  rw [transitionTo_eq h.symm, onEnter, onEnterOpen]
  split <;> simp [scheduleNextDisplayRefresh, between_context, moved]

theorem transitionTo_closed (dev : Devices W) (now millis : UInt32) (h : m.context.state ≠ .closed) : (transitionTo dev .closed now millis m).context =
    { moved .closed now m.context with ambientOffStartedAt := now, doorToOpen := doorUnknown } := by
  simp [transitionTo_eq h.symm, scheduleNextDisplayRefresh, onEnter, onEnterClosed, between_context, moved]

theorem transitionTo_external (dev : Devices W) (now millis : UInt32) (h : m.context.state ≠ .external) :
    (transitionTo dev .external now millis m).context = moved .external now m.context := by
  simp [transitionTo_eq h.symm, scheduleNextDisplayRefresh, onEnter, between_context, moved]

theorem transitionTo_badPass (dev : Devices W) (now millis : UInt32) (h : m.context.state ≠ .badPass) : (transitionTo dev .badPass now millis m).context =
    if badPasswordOver now m.context then
      { moved .badPass now m.context with
        currentBadPasswordMillis := badPasswordDelay m.context.badPasswordCount
        badPasswordStartedAt := now
        badPasswordActive := true }
    else moved .badPass now m.context := by
  rw [transitionTo_eq h.symm, onEnter, onEnterBadPass]
  have hover : badPasswordOver now (write dev (.writeResponseLine
      (if (between dev .badPass m).context.retryScanAfterBadCode then .badScan else .badPass))
      (between dev .badPass m)).context = badPasswordOver now m.context := by
    rw [write_context, between_context]
    rfl
  rw [hover]
  split <;> simp [scheduleNextDisplayRefresh, between_context, moved, exited]

end

theorem transitionTo_state (dev : Devices W) (target : BoxState) (now millis : UInt32) (m : Machine W) :
    (transitionTo dev target now millis m).context.state = target := by
  by_cases h : m.context.state = target
  · rw [transitionTo_self h.symm, h]
  cases target with
  | home => rw [transitionTo_home _ _ _ h]; rfl
  | password => rw [transitionTo_password _ _ _ h]; rfl
  | presence =>
    obtain ⟨code, hc⟩ := transitionTo_presence dev now millis h
    rw [hc]; rfl
  | opening => rw [transitionTo_opening _ _ _ h]; rfl
  | opened => rw [transitionTo_opened _ _ _ h]; rfl
  | closed => rw [transitionTo_closed _ _ _ h]; rfl
  | external => rw [transitionTo_external _ _ _ h]; rfl
  | badPass =>
    rw [transitionTo_badPass _ _ _ h]
    split <;> rfl
  | scan => rw [transitionTo_scan _ _ _ h]; rfl

/-! ## The context after `refresh` -/

theorem refreshPeriodicDisplay_context (now : UInt32) (m : Machine W) :
    (refreshPeriodicDisplay dev now m).2.context = m.context := by
  unfold refreshPeriodicDisplay
  dsimp only
  split
  · rfl
  · dsimp only
    split <;> rfl
  · dsimp only
    split <;> rfl
  all_goals rfl

/-- The context without the flags of timeouts that have ended. -/
def lapsed (now : UInt32) (c : BoxStateContext) : BoxStateContext :=
  { c with
    badPasswordActive :=
      c.badPasswordActive && !timeoutElapsed c.badPasswordStartedAt c.currentBadPasswordMillis now
    presenceCodeActive := c.presenceCodeActive && !timeoutElapsed c.presenceCodeStartedAt presenceCodeMillis now }

theorem endBadPassword_eq (now : UInt32) (c : BoxStateContext) : endBadPassword now c = { c with
    badPasswordActive := c.badPasswordActive &&
      !timeoutElapsed c.badPasswordStartedAt c.currentBadPasswordMillis now } := by
  unfold endBadPassword
  obtain ⟨⟩ := c
  split <;> simp_all

theorem endPresenceCode_eq (now : UInt32) (c : BoxStateContext) : endPresenceCode now c = { c with
    presenceCodeActive := c.presenceCodeActive && !timeoutElapsed c.presenceCodeStartedAt presenceCodeMillis now } := by
  unfold endPresenceCode
  obtain ⟨⟩ := c
  split <;> simp_all

/-- `refresh` also moves the time of the next refresh. -/
theorem refresh_context (dev : Devices W) (now : UInt32) (m : Machine W) : ∃ startedAt active,
    (refresh dev now m).context =
      { lapsed now m.context with displayRefreshStartedAt := startedAt, displayRefreshActive := active } := by
  have hlapsed : ((m.set (endBadPassword now)).set (endPresenceCode now)).context = lapsed now m.context := by
    rw [Machine.set_context, Machine.set_context, endPresenceCode_eq, endBadPassword_eq]
    rfl
  unfold refresh
  dsimp only
  split
  · split
    · refine ⟨now, true, ?_⟩
      rw [scheduleNextDisplayRefresh, Machine.set_context, refreshPeriodicDisplay_context, hlapsed]
    · refine ⟨(lapsed now m.context).displayRefreshStartedAt, false, ?_⟩
      rw [Machine.set_context, refreshPeriodicDisplay_context, hlapsed]
  · exact ⟨(lapsed now m.context).displayRefreshStartedAt, (lapsed now m.context).displayRefreshActive, hlapsed⟩

/-- What `refresh` leaves alone. -/
theorem refresh_eq {α : Type} (f : BoxStateContext → α) (hf : ∀ c bad presence startedAt due, f { c with
      badPasswordActive := bad
      presenceCodeActive := presence
      displayRefreshStartedAt := startedAt
      displayRefreshActive := due } = f c) (m : Machine W) : f (refresh dev now m).context = f m.context := by
  obtain ⟨startedAt, due, h⟩ := refresh_context dev now m
  rw [h]
  exact hf m.context (lapsed now m.context).badPasswordActive (lapsed now m.context).presenceCodeActive startedAt due

theorem refresh_state (m : Machine W) : (refresh dev now m).context.state = m.context.state :=
  refresh_eq (·.state) (fun _ _ _ _ _ => rfl) m

/-- An update does not lead to Opening. -/
theorem update_in_opening (h : (update dev now millis m).context.state = .opening) :
    m.context.state = .opening ∧ update dev now millis m = refresh dev now m := by
  obtain ⟨target, helapse, hu⟩ := update_elapse dev now millis m
  rw [hu, transitionTo_state] at h
  subst h
  have hstate : (refresh dev now m).context.state = .opening := by
    generalize htarget : BoxState.opening = target at helapse
    cases helapse with
    | stay => rfl
    | retry => split at htarget <;> contradiction
    | _ => contradiction
  exact ⟨(refresh_state m).symm.trans hstate, by rw [hu, transitionTo_self hstate.symm]⟩

theorem toNat_badPasswordDelay (n : UInt8) : (badPasswordDelay n).toNat = 5000 * min n.toNat 7 := by
  unfold badPasswordDelay
  split
  · rename_i h
    have h : 7 < n.toNat := h
    rw [Nat.min_eq_right (Nat.le_of_lt h)]
    rfl
  · rename_i h
    have h : ¬7 < n.toNat := h
    rw [Nat.min_eq_left (Nat.not_lt.1 h), UInt32.toNat_mul, UInt32.toNat_mul, UInt8.toNat_toUInt32,
      show passErrDelay.toNat = 5 from rfl]
    simp only [UInt32.reduceToNat]
    omega

/-! ## The rest of the box after a transition -/

/-- A relation kept by the display, the light and the UI. -/
structure Calm (dev : Devices W) (R : W → W → Prop) : Prop where
  refl : ∀ w, R w w
  trans : ∀ {w₁ w₂ w₃ : W}, R w₁ w₂ → R w₂ w₃ → R w₁ w₃
  ambientOn : ∀ w, R w (dev.ambientOn w)
  ambientOff : ∀ w, R w (dev.ambientOff w)
  display : ∀ d w, R w (dev.display d w)
  rand : ∀ w, R w (dev.rand w).2
  onUIUpdate : ∀ action w, R w (dev.onUIUpdate action w)

/-- It is also kept by the state change callback. -/
structure Quiet (dev : Devices W) (R : W → W → Prop) : Prop extends Calm dev R where
  onStateChange : ∀ old new t w, R w (dev.onStateChange old new t w)

/-- The door is opened with a credential that is to be charged. -/
def consumes (m : Machine W) : Bool :=
  m.context.credVerified && !(m.scannerTestKeepCred && m.context.scannedCredVerified)

/-- What entering a state does, before the callback. -/
def entered (dev : Devices W) (target : BoxState) (now millis : UInt32) (m : Machine W) : W :=
  (onEnter dev target now millis (between dev target m)).world

theorem transitionTo_world (h : target ≠ m.context.state) : (transitionTo dev target now millis m).world =
    dev.onStateChange m.context.state target now (entered dev target now millis m) := by
  rw [transitionTo_eq h]
  rfl

section
variable {R : W → W → Prop}

namespace Calm
variable (hq : Calm dev R)
include hq

theorem write (d : Display) (m : Machine W) : R m.world (write dev d m).world := hq.display d m.world

theorem setExternal (action : UInt8) (m : Machine W) : R m.world (setExternal dev action m).world := by
  unfold StateMachine.setExternal
  split
  · exact hq.onUIUpdate _ _
  · exact hq.refl _

theorem presenceDigits (n : Nat) (w : W) : R w (presenceDigits dev n w).2 := by
  induction n generalizing w with
  | zero => exact hq.refl _
  | succ n ih => exact hq.trans (hq.rand w) (ih _)

theorem notice (e : BoxEvent) (m : Machine W) : R m.world (notice dev e m).world := by
  unfold StateMachine.notice
  split
  · exact hq.write _ _
  · exact hq.write _ _
  · exact hq.refl _

theorem between (target : BoxState) (m : Machine W) : R m.world (between dev target m).world := by
  unfold StateMachine.between onExit
  split
  · exact hq.refl _
  · exact hq.refl _
  · exact hq.refl _
  · exact hq.ambientOff _
  · exact hq.refl _

theorem refreshPeriodicDisplay (now : UInt32) (m : Machine W) : R m.world (refreshPeriodicDisplay dev now m).2.world := by
  have hfirst : R m.world (StateMachine.write dev .writeStatusLine (StateMachine.write dev .setOpenDoorList m)).world :=
    hq.trans (hq.write _ _) (hq.write _ _)
  unfold StateMachine.refreshPeriodicDisplay
  dsimp only
  refine hq.trans hfirst ?_
  generalize StateMachine.write dev .writeStatusLine (StateMachine.write dev .setOpenDoorList m) = r
  split
  · exact hq.write _ _
  · dsimp only
    split
    · exact hq.write _ _
    · exact hq.refl _
  · dsimp only
    split
    · exact hq.trans (hq.write _ _) (hq.write _ _)
    · exact hq.write _ _
  · exact hq.write _ _
  · exact hq.write _ _
  · exact hq.refl _

theorem refresh (m : Machine W) : R m.world (refresh dev now m).world := by
  unfold StateMachine.refresh
  dsimp only
  split
  · have hr := hq.refreshPeriodicDisplay now ((m.set (endBadPassword now)).set (endPresenceCode now))
    split <;> exact hr
  · exact hq.refl _

/-- Entering a state without opening a door. -/
theorem entered (ho : target ≠ .opening) (hd : target ≠ .opened) (m : Machine W) :
    R m.world (entered dev target now millis m) := by
  refine hq.trans (hq.between target m) ?_
  unfold StateMachine.entered
  generalize StateMachine.between dev target m = r
  cases target with
  | home =>
    have hext := hq.trans (hq.ambientOff r.world)
      (hq.setExternal uiEnableDoorControls ((r.call dev.ambientOff).set ({ · with credVerified := false })))
    exact hq.trans hext (hq.trans (hq.write _ _) (hq.trans (hq.write _ _) (hq.trans (hq.write _ _) (hq.write _ _))))
  | password =>
    have hext := hq.setExternal uiDisableDoorControls r
    exact hq.trans hext (hq.trans (hq.write _ _) (hq.trans (hq.write _ _) (hq.write _ _)))
  | scan =>
    have hext := hq.setExternal uiDisableDoorControls r
    exact hq.trans hext (hq.trans (hq.write _ _) (hq.trans (hq.write _ _) (hq.write _ _)))
  | presence =>
    have hcode : R r.world (generatePresenceCode dev r).world := hq.presenceDigits presenceCodeLength r.world
    exact hq.trans hcode (hq.trans (hq.write _ _) (hq.trans (hq.write _ _) (hq.write _ _)))
  | closed => exact hq.trans (hq.write _ _) (hq.trans (hq.write _ _) (hq.trans (hq.write _ _) (hq.write _ _)))
  | external => exact hq.refl _
  | badPass =>
    refine hq.trans (hq.write (.writeResponseLine (if r.context.retryScanAfterBadCode then .badScan else .badPass)) r) ?_
    rw [onEnter, onEnterBadPass]
    generalize StateMachine.write dev _ r = r'
    cases hover : badPasswordOver now r'.context <;> exact hq.write _ _
  | opening | opened => contradiction

/-- Entering Opening tries the door that is to be opened, once. -/
theorem opening (now millis : UInt32) (m : Machine W) : ∃ w, R m.world w ∧
    (m.context.doorToOpen = doorUnknown ∧ (tried dev m).1 = false ∧
        R w (StateMachine.entered dev .opening now millis m) ∨
      m.context.doorToOpen ≠ doorUnknown ∧
        (tried dev m).1 = decide ((dev.openDoor m.context.doorToOpen w).1 = m.context.doorToOpen) ∧
        R (dev.openDoor m.context.doorToOpen w).2 (StateMachine.entered dev .opening now millis m)) := by
  have hdoor : (StateMachine.write dev (.writeResponseLine .opening)
      (disableExternal dev (StateMachine.between dev .opening m))).context.doorToOpen = m.context.doorToOpen := by
    rw [write_context, disableExternal_context, between_context]
    rfl
  have hwrite : R m.world (StateMachine.write dev (.writeResponseLine .opening)
      (disableExternal dev (StateMachine.between dev .opening m))).world :=
    hq.trans (hq.between _ _) (hq.trans (hq.setExternal _ _) (hq.write _ _))
  have hlast : R (tried dev m).2.world (StateMachine.entered dev .opening now millis m) := by
    rw [StateMachine.entered, onEnter, onEnterOpening, ← tried]
    cases htried : (tried dev m).1
    · simp only [htried]
      exact hq.refl _
    · simp only [htried]
      exact hq.ambientOn _
  refine ⟨_, hwrite, ?_⟩
  unfold tried activateLock at hlast ⊢
  rw [hdoor] at hlast ⊢
  by_cases hd : m.context.doorToOpen = doorUnknown
  · rw [if_neg (not_not.2 hd)] at hlast ⊢
    exact .inl ⟨hd, rfl, hlast⟩
  · rw [if_pos hd] at hlast ⊢
    exact .inr ⟨hd, rfl, hlast⟩

/-- Entering Open charges the credential, if there is one to charge. -/
theorem opened (now millis : UInt32) (m : Machine W) : ∃ w, R m.world w ∧
    R (if consumes m then (dev.usedCred m.context.doorToOpen w).2 else w) (StateMachine.entered dev .opened now millis m) := by
  refine ⟨_, hq.between .opened m, ?_⟩
  have hcons : consumes (StateMachine.between dev .opened m) = consumes m := by
    obtain ⟨⟨state, _⟩, _⟩ := m
    cases state <;> rfl
  have hdoor : (StateMachine.between dev .opened m).context.doorToOpen = m.context.doorToOpen := by
    rw [between_context]
    rfl
  rw [← hcons, ← hdoor, StateMachine.entered]
  generalize StateMachine.between dev .opened m = r
  rw [onEnter, onEnterOpen]
  change R _ (StateMachine.write dev .writeStatusLine _).world
  refine hq.trans ?_ (hq.trans (hq.write _ _) (hq.trans (hq.write _ _) (hq.trans (hq.write _ _) (hq.write _ _))))
  change R (if consumes r = true then _ else _) (Machine.set _ (if consumes r = true then _ else _)).world
  split <;> exact hq.refl _

/-- Entering any state, when `openDoor` and `usedCred` keep the relation too. -/
theorem entered_all (hopen : ∀ door w, R w (dev.openDoor door w).2) (hused : ∀ door w, R w (dev.usedCred door w).2)
    (m : Machine W) : R m.world (StateMachine.entered dev target now millis m) := by
  by_cases ho : target = .opening
  · subst ho
    obtain ⟨w, hw, ⟨-, -, hlast⟩ | ⟨-, -, hlast⟩⟩ := hq.opening now millis m
    · exact hq.trans hw hlast
    · exact hq.trans hw (hq.trans (hopen _ _) hlast)
  by_cases hd : target = .opened
  · subst hd
    obtain ⟨w, hw, hlast⟩ := hq.opened now millis m
    refine hq.trans hw (hq.trans ?_ hlast)
    split
    · exact hused _ _
    · exact hq.refl _
  · exact hq.entered ho hd m

end Calm

/-- An event that leaves the state alone calls no device but these. -/
theorem Calm.processEvent_same (hq : Calm dev R) (h : (processEvent dev e now millis m).context.state = m.context.state) :
    R m.world (processEvent dev e now millis m).world := by
  obtain ⟨m', target, hreaction, he⟩ := processEvent_reaction dev e now millis m
  rw [he, transitionTo_state] at h
  rw [he, transitionTo_self (h.trans hreaction.state.symm)]
  cases hreaction with
  | ignored | opened | closed => exact hq.notice _ _
  | accepted heval | refused heval =>
    -- A code is verified in states that it leaves.
    rcases evaluated_state heval with hs | hs <;> rw [hs] at h <;> contradiction
  | _ => exact hq.refl _

theorem Calm.update_same (hq : Calm dev R) (h : (update dev now millis m).context.state = m.context.state) :
    R m.world (update dev now millis m).world := by
  obtain ⟨target, -, hu⟩ := update_elapse dev now millis m
  rw [hu, transitionTo_state] at h
  rw [hu, transitionTo_self (h.trans (refresh_state m).symm)]
  exact hq.refresh m

/-- A transition that opens no door. -/
theorem Quiet.transitionTo (hq : Quiet dev R) (ho : target ≠ .opening) (hd : target ≠ .opened) (m : Machine W) :
    R m.world (transitionTo dev target now millis m).world := by
  by_cases h : target = m.context.state
  · rw [transitionTo_self h]
    exact hq.refl _
  · rw [transitionTo_world h]
    exact hq.trans (hq.entered ho hd m) (hq.onStateChange _ _ _ _)

/-- A relation that every call of a device keeps. -/
structure Steady (dev : Devices W) (R : W → W → Prop) : Prop extends Quiet dev R where
  verifyCred : ∀ value credType w, R w (dev.verifyCred value credType w).2
  usedCred : ∀ door w, R w (dev.usedCred door w).2
  openDoor : ∀ door w, R w (dev.openDoor door w).2

namespace Steady
variable (hr : Steady dev R)
include hr

theorem transitionTo (m : Machine W) : R m.world (transitionTo dev target now millis m).world := by
  by_cases h : target = m.context.state
  · rw [transitionTo_self h]
    exact hr.refl _
  · rw [transitionTo_world h]
    exact hr.trans (hr.entered_all hr.openDoor hr.usedCred m) (hr.onStateChange _ _ _ _)

theorem reaction (h : Reaction dev now m e m' target) : R m.world m'.world := by
  cases h with
  | ignored | opened | closed => exact hr.notice _ _
  | accepted | refused => exact hr.verifyCred _ _ _
  | _ => exact hr.refl _

theorem processEvent (m : Machine W) : R m.world (processEvent dev e now millis m).world := by
  obtain ⟨m', target, h, he⟩ := processEvent_reaction dev e now millis m
  rw [he]
  exact hr.trans (hr.reaction h) (hr.transitionTo _)

theorem update (m : Machine W) : R m.world (update dev now millis m).world := by
  obtain ⟨target, -, hu⟩ := update_elapse dev now millis m
  rw [hu]
  exact hr.trans (hr.refresh m) (hr.transitionTo _)

end Steady

end

end OrangeBox.StateMachine
