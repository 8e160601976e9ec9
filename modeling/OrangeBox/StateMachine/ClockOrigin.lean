import OrangeBox.StateMachine.Reactions
/-!
# Two machines with shifted clocks

The second machine reads a clock that is `k` ahead of the first one's. Two
contexts are `Delayed` when they differ in timestamps only, and the timestamps
that the state looks at differ by `k`. Every operation keeps this, whatever
the zeroed timestamps are, as long as the devices answer alike (`Blind`).
-/
open OrangeBox.PassStore

namespace OrangeBox.StateMachine

variable {W : Type} {dev : Devices W} {k : UInt32} {R : W → W → Prop} {m m' : Machine W} {c c' : BoxStateContext}
  {e : BoxEvent} {target : BoxState} {now millis : UInt32}

/-- The devices answer alike in related states, and keep them related. -/
structure Answers (dev : Devices W) (R : W → W → Prop) : Prop where
  verifyCred : ∀ value credType {w w'}, R w w' → (dev.verifyCred value credType w').1 = (dev.verifyCred value credType w).1 ∧
    R (dev.verifyCred value credType w).2 (dev.verifyCred value credType w').2
  usedCred : ∀ door {w w'}, R w w' → R (dev.usedCred door w).2 (dev.usedCred door w').2
  openDoor : ∀ door {w w'}, R w w' → (dev.openDoor door w').1 = (dev.openDoor door w).1 ∧
    R (dev.openDoor door w).2 (dev.openDoor door w').2
  readDoorState : ∀ door {w w'}, R w w' → dev.readDoorState door w' = dev.readDoorState door w
  ambientOn : ∀ {w w'}, R w w' → R (dev.ambientOn w) (dev.ambientOn w')
  ambientOff : ∀ {w w'}, R w w' → R (dev.ambientOff w) (dev.ambientOff w')
  display : ∀ d {w w'}, R w w' → R (dev.display d w) (dev.display d w')
  rand : ∀ {w w'}, R w w' → (dev.rand w').1 = (dev.rand w).1 ∧ R (dev.rand w).2 (dev.rand w').2
  onUIUpdate : ∀ action {w w'}, R w w' → R (dev.onUIUpdate action w) (dev.onUIUpdate action w')

/-- So does the state change callback, `k` later. -/
structure Blind (dev : Devices W) (k : UInt32) (R : W → W → Prop) : Prop extends Answers dev R where
  onStateChange : ∀ old new t {w w'}, R w w' → R (dev.onStateChange old new t w) (dev.onStateChange old new (t + k) w')

/-! ## Contexts -/

/-- The context without its timestamps. -/
def timeless (c : BoxStateContext) : BoxStateContext :=
  { c with
    scanStartedAt := 0
    doorOpenStartedAt := 0
    passwordEntryStartedAt := 0
    badPasswordStartedAt := 0
    presenceCodeStartedAt := 0
    ambientOffStartedAt := 0
    displayRefreshStartedAt := 0 }

/-- The timestamps that are looked at differ by `k`. -/
structure Shifted (k : UInt32) (c c' : BoxStateContext) : Prop where
  scan : c.state = .scan → c'.scanStartedAt = c.scanStartedAt + k
  opening : c.state = .opening → c'.doorOpenStartedAt = c.doorOpenStartedAt + k
  password : c.state = .password → c'.passwordEntryStartedAt = c.passwordEntryStartedAt + k
  closed : c.state = .closed → c'.ambientOffStartedAt = c.ambientOffStartedAt + k
  badPassword : c.badPasswordActive = true ∨ c.state = .badPass → c'.badPasswordStartedAt = c.badPasswordStartedAt + k
  presence : c.presenceCodeActive = true ∨ c.state = .presence → c'.presenceCodeStartedAt = c.presenceCodeStartedAt + k
  refresh : c.displayRefreshActive = true → c'.displayRefreshStartedAt = c.displayRefreshStartedAt + k

structure Delayed (k : UInt32) (c c' : BoxStateContext) : Prop extends Shifted k c c' where
  same : timeless c' = timeless c

/-- What does not look at the timestamps is the same. -/
theorem eq_of_timeless {α : Type} (h : timeless c' = timeless c) (f : BoxStateContext → α)
    (hf : ∀ c, f (timeless c) = f c) : f c' = f c := by
  rw [← hf c', h, hf c]

theorem Delayed.over (h : Delayed k c c') (now : UInt32) : badPasswordOver (now + k) c' = badPasswordOver now c := by
  have hactive : c'.badPasswordActive = c.badPasswordActive := eq_of_timeless h.same (·.badPasswordActive) fun _ => rfl
  have hmillis : c'.currentBadPasswordMillis = c.currentBadPasswordMillis :=
    eq_of_timeless h.same (·.currentBadPasswordMillis) fun _ => rfl
  unfold badPasswordOver
  rw [hactive, hmillis]
  cases hc : c.badPasswordActive with
  | false => rfl
  | true => rw [h.badPassword (.inl hc), timeoutElapsed_add]

/-! ## Machines -/

/-- The machines differ in timestamps only. -/
structure Near (R : W → W → Prop) (m m' : Machine W) : Prop where
  context : timeless m'.context = timeless m.context
  lastUIAction : m'.lastUIAction = m.lastUIAction
  keep : m'.scannerTestKeepCred = m.scannerTestKeepCred
  world : R m.world m'.world

/-- And the ones that matter are shifted. -/
structure Alike (k : UInt32) (R : W → W → Prop) (m m' : Machine W) : Prop extends Near R m m' where
  shifted : Shifted k m.context m'.context

theorem Alike.delayed (h : Alike k R m m') : Delayed k m.context m'.context := ⟨h.shifted, h.context⟩

namespace Near

theorem field {α : Type} (h : Near R m m') (f : BoxStateContext → α) (hf : ∀ c, f (timeless c) = f c) :
    f m'.context = f m.context := eq_of_timeless h.context f hf

theorem state (h : Near R m m') : m'.context.state = m.context.state := h.field (·.state) fun _ => rfl

theorem doorToOpen (h : Near R m m') : m'.context.doorToOpen = m.context.doorToOpen := h.field (·.doorToOpen) fun _ => rfl

/-- Changes of the context that agree up to timestamps. -/
theorem set (h : Near R m m') (f f' : BoxStateContext → BoxStateContext)
    (hf : ∀ c, timeless (f c) = timeless (f (timeless c))) (hf' : ∀ c, timeless (f' c) = timeless (f (timeless c))) :
    Near R (m.set f) (m'.set f') where
  context := by
    rw [Machine.set_context, Machine.set_context, hf', h.context, ← hf]
  lastUIAction := h.lastUIAction
  keep := h.keep
  world := h.world

theorem call (h : Near R m m') {g g' : W → W} (hg : R (g m.world) (g' m'.world)) : Near R (m.call g) (m'.call g') :=
  ⟨h.context, h.lastUIAction, h.keep, hg⟩

/-- The next refresh is due at the same time. -/
theorem schedule (h : Near R m m') (now : UInt32) :
    Near R (scheduleNextDisplayRefresh now m) (scheduleNextDisplayRefresh (now + k) m') :=
  h.set ({ · with displayRefreshStartedAt := now, displayRefreshActive := true })
    ({ · with displayRefreshStartedAt := now + k, displayRefreshActive := true }) (fun _ => rfl) fun _ => rfl

variable (hb : Answers dev R)
include hb

theorem write (d : Display) (h : Near R m m') : Near R (write dev d m) (write dev d m') := h.call (hb.display d h.world)

theorem setExternal (action : UInt8) (h : Near R m m') : Near R (setExternal dev action m) (setExternal dev action m') := by
  unfold StateMachine.setExternal
  rw [h.lastUIAction]
  split
  · exact ⟨h.context, rfl, h.keep, hb.onUIUpdate action h.world⟩
  · exact h

theorem activateLock (h : Near R m m') : (activateLock dev m').1 = (activateLock dev m).1 ∧
    Near R (activateLock dev m).2 (activateLock dev m').2 := by
  unfold StateMachine.activateLock
  rw [h.doorToOpen]
  split
  · obtain ⟨hanswer, hworld⟩ := hb.openDoor m.context.doorToOpen h.world
    dsimp only
    rw [hanswer]
    exact ⟨rfl, h.context, h.lastUIAction, h.keep, hworld⟩
  · exact ⟨rfl, h⟩

end Near

theorem Answers.presenceDigits (hb : Answers dev R) (n : Nat) {w w' : W} (h : R w w') :
    (presenceDigits dev n w').1 = (presenceDigits dev n w).1 ∧
      R (presenceDigits dev n w).2 (presenceDigits dev n w').2 := by
  induction n generalizing w w' with
  | zero => exact ⟨rfl, h⟩
  | succ n ih =>
    obtain ⟨hrandom, hnext⟩ := hb.rand h
    obtain ⟨hdigits, hlast⟩ := ih hnext
    unfold StateMachine.presenceDigits
    dsimp only
    rw [hrandom, hdigits]
    exact ⟨rfl, hlast⟩

/-! ## Entry and exit actions -/

namespace Near
variable (hb : Answers dev R)
include hb

theorem onEnterHome (h : Near R m m') : Near R (onEnterHome dev m) (onEnterHome dev m') := by
  refine write hb _ (write hb _ (write hb _ (write hb _ ?_)))
  refine set (setExternal hb _ ?_) _ _ (fun _ => rfl) fun _ => rfl
  exact (h.call (hb.ambientOff h.world)).set _ _ (fun _ => rfl) fun _ => rfl

theorem onEnterPassword (h : Near R m m') : Near R (onEnterPassword dev now m) (onEnterPassword dev (now + k) m') := by
  refine write hb _ (set (write hb _ (write hb _ ?_)) _ _ (fun _ => rfl) fun _ => rfl)
  exact (h.setExternal hb _).set _ _ (fun _ => rfl) fun _ => rfl

theorem onEnterScan (h : Near R m m') : Near R (onEnterScan dev now m) (onEnterScan dev (now + k) m') := by
  refine write hb _ (write hb _ (write hb _ ?_))
  exact (h.setExternal hb _).set _ _ (fun _ => rfl) fun _ => rfl

theorem onEnterPresence (h : Near R m m') : Near R (onEnterPresence dev now m) (onEnterPresence dev (now + k) m') := by
  obtain ⟨hdigits, hworld⟩ := hb.presenceDigits presenceCodeLength h.world
  have hcode : Near R (generatePresenceCode dev m) (generatePresenceCode dev m') := by
    refine ⟨?_, h.lastUIAction, h.keep, hworld⟩
    unfold generatePresenceCode
    dsimp only
    rw [hdigits]
    exact congrArg (fun c => { c with presenceCode := (presenceDigits dev presenceCodeLength m.world).1 }) h.context
  have hinfo : Near R
      (StateMachine.write dev (.writeInfoLine .cancel) ((generatePresenceCode dev m).set
        ({ · with presenceCodeStartedAt := now, presenceCodeActive := true })))
      (StateMachine.write dev (.writeInfoLine .cancel) ((generatePresenceCode dev m').set
        ({ · with presenceCodeStartedAt := now + k, presenceCodeActive := true }))) :=
    write hb _ (hcode.set ({ · with presenceCodeStartedAt := now, presenceCodeActive := true })
      ({ · with presenceCodeStartedAt := now + k, presenceCodeActive := true }) (fun _ => rfl) fun _ => rfl)
  unfold StateMachine.onEnterPresence
  dsimp only
  rw [hinfo.field (·.presenceCode) fun _ => rfl]
  exact write hb _ (write hb _ hinfo)

theorem onEnterOpening (h : Near R m m') : Near R (onEnterOpening dev millis m) (onEnterOpening dev (millis + k) m') := by
  obtain ⟨hanswer, hnear⟩ := activateLock hb (write hb (.writeResponseLine .opening) (h.setExternal hb uiDisableDoorControls))
  unfold StateMachine.onEnterOpening disableExternal
  dsimp only
  rw [hanswer]
  split
  · exact call (hnear.set ({ · with doorOpenStartedAt := millis, doorOpenDuration := doorOpeningTimeout })
      ({ · with doorOpenStartedAt := millis + k, doorOpenDuration := doorOpeningTimeout }) (fun _ => rfl) fun _ => rfl)
      (hb.ambientOn hnear.world)
  · exact hnear.set _ _ (fun _ => rfl) fun _ => rfl

theorem onEnterOpen (h : Near R m m') : Near R (onEnterOpen dev m) (onEnterOpen dev m') := by
  have hconsumes : consumes m' = consumes m := by
    unfold consumes
    rw [h.keep, h.field (·.credVerified) fun _ => rfl, h.field (·.scannedCredVerified) fun _ => rfl]
  refine write hb _ (write hb _ (write hb _ (write hb _ (set ?_ _ _ (fun _ => rfl) fun _ => rfl))))
  change Near R (if consumes m then _ else _) (if consumes m' then _ else _)
  rw [hconsumes, h.doorToOpen]
  split
  · exact h.call (hb.usedCred _ h.world)
  · exact h

theorem onEnterClosed (h : Near R m m') : Near R (onEnterClosed dev now m) (onEnterClosed dev (now + k) m') := by
  have hlines := write hb .writeStatusLine (write hb (.writeResponseLine .empty) (write hb (.writeInfoLine .empty)
    (write hb (.writeActionLine .closeThx) h)))
  exact hlines.set ({ · with ambientOffStartedAt := now, doorToOpen := doorUnknown })
    ({ · with ambientOffStartedAt := now + k, doorToOpen := doorUnknown }) (fun _ => rfl) fun _ => rfl

theorem onEnterBadPass (h : Near R m m') (hover : badPasswordOver (now + k) m'.context = badPasswordOver now m.context) :
    Near R (onEnterBadPass dev now m) (onEnterBadPass dev (now + k) m') := by
  unfold StateMachine.onEnterBadPass
  dsimp only
  rw [h.field (·.retryScanAfterBadCode) fun _ => rfl]
  have hline := write hb (.writeResponseLine (if m.context.retryScanAfterBadCode then .badScan else .badPass)) h
  rw [write_context, write_context, hover]
  refine write hb _ ?_
  split
  · exact hline.set _ _ (fun _ => rfl) fun _ => rfl
  · exact hline

theorem between (h : Near R m m') (target : BoxState) : Near R (between dev target m) (between dev target m') := by
  have hexit : Near R (onExit dev m.context.state m) (onExit dev m'.context.state m') := by
    rw [h.state]
    unfold onExit
    split
    · exact h.set _ _ (fun _ => rfl) fun _ => rfl
    · exact h.set _ _ (fun _ => rfl) fun _ => rfl
    · exact h.set _ _ (fun _ => rfl) fun _ => rfl
    · exact h.call (hb.ambientOff h.world)
    · exact h
  exact hexit.set _ _ (fun _ => rfl) fun _ => rfl

theorem onEnter (h : Near R m m') (hover : target = .badPass → badPasswordOver (now + k) m'.context = badPasswordOver now m.context) :
    Near R (onEnter dev target now millis m) (onEnter dev target (now + k) (millis + k) m') := by
  cases target with
  | home => exact h.onEnterHome hb
  | password => exact h.onEnterPassword hb
  | presence => exact h.onEnterPresence hb
  | opening => exact h.onEnterOpening hb
  | opened => exact h.onEnterOpen hb
  | closed => exact h.onEnterClosed hb
  | external => exact h
  | badPass => exact h.onEnterBadPass hb (hover rfl)
  | scan => exact h.onEnterScan hb

end Near

/-! ## Transitions -/

/-- The timestamps after a transition. -/
theorem Alike.moved (h : Alike k R m m') (dev : Devices W) (target : BoxState) (now millis : UInt32)
    (hne : target ≠ m.context.state) : Shifted k (transitionTo dev target now millis m).context
      (transitionTo dev target (now + k) (millis + k) m').context := by
  have hne' : target ≠ m'.context.state := h.state ▸ hne
  -- A running delay and a code that is valid are not touched by most transitions.
  have hbad := fun h' => h.shifted.badPassword (.inl h')
  have hpresence := fun h' => h.shifted.presence (.inl h')
  cases target with
  | home =>
    rw [transitionTo_home _ _ _ hne.symm, transitionTo_home _ _ _ hne'.symm]
    constructor <;> simp [StateMachine.moved, exited] <;> assumption
  | password =>
    rw [transitionTo_password _ _ _ hne.symm, transitionTo_password _ _ _ hne'.symm]
    constructor <;> simp [StateMachine.moved, exited]
    assumption
  | presence =>
    obtain ⟨code, hc⟩ := transitionTo_presence dev now millis hne.symm
    obtain ⟨code', hc'⟩ := transitionTo_presence dev (now + k) (millis + k) hne'.symm
    rw [hc, hc']
    constructor <;> simp [StateMachine.moved, exited]
    assumption
  | opening =>
    rw [transitionTo_opening _ _ _ hne.symm, transitionTo_opening _ _ _ hne'.symm]
    constructor <;> simp [StateMachine.moved, exited] <;> assumption
  | opened =>
    rw [transitionTo_opened _ _ _ hne.symm, transitionTo_opened _ _ _ hne'.symm]
    constructor <;> simp [StateMachine.moved, exited] <;> assumption
  | closed =>
    rw [transitionTo_closed _ _ _ hne.symm, transitionTo_closed _ _ _ hne'.symm]
    constructor <;> simp [StateMachine.moved, exited] <;> assumption
  | external =>
    rw [transitionTo_external _ _ _ hne.symm, transitionTo_external _ _ _ hne'.symm]
    constructor <;> simp [StateMachine.moved, exited] <;> assumption
  | badPass =>
    rw [transitionTo_badPass _ _ _ hne.symm, transitionTo_badPass _ _ _ hne'.symm, h.delayed.over]
    split
    · constructor <;> simp [StateMachine.moved, exited]
      assumption
    · rename_i hover
      have hactive : m.context.badPasswordActive = true := by
        unfold badPasswordOver at hover
        simp only [Bool.or_eq_true, Bool.not_eq_true', not_or, Bool.not_eq_false] at hover
        exact hover.1
      constructor <;> simp [StateMachine.moved, exited, hbad hactive]
      assumption
  | scan =>
    rw [transitionTo_scan _ _ _ hne.symm, transitionTo_scan _ _ _ hne'.symm]
    constructor <;> simp [StateMachine.moved, exited]
    assumption

theorem Alike.transitionTo (h : Alike k R m m') (hb : Blind dev k R) (target : BoxState) (now millis : UInt32) :
    Alike k R (transitionTo dev target now millis m) (transitionTo dev target (now + k) (millis + k) m') := by
  by_cases hself : target = m.context.state
  · rw [transitionTo_self hself, transitionTo_self (hself.trans h.state.symm)]
    exact h
  refine ⟨?_, h.moved dev target now millis hself⟩
  rw [transitionTo_eq hself, transitionTo_eq (h.state ▸ hself), h.state]
  have hover : target = .badPass → badPasswordOver (now + k) (between dev target m').context =
      badPasswordOver now (between dev target m).context := fun _ => by
    rw [between_context, between_context]
    exact h.delayed.over now
  have henter : Near R (onEnter dev target now millis (between dev target m))
      (onEnter dev target (now + k) (millis + k) (between dev target m')) := (h.toNear.between hb.toAnswers target).onEnter hb.toAnswers hover
  exact (henter.schedule now).call (hb.onStateChange _ _ _ henter.world)

/-! ## Events -/

/-- What `Shifted` looks at. -/
def stamps (c : BoxStateContext) : (BoxState × Bool × Bool × Bool) × List UInt32 :=
  ((c.state, c.badPasswordActive, c.presenceCodeActive, c.displayRefreshActive),
    [c.scanStartedAt, c.doorOpenStartedAt, c.passwordEntryStartedAt, c.badPasswordStartedAt, c.presenceCodeStartedAt,
      c.ambientOffStartedAt, c.displayRefreshStartedAt])

theorem Shifted.congr {d d' : BoxStateContext} (h : Shifted k c c') (hd : stamps d = stamps c) (hd' : stamps d' = stamps c') :
    Shifted k d d' := by
  simp only [stamps, Prod.mk.injEq, List.cons.injEq, and_true] at hd hd'
  obtain ⟨⟨hs, hb, hp, hr⟩, h1, h2, h3, h4, h5, h6, h7⟩ := hd
  obtain ⟨-, h1', h2', h3', h4', h5', h6', h7'⟩ := hd'
  constructor
  · rw [hs, h1, h1']; exact h.scan
  · rw [hs, h2, h2']; exact h.opening
  · rw [hs, h3, h3']; exact h.password
  · rw [hs, h6, h6']; exact h.closed
  · rw [hs, hb, h4, h4']; exact h.badPassword
  · rw [hs, hp, h5, h5']; exact h.presence
  · rw [hr, h7, h7']; exact h.refresh

namespace Alike

/-- A change of what is not a timestamp. -/
theorem set (h : Alike k R m m') (f : BoxStateContext → BoxStateContext)
    (hf : ∀ c, timeless (f c) = timeless (f (timeless c))) (hs : ∀ c, stamps (f c) = stamps c) :
    Alike k R (m.set f) (m'.set f) :=
  ⟨h.toNear.set f f hf fun c => hf c, h.shifted.congr (hs _) (hs _)⟩

variable (hb : Blind dev k R)
include hb

theorem write (h : Alike k R m m') (d : Display) : Alike k R (write dev d m) (write dev d m') :=
  ⟨h.toNear.write hb.toAnswers d, h.shifted⟩

theorem verify (h : Alike k R m m') (value : List UInt8) (credType : CredType) :
    Alike k R (verify dev value credType m) (verify dev value credType m') := by
  obtain ⟨hanswer, hworld⟩ := hb.verifyCred value credType h.world
  refine ⟨⟨?_, h.lastUIAction, h.keep, hworld⟩, h.shifted.congr rfl rfl⟩
  rw [verify_context, verify_context, hanswer]
  exact congrArg (fun c => { c with doorToOpen := (dev.verifyCred value credType m.world).1 }) h.context

theorem handleKeyboardEvent (h : Alike k R m m') (e : BoxEvent) (now millis : UInt32) :
    Alike k R (handleKeyboardEvent dev e now millis m) (handleKeyboardEvent dev e (now + k) (millis + k) m') := by
  have hover := h.delayed.over now
  have hmove : ∀ {r r' : Machine W} (target : BoxState), Alike k R r r' →
      Alike k R (StateMachine.transitionTo dev target now millis r)
        (StateMachine.transitionTo dev target (now + k) (millis + k) r') := fun target hr => hr.transitionTo hb target now millis
  unfold StateMachine.handleKeyboardEvent
  rw [h.state]
  split
  · rw [hover]
    split
    · exact hmove _ (h.set _ (fun _ => rfl) fun _ => rfl)
    · exact hmove _ h
  · exact hmove _ h
  · rw [hover]
    split
    · exact hmove _ (h.set _ (fun _ => rfl) fun _ => rfl)
    · exact hmove _ h
  · rename_i password _
    have hverify := h.verify hb password.bytes .password
    dsimp only
    rw [hverify.doorToOpen]
    split
    · exact hmove _ (hverify.set _ (fun _ => rfl) fun _ => rfl)
    · exact hmove _ (hverify.set _ (fun _ => rfl) fun _ => rfl)
  · exact hmove _ h
  · exact hmove _ h
  · exact hmove _ h
  · exact hmove _ h
  · exact h

theorem handleScannerEvent (h : Alike k R m m') (e : BoxEvent) (now millis : UInt32) :
    Alike k R (handleScannerEvent dev e now millis m) (handleScannerEvent dev e (now + k) (millis + k) m') := by
  unfold StateMachine.handleScannerEvent
  rw [h.state]
  by_cases hs : m.context.state = .scan
  swap
  · rw [if_pos hs, if_pos hs]
    exact h
  rw [if_neg (not_not.2 hs), if_neg (not_not.2 hs), h.shifted.scan hs, timeoutElapsed_add]
  split
  · exact h.transitionTo hb _ _ _
  have hmove : ∀ {r r' : Machine W} (target : BoxState), Alike k R r r' →
      Alike k R (StateMachine.transitionTo dev target now millis r)
        (StateMachine.transitionTo dev target (now + k) (millis + k) r') := fun target hr => hr.transitionTo hb target now millis
  have hdecide : ∀ {r r' : Machine W}, Alike k R r r' → Alike k R
      (if r.context.doorToOpen = doorUnknown then
        StateMachine.transitionTo dev .badPass now millis
          (r.set fun c => countBadPassword { c with retryScanAfterBadCode := true })
      else StateMachine.transitionTo dev .opening now millis (r.set ({ · with
        credVerified := true
        scannedCredVerified := true
        badPasswordCount := 0 })))
      (if r'.context.doorToOpen = doorUnknown then
        StateMachine.transitionTo dev .badPass (now + k) (millis + k)
          (r'.set fun c => countBadPassword { c with retryScanAfterBadCode := true })
      else StateMachine.transitionTo dev .opening (now + k) (millis + k) (r'.set ({ · with
        credVerified := true
        scannedCredVerified := true
        badPasswordCount := 0 }))) := by
    intro r r' hr
    rw [hr.doorToOpen]
    split
    · exact hmove _ (hr.set _ (fun _ => rfl) fun _ => rfl)
    · exact hmove _ (hr.set _ (fun _ => rfl) fun _ => rfl)
  cases e with
  | scannerCodeReceived cred => exact hdecide (h.verify hb _ _)
  | _ => exact hdecide (h.set _ (fun _ => rfl) fun _ => rfl)

theorem handleSensorEvent (h : Alike k R m m') (e : BoxEvent) (now millis : UInt32) :
    Alike k R (handleSensorEvent dev e now millis m) (handleSensorEvent dev e (now + k) (millis + k) m') := by
  have hwrite := h.write hb .setOpenDoorList
  unfold StateMachine.handleSensorEvent
  dsimp only
  rw [hwrite.state, hwrite.doorToOpen]
  split
  · split
    · exact hwrite.transitionTo hb _ _ _
    · exact hwrite
  · split
    · exact hwrite.transitionTo hb _ _ _
    · exact hwrite
  · exact hwrite

theorem handleTimerEvent (h : Alike k R m m') (e : BoxEvent) (now millis : UInt32) :
    Alike k R (handleTimerEvent dev e now millis m) (handleTimerEvent dev e (now + k) (millis + k) m') := by
  unfold StateMachine.handleTimerEvent
  rw [h.state]
  split
  · exact h.transitionTo hb _ _ _
  · exact h

theorem processEvent (h : Alike k R m m') (e : BoxEvent) (now millis : UInt32) :
    Alike k R (processEvent dev e now millis m) (processEvent dev e (now + k) (millis + k) m') := by
  cases e with
  | keyboardKey1 | keyboardKey2 | keyboardKey3 | keyboardEnter _ | keyboardCancel => exact h.handleKeyboardEvent hb _ _ _
  | webOpenBox doorNum =>
    have hrequest := h.set ({ · with doorToOpen := doorNum, credVerified := false, scannedCredVerified := false })
      (fun _ => rfl) fun _ => rfl
    exact hrequest.transitionTo hb _ _ _
  | doorOpened _ | doorClosed _ => exact h.handleSensorEvent hb _ _ _
  | passwordTimeout | presenceTimeout | ambientTimeout | doorOpenTimeout | scanTimeout => exact h.handleTimerEvent hb _ _ _
  | scannerCodeReceived _ | scannerFailed | scannerInvalidCode => exact h.handleScannerEvent hb _ _ _
  | tick | invalid => exact h

end Alike

/-! ## Time -/

namespace Alike

theorem endBadPassword (h : Alike k R m m') (now : UInt32) :
    Alike k R (m.set (endBadPassword now)) (m'.set (endBadPassword (now + k))) := by
  have hactive : m'.context.badPasswordActive = m.context.badPasswordActive := h.field _ fun _ => rfl
  have hmillis : m'.context.currentBadPasswordMillis = m.context.currentBadPasswordMillis := h.field _ fun _ => rfl
  have hvalue : (m'.context.badPasswordActive &&
        !timeoutElapsed m'.context.badPasswordStartedAt m'.context.currentBadPasswordMillis (now + k)) =
      (m.context.badPasswordActive &&
        !timeoutElapsed m.context.badPasswordStartedAt m.context.currentBadPasswordMillis now) := by
    rw [hactive, hmillis]
    cases hc : m.context.badPasswordActive with
    | false => rfl
    | true => rw [h.shifted.badPassword (.inl hc), timeoutElapsed_add]
  have hleft := endBadPassword_eq now m.context
  have hright := endBadPassword_eq (now + k) m'.context
  rw [hvalue] at hright
  generalize hbool : (m.context.badPasswordActive &&
    !timeoutElapsed m.context.badPasswordStartedAt m.context.currentBadPasswordMillis now) = active at hleft hright
  refine ⟨⟨?_, h.lastUIAction, h.keep, h.world⟩, ?_⟩
  · rw [Machine.set_context, Machine.set_context, hleft, hright]
    exact congrArg (fun c => { c with badPasswordActive := active }) h.context
  · rw [Machine.set_context, Machine.set_context, hleft, hright]
    refine ⟨h.shifted.scan, h.shifted.opening, h.shifted.password, h.shifted.closed, fun hc => ?_, h.shifted.presence,
      h.shifted.refresh⟩
    refine h.shifted.badPassword (hc.imp_left fun ha => ?_)
    exact (Bool.and_eq_true_iff.1 (hbool.trans ha)).1

theorem endPresenceCode (h : Alike k R m m') (now : UInt32) :
    Alike k R (m.set (endPresenceCode now)) (m'.set (endPresenceCode (now + k))) := by
  have hactive : m'.context.presenceCodeActive = m.context.presenceCodeActive := h.field _ fun _ => rfl
  have hvalue : (m'.context.presenceCodeActive &&
        !timeoutElapsed m'.context.presenceCodeStartedAt presenceCodeMillis (now + k)) =
      (m.context.presenceCodeActive && !timeoutElapsed m.context.presenceCodeStartedAt presenceCodeMillis now) := by
    rw [hactive]
    cases hc : m.context.presenceCodeActive with
    | false => rfl
    | true => rw [h.shifted.presence (.inl hc), timeoutElapsed_add]
  have hleft := endPresenceCode_eq now m.context
  have hright := endPresenceCode_eq (now + k) m'.context
  rw [hvalue] at hright
  generalize hbool : (m.context.presenceCodeActive &&
    !timeoutElapsed m.context.presenceCodeStartedAt presenceCodeMillis now) = active at hleft hright
  refine ⟨⟨?_, h.lastUIAction, h.keep, h.world⟩, ?_⟩
  · rw [Machine.set_context, Machine.set_context, hleft, hright]
    exact congrArg (fun c => { c with presenceCodeActive := active }) h.context
  · rw [Machine.set_context, Machine.set_context, hleft, hright]
    refine ⟨h.shifted.scan, h.shifted.opening, h.shifted.password, h.shifted.closed, h.shifted.badPassword, fun hc => ?_,
      h.shifted.refresh⟩
    refine h.shifted.presence (hc.imp_left fun ha => ?_)
    exact (Bool.and_eq_true_iff.1 (hbool.trans ha)).1

theorem percentLeft_add (start length now k : UInt32) :
    percentLeft (start + k) length (now + k) = percentLeft start length now := by
  rw [percentLeft, timeoutRemaining_add]
  rfl

/-- The code the web client has to know. -/
theorem isPresenceCodeValid (h : Alike k R m m') (now : UInt32) :
    isPresenceCodeValid (now + k) m' = isPresenceCodeValid now m := by
  have hactive : m'.context.presenceCodeActive = m.context.presenceCodeActive := h.field _ fun _ => rfl
  unfold StateMachine.isPresenceCodeValid
  rw [hactive]
  cases hc : m.context.presenceCodeActive with
  | false => rfl
  | true => rw [h.shifted.presence (.inl hc), timeoutElapsed_add]

theorem isDisplayRefreshDue (h : Alike k R m m') (now : UInt32) :
    isDisplayRefreshDue (now + k) m' = isDisplayRefreshDue now m := by
  have hactive : m'.context.displayRefreshActive = m.context.displayRefreshActive := h.field _ fun _ => rfl
  unfold StateMachine.isDisplayRefreshDue
  rw [hactive]
  cases hc : m.context.displayRefreshActive with
  | false => rfl
  | true => rw [h.shifted.refresh hc, timeoutElapsed_add]

variable (hb : Blind dev k R)
include hb

/-- The progress that is shown is the same. -/
theorem refreshPeriodicDisplay (h : Alike k R m m') (now : UInt32) :
    (refreshPeriodicDisplay dev (now + k) m').1 = (refreshPeriodicDisplay dev now m).1 ∧
      Alike k R (refreshPeriodicDisplay dev now m).2 (refreshPeriodicDisplay dev (now + k) m').2 := by
  have hlines := (h.write hb .setOpenDoorList).write hb .writeStatusLine
  have hentry := hlines.field (·.currentPasswordEntryMillis) fun _ => rfl
  have hbad := hlines.field (·.currentBadPasswordMillis) fun _ => rfl
  have hretry := hlines.field (·.retryScanAfterBadCode) fun _ => rfl
  unfold StateMachine.refreshPeriodicDisplay
  dsimp only
  generalize StateMachine.write dev .writeStatusLine (StateMachine.write dev .setOpenDoorList m) = r at hlines hentry hbad hretry ⊢
  generalize StateMachine.write dev .writeStatusLine (StateMachine.write dev .setOpenDoorList m') = r' at hlines hentry hbad hretry ⊢
  rw [hlines.state]
  cases hs : r.context.state with
  | home => exact ⟨rfl, hlines.write hb _⟩
  | password =>
    dsimp only
    rw [hentry, hlines.shifted.password hs, percentLeft_add]
    refine ⟨rfl, ?_⟩
    split
    · exact hlines.write hb _
    · exact hlines
  | badPass =>
    have hline := hlines.write hb (.writeActionLine .badPass)
    dsimp only
    rw [write_context, write_context, hbad, hretry, hlines.shifted.badPassword (.inr hs), percentLeft_add]
    refine ⟨rfl, ?_⟩
    split
    · exact hline.write hb _
    · exact hline
  | scan =>
    dsimp only
    rw [hlines.shifted.scan hs, timeoutRemaining_add]
    exact ⟨rfl, hlines.write hb _⟩
  | presence =>
    dsimp only
    rw [hlines.shifted.presence (.inr hs), percentLeft_add]
    exact ⟨rfl, hlines.write hb _⟩
  | opening | opened | closed | external => exact ⟨rfl, hlines⟩

theorem refresh (h : Alike k R m m') (now : UInt32) : Alike k R (refresh dev now m) (refresh dev (now + k) m') := by
  have hended := (h.endBadPassword now).endPresenceCode now
  unfold StateMachine.refresh
  dsimp only
  rw [hended.isDisplayRefreshDue]
  split
  · obtain ⟨hagain, hshown⟩ := hended.refreshPeriodicDisplay hb now
    rw [hagain]
    split
    · refine ⟨hshown.toNear.schedule now, ?_⟩
      have hs := hshown.shifted
      exact ⟨hs.scan, hs.opening, hs.password, hs.closed, hs.badPassword, hs.presence, fun _ => rfl⟩
    · refine ⟨hshown.toNear.set _ _ (fun _ => rfl) fun _ => rfl, ?_⟩
      have hs := hshown.shifted
      exact ⟨hs.scan, hs.opening, hs.password, hs.closed, hs.badPassword, hs.presence, fun h => by contradiction⟩
  · exact hended

theorem update (h : Alike k R m m') (now millis : UInt32) :
    Alike k R (update dev now millis m) (update dev (now + k) (millis + k) m') := by
  have hr := h.refresh hb now
  have hretry := hr.field (·.retryScanAfterBadCode) fun _ => rfl
  unfold StateMachine.update
  dsimp only
  generalize StateMachine.refresh dev now m = r at hr hretry ⊢
  generalize StateMachine.refresh dev (now + k) m' = r' at hr hretry ⊢
  have hmove := fun target => hr.transitionTo hb target now millis
  rw [hr.state]
  cases hs : r.context.state with
  | password =>
    dsimp only
    rw [hr.shifted.password hs, hr.field (·.currentPasswordEntryMillis) fun _ => rfl, timeoutElapsed_add]
    split
    · exact hmove _
    · exact hr
  | scan =>
    dsimp only
    rw [hr.shifted.scan hs, timeoutElapsed_add]
    split
    · exact hmove _
    · exact hr
  | badPass =>
    dsimp only
    rw [hr.shifted.badPassword (.inr hs), hr.field (·.currentBadPasswordMillis) fun _ => rfl, timeoutElapsed_add, hretry]
    split
    · exact hmove _
    · exact hr
  | presence =>
    dsimp only
    rw [hr.shifted.presence (.inr hs), timeoutElapsed_add]
    split
    · exact hmove _
    · exact hr
  | opening =>
    dsimp only
    rw [hr.doorToOpen, hb.readDoorState _ hr.world, hr.shifted.opening hs, hr.field (·.doorOpenDuration) fun _ => rfl,
      timeoutElapsed_add]
    split
    · exact hmove _
    split
    · exact hmove _
    · exact hr
  | closed =>
    dsimp only
    rw [hr.shifted.closed hs, timeoutElapsed_add]
    split
    · exact hmove _
    · exact hr
  | home | opened | external => exact hr

end Alike

/-- Two machines that are started `k` apart. -/
theorem initializeMachine_alike (hb : Answers dev R) (h : Near R m m') (now : UInt32) :
    Alike k R (initializeMachine dev now m) (initializeMachine dev (now + k) m') := by
  have hzero : Near R
      ({ m with lastUIAction := 0 }.set fun c => { BoxStateContext.zero with doorOpenDuration := c.doorOpenDuration })
      ({ m' with lastUIAction := 0 }.set fun c => { BoxStateContext.zero with doorOpenDuration := c.doorOpenDuration }) := by
    refine ⟨?_, rfl, h.keep, h.world⟩
    rw [Machine.set_context, Machine.set_context, h.field (·.doorOpenDuration) fun _ => rfl]
  have hcontext : ∀ (now : UInt32) (m : Machine W), (initializeMachine dev now m).context =
      { BoxStateContext.zero with
        doorOpenDuration := m.context.doorOpenDuration
        displayRefreshStartedAt := now
        displayRefreshActive := true } := fun now m => by
    simp [initializeMachine, scheduleNextDisplayRefresh, onEnterHome, BoxStateContext.zero]
  refine ⟨(hzero.onEnterHome hb).schedule now, ?_⟩
  rw [hcontext, hcontext]
  constructor <;> simp [BoxStateContext.zero]

end OrangeBox.StateMachine
