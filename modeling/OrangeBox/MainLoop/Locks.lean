import OrangeBox.MainLoop.OpenDoor
/-!
# Energised locks

`openDoor` raises the lock pins and then asks for the timer that lowers them
again, without looking at the answer. As long as every pulse finds a timer
(`Affordable`), an energised lock always has one that will release it
(`locks_guarded_iff`). Ten requests for a door that stands open use up the ten
timers, and the next pulse has none.
-/
open OrangeBox.PassStore OrangeBox.StateMachine OrangeBox.Scanner Clock Runs
open OrangeBox.Hal hiding doorOpen

namespace OrangeBox.MainLoop

variable {V : Type} {dev : Devices V} {env : V → V → Prop} {s s' : Loop V} {m m' : BoxMachine V} {a : Act V} {ts : Times}
  {e : BoxEvent} {target : BoxState} {now millis : UInt32}

/-! ## What the machine does to the hardware -/

/-- The light. -/
def Hardware.light (level : Bool) (h : Hardware V) : Hardware V := { h with gpio := h.gpio.setAmbient level }

/-- A lock is activated, and the light goes on if there is one. -/
def Hardware.pulse (door : UInt8) (h : Hardware V) : Hardware V :=
  if door = doorUnknown then h
  else
    let (opened, h) := h.openDoor door
    if opened = door then h.light true else h

/-- What a transition does to the hardware. -/
def Hardware.moved (old target : BoxState) (door : UInt8) (h : Hardware V) : Hardware V :=
  let h := if old = .closed then h.light false else h
  match target with
  | .home => h.light false
  | .opening => h.pulse door
  | _ => h

/-- The hardware alone. -/
def bare (m : BoxMachine V) : Hardware Unit :=
  { rest := (), gpio := (hardware m).gpio, timers := (hardware m).timers, millis := (hardware m).millis }

@[simp] theorem bare_set (f : BoxStateContext → BoxStateContext) (m : BoxMachine V) : bare (m.set f) = bare m := rfl

@[simp] theorem bare_write (d : Display) (m : BoxMachine V) : bare (write (attach (wire dev)).logged d m) = bare m := rfl

@[simp] theorem bare_ambientOff (m : BoxMachine V) : bare (m.call (attach (wire dev)).logged.ambientOff) = (bare m).light false := rfl

@[simp] theorem bare_ambientOn (m : BoxMachine V) : bare (m.call (attach (wire dev)).logged.ambientOn) = (bare m).light true := rfl

@[simp] theorem bare_schedule (now : UInt32) (m : BoxMachine V) : bare (scheduleNextDisplayRefresh now m) = bare m := rfl

@[simp] theorem bare_usedCred (door : UInt8) (m : BoxMachine V) :
    bare (m.call fun w => ((attach (wire dev)).logged.usedCred door w).2) = bare m := rfl

@[simp] theorem bare_setExternal (action : UInt8) (m : BoxMachine V) :
    bare (setExternal (attach (wire dev)).logged action m) = bare m := by
  unfold setExternal; split <;> rfl

@[simp] theorem bare_onStateChange (old target : BoxState) (t : UInt32) (m : BoxMachine V) :
    bare (m.call ((attach (wire dev)).logged.onStateChange old target t)) = bare m := by
  have hrest : hardware (m.call ((attach (wire dev)).logged.onStateChange old target t)) =
    { hardware m with rest := dev.onStateChange old target t (hardware m).rest } := onStateChanged_rest old target _
  rw [bare, hrest]
  rfl

@[simp] theorem bare_generatePresenceCode (m : BoxMachine V) : bare (generatePresenceCode (attach (wire dev)).logged m) = bare m := by
  have hdigits : ∀ n (w : Watch (Hardware V)), (presenceDigits (attach (wire dev)).logged n w).2.1.rest.gpio = w.1.rest.gpio ∧
      (presenceDigits (attach (wire dev)).logged n w).2.1.rest.timers = w.1.rest.timers ∧
      (presenceDigits (attach (wire dev)).logged n w).2.1.rest.millis = w.1.rest.millis := by
    intro n
    induction n with
    | zero => exact fun _ => ⟨rfl, rfl, rfl⟩
    | succ n ih => exact fun w => ih _
  obtain ⟨hgpio, htimers, hmillis⟩ := hdigits presenceCodeLength m.world
  unfold bare
  congr 1

theorem bare_between (target : BoxState) (m : BoxMachine V) : bare (between (attach (wire dev)).logged target m) =
    if m.context.state = .closed then (bare m).light false else bare m := by
  unfold between onExit
  cases m.context.state <;> rfl

/-- What activating a lock answers. -/
theorem activateLock_fst (m : BoxMachine V) : (activateLock (attach (wire dev)).logged m).1 =
    (decide (m.context.doorToOpen ≠ doorUnknown) && decide (((bare m).openDoor m.context.doorToOpen).1 = m.context.doorToOpen)) := by
  unfold activateLock
  by_cases hd : m.context.doorToOpen = doorUnknown
  · simp [hd]
  · rw [if_pos hd, decide_eq_true hd, Bool.true_and]
    rfl

/-- What activating a lock leaves behind. -/
theorem bare_activateLock (m : BoxMachine V) : bare (activateLock (attach (wire dev)).logged m).2 =
    if m.context.doorToOpen = doorUnknown then bare m else ((bare m).openDoor m.context.doorToOpen).2 := by
  unfold activateLock
  by_cases hd : m.context.doorToOpen = doorUnknown
  · rw [if_neg (not_not.2 hd), if_pos hd]
  · rw [if_pos hd, if_neg hd]
    rfl

theorem bare_onEnterOpening (m : BoxMachine V) : bare (onEnterOpening (attach (wire dev)).logged millis m) =
    (bare m).pulse m.context.doorToOpen := by
  have hprepared : bare (write (attach (wire dev)).logged (.writeResponseLine .opening)
      (disableExternal (attach (wire dev)).logged m)) = bare m := by
    rw [bare_write, disableExternal, bare_setExternal]
  have hcontext : (write (attach (wire dev)).logged (.writeResponseLine .opening)
      (disableExternal (attach (wire dev)).logged m)).context = m.context := by
    rw [write_context, disableExternal_context]
  rw [onEnterOpening, ← hprepared, ← hcontext]
  generalize write (attach (wire dev)).logged _ _ = r
  dsimp only
  rw [activateLock_fst, Hardware.pulse]
  by_cases hd : r.context.doorToOpen = doorUnknown
  · rw [if_pos hd, if_neg (by simp [hd]), bare_set, bare_activateLock, if_pos hd]
  · rw [if_neg hd]
    by_cases ho : ((bare r).openDoor r.context.doorToOpen).1 = r.context.doorToOpen
    · rw [if_pos (by simp [hd, ho]), bare_ambientOn, bare_set, bare_activateLock, if_neg hd]
      exact (if_pos ho).symm
    · rw [if_neg (by simp [ho]), bare_set, bare_activateLock, if_neg hd]
      exact (if_neg ho).symm

theorem bare_onEnter (m : BoxMachine V) : bare (onEnter (attach (wire dev)).logged target now millis m) =
    match target with
    | .home => (bare m).light false
    | .opening => (bare m).pulse m.context.doorToOpen
    | _ => bare m := by
  cases target with
  | home => simp [onEnter, onEnterHome, enableExternal]
  | password => simp [onEnter, onEnterPassword, disableExternal]
  | presence => simp [onEnter, onEnterPresence]
  | opening => exact bare_onEnterOpening m
  | opened =>
    rw [onEnter, onEnterOpen]
    dsimp only
    split <;> simp
  | closed => simp [onEnter, onEnterClosed]
  | external => rfl
  | badPass =>
    have hr : bare (write (attach (wire dev)).logged
        (.writeResponseLine (if m.context.retryScanAfterBadCode then .badScan else .badPass)) m) = bare m := rfl
    rw [onEnter, onEnterBadPass, ← hr]
    generalize write (attach (wire dev)).logged _ m = r
    dsimp only
    split <;> simp
  | scan => simp [onEnter, onEnterScan, disableExternal]

/-- A transition to another state. -/
theorem transitionTo_bare (h : target ≠ m.context.state) : bare (transitionTo (attach (wire dev)).logged target now millis m) =
    (bare m).moved m.context.state target m.context.doorToOpen := by
  have hdoor : (between (attach (wire dev)).logged target m).context.doorToOpen = m.context.doorToOpen := by
    rw [between_context]
    rfl
  rw [transitionTo_eq h, bare_onStateChange, bare_schedule, bare_onEnter, bare_between, hdoor]
  cases target <;> rfl

theorem bare_refresh (m : BoxMachine V) : bare (refresh (attach (wire dev)).logged now m) = bare m := by
  have hdisplay : ∀ r : BoxMachine V, bare (refreshPeriodicDisplay (attach (wire dev)).logged now r).2 = bare r := fun r => by
    unfold refreshPeriodicDisplay
    dsimp only
    split
    · rfl
    · dsimp only
      split <;> rfl
    · dsimp only
      split <;> rfl
    all_goals rfl
  unfold refresh
  dsimp only
  split
  · split
    · rw [bare_schedule, hdisplay]
      rfl
    · rw [bare_set, hdisplay]
      rfl
  · rfl

theorem reaction_bare (hr : Reaction (attach (wire dev)).logged now m e m' target) : bare m' = bare m := by
  cases hr with
  | ignored =>
    unfold notice
    split <;> rfl
  | _ => rfl

/-! ## What opens a lock -/

/-- The door that an event makes the machine open. -/
def lockFor (dev : Devices V) (e : BoxEvent) (now : UInt32) (m : BoxMachine V) : Option UInt8 :=
  match e with
  | .webOpenBox door => if m.context.state = .opening then none else some door
  | e =>
    if evaluated now m.context e then (presented e).map fun text => (dev.verifyCred text.1 text.2 (hardware m).rest).1
    else none

/-- The event can afford the lock it opens. -/
def CanOpen (dev : Devices V) (e : BoxEvent) (now : UInt32) (m : BoxMachine V) : Prop :=
  ∀ door, lockFor dev e now m = some door → door ≠ doorUnknown → Affordable door (hardware m).gpio (hardware m).timers

/-- The action of the loop can afford the lock it opens, if it opens one. -/
def CanAct (dev : Devices V) (s : Loop V) : Act V → Prop
  | .request door ts => CanOpen dev (.webOpenBox door) (stamp ts.now) s.machine
  | .key e ts => CanOpen dev e (stamp ts.now) s.machine
  | .scan now ts => ∀ e, scanned now s.machine = some e → CanOpen dev e (stamp ts.now) s.machine
  | _ => True

/-! ## Guarded hardware -/

/-- The timers are pulses, and every energised lock has one. -/
structure Secure (h : Hardware V) : Prop where
  pulses : OnlyPulses h.timers
  guarded : Guarded h.gpio h.timers

theorem Secure.dim {h : Hardware V} (hs : Secure h) : Secure (h.light false) := ⟨hs.pulses, hs.guarded.dim⟩

theorem Secure.pulses_pulse {h : Hardware V} (hs : OnlyPulses h.timers) (door : UInt8) : OnlyPulses (h.pulse door).timers := by
  unfold Hardware.pulse Hardware.openDoor
  split
  · exact hs
  · by_cases hlock : ∃ pin, h.gpio.Drives door pin
    · rw [GpioHAL.openDoor_locked hlock]
      dsimp only
      rw [if_pos rfl]
      exact hs.schedule _ _
    · rw [GpioHAL.openDoor_unlocked hlock]
      dsimp only
      split <;> exact hs

/-- A pulse keeps the locks guarded exactly when it can be afforded. -/
theorem Secure.pulse_iff {h : Hardware V} (hs : Secure h) {door : UInt8} (hdoor : door ≠ doorUnknown) :
    Guarded (h.pulse door).gpio (h.pulse door).timers ↔ Affordable door h.gpio h.timers := by
  unfold Hardware.pulse Hardware.openDoor
  rw [if_neg hdoor]
  by_cases hlock : ∃ pin, h.gpio.Drives door pin
  · rw [GpioHAL.openDoor_locked hlock]
    dsimp only
    rw [if_pos rfl]
    exact guarded_pulse_iff hs.guarded hlock
  · rw [GpioHAL.openDoor_unlocked hlock]
    dsimp only
    rw [if_neg (Ne.symm hdoor)]
    exact iff_of_true hs.guarded fun h => absurd h hlock

/-- A transition that opens no lock. -/
theorem Secure.moved {h : Hardware V} (hs : Secure h) {old target : BoxState} (ho : target ≠ .opening) (door : UInt8) :
    Secure (h.moved old target door) := by
  have hexit : Secure (if old = .closed then h.light false else h) := by
    split
    · exact hs.dim
    · exact hs
  unfold Hardware.moved
  dsimp only
  split
  · exact hexit.dim
  · contradiction
  · exact hexit

/-- A transition to any other state than Opening, or to none, leaves the locks as they are. -/
theorem Secure.transitionTo (hs : Secure (bare m)) (ht : target ≠ .opening ∨ target = m.context.state) :
    Secure (bare (transitionTo (attach (wire dev)).logged target now millis m)) := by
  by_cases hself : target = m.context.state
  · rwa [transitionTo_self hself]
  · rw [transitionTo_bare hself]
    exact hs.moved (ht.resolve_right hself) _

/-- Going to Opening keeps the locks guarded exactly when the pulse can be afforded. -/
theorem opening_guarded_iff (hs : Secure (bare m)) (hne : m.context.state ≠ .opening) :
    Guarded (bare (transitionTo (attach (wire dev)).logged .opening now millis m)).gpio
        (bare (transitionTo (attach (wire dev)).logged .opening now millis m)).timers ↔
      (m.context.doorToOpen ≠ doorUnknown → Affordable m.context.doorToOpen (hardware m).gpio (hardware m).timers) := by
  rw [transitionTo_bare hne.symm]
  by_cases hd : m.context.doorToOpen = doorUnknown
  · refine iff_of_true ?_ fun h => absurd hd h
    unfold Hardware.moved Hardware.pulse
    rw [hd]
    dsimp only
    rw [if_pos rfl]
    split
    · exact hs.dim.guarded
    · exact hs.guarded
  · rw [forall_prop_of_true hd]
    unfold Hardware.moved
    dsimp only
    split
    · rw [hs.dim.pulse_iff hd]
      exact affordable_congr (setAmbient_doors _ _) (setAmbient_ambientPin _ _)
    · exact hs.pulse_iff hd

theorem lockFor_of_ne (hweb : ∀ door, e ≠ .webOpenBox door) : lockFor dev e now m =
    if evaluated now m.context e then (presented e).map fun text => (dev.verifyCred text.1 text.2 (hardware m).rest).1
    else none := by
  cases e with
  | webOpenBox door => exact absurd rfl (hweb door)
  | _ => rfl

/-- An event that neither asks for a door nor brings an accepted text does not lead to Opening. -/
theorem reaction_not_opening (hweb : ∀ door, e ≠ .webOpenBox door)
    (hnone : evaluated now m.context e = true → presented e = none)
    (hr : Reaction (attach (wire dev)).logged now m e m' target) : target ≠ .opening ∨ target = m.context.state := by
  cases hr with
  | ignored => exact .inr rfl
  | accepted he hp =>
    rw [hnone he] at hp
    contradiction
  | web => exact absurd rfl (hweb _)
  | _ => exact .inl (by decide)

/-- A request from the web opens the door it names, unless the box is opening already. -/
theorem request_guarded_iff (dev : Devices V) (door : UInt8) (now millis : UInt32) (hs : Secure (bare m)) :
    Guarded (bare (processEvent (attach (wire dev)).logged (.webOpenBox door) now millis m)).gpio
      (bare (processEvent (attach (wire dev)).logged (.webOpenBox door) now millis m)).timers ↔
      CanOpen dev (.webOpenBox door) now m := by
  change Guarded (bare (transitionTo _ .opening now millis (request door m))).gpio
    (bare (transitionTo _ .opening now millis (request door m))).timers ↔ _
  unfold CanOpen lockFor
  by_cases hstate : m.context.state = .opening
  · have hself : BoxState.opening = (request door m).context.state := hstate.symm
    rw [transitionTo_self hself]
    simp only [hstate, if_true]
    exact iff_of_true hs.guarded fun _ => nofun
  · have hrequest : Secure (bare (request door m)) := hs
    rw [opening_guarded_iff hrequest hstate]
    simp only [hstate, if_false, Option.some.injEq, forall_eq']
    rfl

/-- An accepted text opens the door it was found for, a refused one none. -/
theorem presented_guarded_iff {text : List UInt8 × CredType} (he : evaluated now m.context e = true)
    (htext : presented e = some text) (hs : Secure (bare m)) :
    Guarded (bare (processEvent (attach (wire dev)).logged e now millis m)).gpio
      (bare (processEvent (attach (wire dev)).logged e now millis m)).timers ↔ CanOpen dev e now m := by
  have hweb : ∀ door, e ≠ .webOpenBox door := by
    rintro door rfl
    contradiction
  have hstate : m.context.state ≠ .opening := fun h => by
    rcases evaluated_state he with h' | h' <;> simp [h] at h'
  obtain ⟨value, credType⟩ := text
  unfold CanOpen
  rw [lockFor_of_ne hweb, processEvent_presented he htext, if_pos he, htext]
  simp only [Option.map_some, Option.some.injEq, forall_eq']
  have hverify : ((attach (wire dev)).logged.verifyCred value credType m.world).1 =
    (dev.verifyCred value credType (hardware m).rest).1 := rfl
  rw [hverify]
  by_cases hd : (dev.verifyCred value credType (hardware m).rest).1 = doorUnknown
  · rw [if_pos hd]
    have hrefused : Secure (bare (refuse (credType = .packetNumber) (verify (attach (wire dev)).logged value credType m))) := hs
    exact iff_of_true (hrefused.transitionTo (.inl (by decide))).guarded fun h => absurd hd h
  · rw [if_neg hd]
    have haccepted : Secure (bare (accept (attach (wire dev)).logged value credType m)) := hs
    rw [opening_guarded_iff haccepted hstate]
    rfl

/-- What an event leaves of guarded locks. -/
theorem processEvent_guarded_iff (dev : Devices V) (e : BoxEvent) (now millis : UInt32) (m : BoxMachine V) (hs : Secure (bare m)) :
    Guarded (bare (processEvent (attach (wire dev)).logged e now millis m)).gpio
      (bare (processEvent (attach (wire dev)).logged e now millis m)).timers ↔ CanOpen dev e now m := by
  by_cases hweb : ∃ door, e = .webOpenBox door
  · obtain ⟨door, rfl⟩ := hweb
    exact request_guarded_iff dev door now millis hs
  push Not at hweb
  by_cases hp : evaluated now m.context e = true ∧ (presented e).isSome = true
  · obtain ⟨he, htext⟩ := hp
    obtain ⟨text, htext⟩ := Option.isSome_iff_exists.1 htext
    exact presented_guarded_iff he htext hs
  · -- Nothing is verified here, and no door is asked for.
    have hnone : evaluated now m.context e = true → presented e = none := fun he => by
      rw [← Option.not_isSome_iff_eq_none]
      exact fun htext => hp ⟨he, htext⟩
    obtain ⟨m', target, hr, he⟩ := processEvent_reaction (attach (wire dev)).logged e now millis m
    have hsecure : Secure (bare m') := by rwa [reaction_bare hr]
    refine iff_of_true ?_ fun door hdoor => ?_
    · rw [he]
      have htarget := reaction_not_opening hweb hnone hr
      rw [← hr.state] at htarget
      exact (hsecure.transitionTo htarget).guarded
    · rw [lockFor_of_ne hweb] at hdoor
      split at hdoor
      · rename_i hev
        rw [hnone hev] at hdoor
        contradiction
      · contradiction

theorem transitionTo_pulses (h : OnlyPulses (bare m).timers) :
    OnlyPulses (bare (transitionTo (attach (wire dev)).logged target now millis m)).timers := by
  by_cases hself : target = m.context.state
  · rwa [transitionTo_self hself]
  rw [transitionTo_bare hself]
  have hexit : OnlyPulses (if m.context.state = .closed then (bare m).light false else bare m).timers := by
    split <;> exact h
  unfold Hardware.moved
  dsimp only
  split
  · exact hexit
  · exact Secure.pulses_pulse hexit _
  · exact hexit

theorem processEvent_pulses (h : OnlyPulses (bare m).timers) :
    OnlyPulses (bare (processEvent (attach (wire dev)).logged e now millis m)).timers := by
  obtain ⟨m', target, hr, he⟩ := processEvent_reaction (attach (wire dev)).logged e now millis m
  rw [he]
  exact transitionTo_pulses (by rwa [reaction_bare hr])

/-- An update opens no lock. -/
theorem update_secure (h : Secure (bare m)) : Secure (bare (update (attach (wire dev)).logged now millis m)) := by
  obtain ⟨target, helapse, hu⟩ := update_elapse (attach (wire dev)).logged now millis m
  have hrefresh : Secure (bare (refresh (attach (wire dev)).logged now m)) := by rwa [bare_refresh]
  rw [hu]
  refine hrefresh.transitionTo ?_
  cases helapse with
  | stay => exact .inr rfl
  | retry =>
    left
    split <;> decide
  | _ => exact .inl (by decide)

/-! ## One action of the loop -/

/-- What an event of the loop leaves of secure hardware. -/
theorem dispatch_secure_iff (dev : Devices V) (e : BoxEvent) (ts : Times) (m : BoxMachine V) (hs : Secure (bare m)) :
    Secure (bare (dispatch dev e ts m)) ↔ CanOpen dev e (stamp ts.now) m := by
  have hready : Secure (bare (onBridge ({ · with millis := stamp ts.callback }) (ready ts m))) := ⟨hs.pulses, hs.guarded⟩
  have hguarded := processEvent_guarded_iff dev e (stamp ts.now) (stamp ts.opening) _ hready
  exact ⟨fun h => hguarded.1 h.guarded, fun h => ⟨processEvent_pulses hs.pulses, hguarded.2 h⟩⟩

/-- An event that brings no text and asks for no door. -/
theorem canOpen_of_none (hnone : ∀ now c, evaluated now c e = false) (hweb : ∀ door, e ≠ .webOpenBox door) :
    CanOpen dev e now m := fun door hdoor => by
  rw [lockFor_of_ne hweb, hnone] at hdoor
  contradiction

theorem notify_secure (hs : Secure (bare m)) (door : UInt8) (ts : Times) : Secure (bare (notify dev door ts m)) := by
  unfold notify
  dsimp only
  split
  · exact (dispatch_secure_iff _ _ _ _ hs).2 (canOpen_of_none (fun _ _ => rfl) fun _ => nofun)
  split
  · exact (dispatch_secure_iff _ _ _ _ hs).2 (canOpen_of_none (fun _ _ => rfl) fun _ => nofun)
  · exact hs

/-- A slot that is due ends its pulse. -/
theorem visitTimer_due (dev : Devices V) {i : Fin maxTimers} (hp : OnlyPulses (hardware m).timers)
    (hdue : (hardware m).timers.due now i = true) (ts : Times) : hardware (visitTimer dev now i ts m) =
      { hardware m with
        gpio := ((hardware m).gpio.lockDeactivate (atoi ((hardware m).timers.timers i).arg.bytes)).2
        timers := (hardware m).timers.finish now i } := by
  have hactive : ((hardware m).timers.timers i).active = true := by
    simp only [TimerManager.due, Bool.and_eq_true] at hdue
    exact hdue.1
  unfold visitTimer TimerManager.visit
  rw [if_pos hdue]
  dsimp only
  rw [(hp i hactive).2]
  rfl

theorem visitTimer_idle {i : Fin maxTimers} (hdue : ¬(hardware m).timers.due now i = true) (ts : Times) :
    visitTimer dev now i ts m = m := if_neg hdue

theorem visitTimer_secure (hs : Secure (bare m)) (i : Fin maxTimers) (ts : Times) : Secure (bare (visitTimer dev now i ts m)) := by
  by_cases hdue : (hardware m).timers.due now i = true
  · have hvisit := visitTimer_due dev hs.pulses hdue ts
    constructor
    · change OnlyPulses (hardware (visitTimer dev now i ts m)).timers
      rw [hvisit]
      exact hs.pulses.finish now i
    · change Guarded (hardware (visitTimer dev now i ts m)).gpio (hardware (visitTimer dev now i ts m)).timers
      rw [hvisit]
      exact hs.guarded.release now i
  · rwa [visitTimer_idle hdue]

/-- A poll does not rewire the locks. -/
theorem pollContacts_secure (hs : Secure (bare m)) (samples : Nat → Bool) : Secure (bare (pollContacts now samples m)) := by
  have hdrives : ∀ door pin, ((hardware m).gpio.updateDoorStates now samples).2.Drives door pin ↔ (hardware m).gpio.Drives door pin := by
    intro door pin
    constructor
    · rintro ⟨y, hy, hlocks, rfl⟩
      obtain ⟨i, x, hi, rfl⟩ := GpioHAL.mem_polled.1 hy
      rw [Door.poll_locks] at hlocks
      exact ⟨x, List.mem_of_getElem? hi, hlocks, by rw [Door.poll_gpioPin]⟩
    · rintro ⟨x, hx, hlocks, rfl⟩
      obtain ⟨i, hi⟩ := List.mem_iff_getElem?.1 hx
      exact ⟨_, GpioHAL.mem_polled.2 ⟨i, x, hi, rfl⟩, by rwa [Door.poll_locks], by rw [Door.poll_gpioPin]⟩
  refine ⟨hs.pulses, fun pin hlock hhigh => ?_⟩
  obtain ⟨door, hdoor⟩ := hlock
  obtain ⟨i, hi⟩ := hs.guarded pin ⟨door, (hdrives door pin).1 hdoor⟩ hhigh
  exact ⟨i, hi.active, hi.once, hi.action, (hdrives _ pin).2 hi.door⟩

/-- An action keeps the locks guarded exactly when it can afford the lock it opens. -/
theorem Secure.step_iff (hs : Secure (bare s.machine)) (h : LoopStep dev env s a s') :
    Secure (bare s'.machine) ↔ CanAct dev s a := by
  cases h with
  | noRequest | timers | noKey => exact iff_of_true hs trivial
  | request => exact dispatch_secure_iff _ _ _ _ hs
  | contacts => exact iff_of_true (pollContacts_secure hs _) trivial
  | notify =>
    refine iff_of_true ?_ trivial
    rw [handleDueActions, if_pos rfl]
    exact notify_secure hs _ _
  | timer => exact iff_of_true (visitTimer_secure hs _ _) trivial
  | key => exact dispatch_secure_iff _ _ _ _ hs
  | @update ts =>
    have hready : Secure (bare (onBridge ({ · with millis := stamp ts.callback }) (ready ts s.machine))) :=
      ⟨hs.pulses, hs.guarded⟩
    exact iff_of_true (update_secure hready) trivial
  | @scan now ts e _ _ _ _ he =>
    have hpolled : Secure (bare (polled now s.machine)) := by
      rw [bare, polled_hardware]
      exact hs
    refine (dispatch_secure_iff _ _ _ _ hpolled).trans ?_
    have hcan : CanOpen dev e (stamp ts.now) (polled now s.machine) ↔ CanOpen dev e (stamp ts.now) s.machine := by
      unfold CanOpen lockFor
      rw [polled_hardware]
      rfl
    refine hcan.trans ⟨fun h e' he' => ?_, fun h => h e he⟩
    obtain rfl := Option.some.inj (he.symm.trans he')
    exact h
  | @silent now _ _ _ _ _ hnone =>
    refine iff_of_true ?_ fun e he => ?_
    · rw [bare, polled_hardware]
      exact hs
    · rw [hnone] at he
      contradiction
  | callback =>
    have hcleared : Secure (bare (onBridge ({ · with failed := false }) s.machine)) := hs
    exact iff_of_true ((dispatch_secure_iff _ _ _ _ hcleared).2 (canOpen_of_none (fun _ _ => rfl) fun door he => by cases he)) trivial
  | receive => exact iff_of_true hs trivial
  | elsewhere => exact iff_of_true hs trivial

/-- Whatever the loop does, its timers are the ends of pulses. -/
theorem LoopStep.pulses (h : LoopStep dev env s a s') (hp : OnlyPulses (bare s.machine).timers) :
    OnlyPulses (bare s'.machine).timers := by
  have hdispatch : ∀ e ts (m : BoxMachine V), OnlyPulses (bare m).timers → OnlyPulses (bare (dispatch dev e ts m)).timers :=
    fun e ts m hm => processEvent_pulses hm
  have hpolled : ∀ now, OnlyPulses (bare (polled now s.machine)).timers := fun now => by
    rw [bare, polled_hardware]
    exact hp
  cases h with
  | noRequest | timers | noKey | contacts | receive | elsewhere => exact hp
  | request | key | callback => exact hdispatch _ _ _ hp
  | notify =>
    rw [handleDueActions, if_pos rfl, MainLoop.notify]
    dsimp only
    split
    · exact hdispatch _ _ _ hp
    split
    · exact hdispatch _ _ _ hp
    · exact hp
  | @timer now i _ ts =>
    by_cases hdue : (hardware s.machine).timers.due now i = true
    · change OnlyPulses (hardware (visitTimer dev now i ts s.machine)).timers
      rw [visitTimer_due dev hp hdue]
      exact hp.finish now i
    · rwa [visitTimer_idle hdue]
  | @update ts =>
    obtain ⟨target, -, hu⟩ := update_elapse (attach (wire dev)).logged (stamp ts.now) (stamp ts.opening)
      (onBridge ({ · with millis := stamp ts.callback }) (ready ts s.machine))
    dsimp only
    rw [hu]
    refine transitionTo_pulses ?_
    rw [bare_refresh]
    exact hp
  | scan => exact hdispatch _ _ _ (hpolled _)
  | silent => exact hpolled _

/-! ## Releasing a lock -/

/-- The active timers of `w` are still as they were. -/
def KeepsTimers (w w' : Watch (Hardware V)) : Prop :=
  ∀ i, (w.1.rest.timers.timers i).active = true → w'.1.rest.timers.timers i = w.1.rest.timers.timers i

theorem keepsTimers_steady (dev : Devices V) : Steady (attach (wire dev)).logged KeepsTimers where
  refl _ _ _ := rfl
  trans h h' i hi := (h' i (by rw [h i hi]; exact hi)).trans (h i hi)
  ambientOn _ _ _ := rfl
  ambientOff _ _ _ := rfl
  display _ _ _ _ := rfl
  rand _ _ _ := rfl
  onUIUpdate _ _ _ _ := rfl
  onStateChange oldState newState t w i _ := by
    have hrest := onStateChanged_rest oldState newState
      { w.1 with rest := (wire dev).onStateChange oldState newState t w.1.rest }
    exact congrArg (·.timers.timers i) hrest
  verifyCred _ _ _ _ _ := rfl
  usedCred _ _ _ _ := rfl
  openDoor door w i hi := by
    change (Hardware.openDoor door w.1.rest).2.timers.timers i = _
    unfold Hardware.openDoor
    by_cases hlock : ∃ pin, w.1.rest.gpio.Drives door pin
    · rw [GpioHAL.openDoor_locked hlock]
      exact TimerManager.scheduleOnce_keeps _ _ _ _ hi
    · rw [GpioHAL.openDoor_unlocked hlock]

/-- The timer of a pulse stands until the slot is due, and then the locks of the
door are released. -/
theorem LoopStep.keeps (h : LoopStep dev env s a s') (hp : OnlyPulses (hardware s.machine).timers) {i : Fin maxTimers}
    {pin : UInt8} (hi : Pending (hardware s.machine).gpio (hardware s.machine).timers i pin) :
    (hardware s'.machine).timers.timers i = (hardware s.machine).timers.timers i ∨
      (hardware s'.machine).gpio.pins pin = false := by
  have hdispatch : ∀ e ts (m : BoxMachine V), (hardware m).timers = (hardware s.machine).timers →
      (hardware (dispatch dev e ts m)).timers.timers i = (hardware s.machine).timers.timers i := fun e ts m hm => by
    rw [← hm]
    exact (keepsTimers_steady dev).processEvent _ i (by change ((hardware m).timers.timers i).active = true; rw [hm]; exact hi.active)
  cases h with
  | noRequest | timers | noKey | contacts | receive | elsewhere => exact .inl rfl
  | request | key => exact .inl (hdispatch _ _ _ rfl)
  | notify =>
    refine .inl ?_
    rw [handleDueActions, if_pos rfl, MainLoop.notify]
    dsimp only
    split
    · exact hdispatch _ _ _ rfl
    split
    · exact hdispatch _ _ _ rfl
    · rfl
  | @timer now j _ ts =>
    dsimp only
    by_cases hdue : (hardware s.machine).timers.due now j = true
    · rw [visitTimer_due dev hp hdue]
      by_cases heq : i = j
      · subst heq
        exact .inr ((GpioHAL.drive_apply ..).trans (if_pos hi.door))
      · exact .inl (TimerManager.finish_keeps heq _)
    · rw [visitTimer_idle hdue]
      exact .inl rfl
  | @update ts =>
    exact .inl ((keepsTimers_steady dev).update
      (onBridge ({ · with millis := stamp ts.callback }) (ready ts s.machine)) i hi.active)
  | scan => exact .inl (hdispatch _ _ _ (by rw [polled_hardware]))
  | silent => exact .inl (by rw [polled_hardware])
  | callback => exact .inl (hdispatch _ _ _ rfl)

/-- Every energised lock has a one-shot timer for a door it belongs to. The
timer stands until its slot is due, and then the lock is released. -/
def Released (dev : Devices V) (env : V → V → Prop) (s : Loop V) : Prop :=
  ∀ pin, (hardware s.machine).gpio.IsLock pin → (hardware s.machine).gpio.pins pin = true → ∃ i,
    Pending (hardware s.machine).gpio (hardware s.machine).timers i pin ∧
    (∀ a s', LoopStep dev env s a s' → (hardware s'.machine).timers.timers i = (hardware s.machine).timers.timers i ∨
      (hardware s'.machine).gpio.pins pin = false) ∧
    ∀ now ts, (hardware s.machine).timers.due now i = true →
      (hardware (visitTimer dev now i ts s.machine)).gpio.pins pin = false

theorem Secure.released (hs : Secure (bare s.machine)) : Released dev env s := fun pin hlock hhigh => by
  obtain ⟨i, hi⟩ := hs.guarded pin hlock hhigh
  refine ⟨i, hi, fun a s' h => h.keeps hs.pulses hi, fun now ts hdue => ?_⟩
  rw [visitTimer_due dev hs.pulses hdue]
  exact (GpioHAL.drive_apply ..).trans (if_pos hi.door)

/-! ## Runs -/

theorem Setup.hardware_secure (setup : Setup V) : Secure setup.hardware :=
  ⟨fun _ => nofun, fun pin hlock hhigh => by
    have hlow : setup.hardware.gpio.pins pin = false := GpioHAL.initializeGpioHAL_released hlock
    rw [hlow] at hhigh
    contradiction⟩

/-- All locks are released at the start. -/
theorem Setup.start_secure (dev : Devices V) (setup : Setup V) : Secure (bare (setup.start dev).machine) := by
  have hinit : ∀ (now : UInt32) (m : BoxMachine V), bare (initializeMachine (attach (wire dev)).logged now m) = (bare m).light false :=
    fun now m => by
      simp [initializeMachine, onEnterHome, enableExternal]
      rfl
  have hbegin : (Scanner.begin setup.activate setup.deactivate setup.switchPin setup.switchActiveHigh (.constructed setup.hardware)).2.rest =
      setup.hardware := by
    unfold Scanner.begin
    split <;> rfl
  change Secure (bare (initializeMachine _ _ _))
  rw [hinit]
  refine Secure.dim ?_
  generalize hm : ({ constructed _ with scannerTestKeepCred := _ } : BoxMachine V) = m
  have hhardware : MainLoop.hardware m = setup.hardware := by
    rw [← hm]
    exact hbegin
  rw [bare, hhardware]
  exact ⟨setup.hardware_secure.pulses, setup.hardware_secure.guarded⟩

/-- The locks are guarded along a run exactly when every lock it opens can be afforded. -/
theorem locks_guarded_iff (dev : Devices V) (env : V → V → Prop) (setup : Setup V) {acts : List (Act V)} {s : Loop V} :
    Run (Within (LoopStep dev env) fun _ _ s' => Released dev env s') (setup.start dev) acts s ↔
      Run (Within (LoopStep dev env) fun s a _ => CanAct dev s a) (setup.start dev) acts s := by
  refine Run.within_iff (fun s => Secure (bare s.machine)) (setup.start_secure dev) (fun s a s' hs hstep => ?_)
    fun _ _ _ hs hstep hcan => (hs.step_iff hstep).2 hcan
  rw [← hs.step_iff hstep]
  refine ⟨fun hreleased => ⟨hstep.pulses hs.pulses, fun pin hlock hhigh => ?_⟩, Secure.released⟩
  obtain ⟨i, hi, -⟩ := hreleased pin hlock hhigh
  exact ⟨i, hi⟩

/-- The standing box after `n` requests for its first door, 10 ms apart. -/
def worn : Nat → BoxMachine Unit
  | 0 => (standing.start emptyBox).machine
  | n + 1 => served emptyBox 0 (10 * (n + 1)) (fun _ => true) (worn n)

theorem worn_run (n : Nat) (hn : n ≤ 10) :
    ∃ acts, Run (LoopStep emptyBox fun _ _ => True) (standing.start emptyBox) acts ⟨worn n, .request, 10 * n⟩ := by
  have huneventful : ∀ k < 10, Uneventful emptyBox 0 (10 * (k + 1)) (fun _ => true) (worn k) := by decide +kernel
  have hdoor : openBoxDoor (.integer 0) = some 0 := rfl
  induction n with
  | zero => exact ⟨[], .nil⟩
  | succ n ih =>
    obtain ⟨acts, hrun⟩ := ih (by omega)
    obtain ⟨next, hnext⟩ := served_run (fun _ _ => True) hdoor (by omega : 10 * n ≤ 10 * (n + 1)) (huneventful n (by omega))
    exact ⟨_, hrun.append hnext⟩

/-- After ten requests for one door within a tenth of a second, the pulse for
another door has no timer. -/
theorem eleventh_pulse_stays : ∃ acts s, Run (LoopStep emptyBox fun _ _ => True) (standing.start emptyBox) acts s ∧
    (hardware s.machine).gpio.IsLock 2 ∧ (hardware s.machine).gpio.pins 2 = true ∧
      ∀ i, ¬Pending (hardware s.machine).gpio (hardware s.machine).timers i 2 := by
  obtain ⟨acts, hrun⟩ := worn_run 10 (Nat.le_refl 10)
  have hdoor : openBoxDoor (.integer 1) = some 1 := rfl
  have hfailed : (worn 10).world.1.failed = false := by decide +kernel
  have hrequest : ∀ m : BoxMachine Unit, m.world.1.failed = false →
      LoopStep emptyBox (fun _ _ => True) ⟨m, .request, 10 * 10⟩ (.request 1 (.at 110))
        ⟨dispatch emptyBox (.webOpenBox 1) (.at 110) m, .contacts, 110⟩ :=
    fun m hm => .request hm rfl hdoor (Times.at_after (show 10 * 10 ≤ 110 by decide))
  have hlock : (hardware (dispatch emptyBox (.webOpenBox 1) (.at 110) (worn 10))).gpio.Drives 1 2 := by decide +kernel
  have hnone : ∀ i, ¬(hardware (dispatch emptyBox (.webOpenBox 1) (.at 110) (worn 10))).gpio.Drives
      (atoi ((hardware (dispatch emptyBox (.webOpenBox 1) (.at 110) (worn 10))).timers.timers i).arg.bytes) 2 := by
    decide +kernel
  have hhigh : (hardware (dispatch emptyBox (.webOpenBox 1) (.at 110) (worn 10))).gpio.pins 2 = true := by decide +kernel
  have hlast := hrun.snoc (hrequest _ hfailed)
  generalize dispatch emptyBox (.webOpenBox 1) (.at 110) (worn 10) = m at hlock hnone hhigh hlast
  exact ⟨_, _, hlast, ⟨1, hlock⟩, hhigh, fun i hi => hnone i hi.door⟩

end OrangeBox.MainLoop
