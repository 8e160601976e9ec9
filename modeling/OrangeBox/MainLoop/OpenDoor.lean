import OrangeBox.Hal.Locks
import OrangeBox.MainLoop.Loop
/-!
# The door that Open waits for

In Open the machine waits for the door to be closed, without a timeout. The
closing is announced once, by the poll that sees the last contact of the door
close. At the end of every iteration a machine in Open still has an open
contact to wait for (`open_not_shut`).
-/
open OrangeBox.PassStore OrangeBox.StateMachine OrangeBox.Scanner Clock Runs
open OrangeBox.Hal hiding doorOpen

namespace OrangeBox.MainLoop

variable {V W : Type}

/-! ## What an event does to the door -/

section
variable {dev : Devices W} {e : BoxEvent} {now millis : UInt32} {m : Machine W} {target : BoxState}

/-- Going to Opening or to Open keeps the door. -/
theorem transitionTo_doorToOpen (h : target = .opening ∨ target = .opened) :
    (transitionTo dev target now millis m).context.doorToOpen = m.context.doorToOpen := by
  by_cases hself : target = m.context.state
  · rw [transitionTo_self hself]
  rcases h with rfl | rfl
  · rw [transitionTo_opening _ _ _ (Ne.symm hself)]
    rfl
  · rw [transitionTo_opened _ _ _ (Ne.symm hself)]
    rfl

/-- An event leads to Open, or leaves the machine there. -/
theorem processEvent_opened (h : (processEvent dev e now millis m).context.state = .opened) :
    (processEvent dev e now millis m).context.doorToOpen = m.context.doorToOpen ∧
      (m.context.state = .opened ∧ e ≠ .doorClosed m.context.doorToOpen ∨
        m.context.state = .opening ∧ e = .doorOpened m.context.doorToOpen) := by
  obtain ⟨m', target, hr, he⟩ := processEvent_reaction dev e now millis m
  rw [he, transitionTo_state] at h
  subst h
  rw [he, transitionTo_doorToOpen (.inr rfl)]
  generalize htarget : BoxState.opened = target at hr
  cases hr with
  | ignored hh =>
    refine ⟨by rw [notice_context], .inl ⟨rfl, ?_⟩⟩
    rintro rfl
    simp [handled, ← htarget] at hh
  | opened hs => exact ⟨by rw [notice_context], .inr ⟨hs, rfl⟩⟩
  | _ => contradiction

/-- An event leads to Opening, or leaves the machine there. -/
theorem processEvent_opening (h : (processEvent dev e now millis m).context.state = .opening) :
    m.context.state = .opening ∧
        (processEvent dev e now millis m).context.doorToOpen = m.context.doorToOpen ∨
      (processEvent dev e now millis m).context.doorToOpen ≠ doorUnknown ∨
      e = .webOpenBox (processEvent dev e now millis m).context.doorToOpen := by
  obtain ⟨m', target, hr, he⟩ := processEvent_reaction dev e now millis m
  rw [he, transitionTo_state] at h
  subst h
  rw [he, transitionTo_doorToOpen (.inl rfl)]
  generalize htarget : BoxState.opening = target at hr
  cases hr with
  | ignored => exact .inl ⟨rfl, by rw [notice_context]⟩
  | accepted _ _ hd => exact .inr (.inl hd)
  | web => exact .inr (.inr rfl)
  | _ => contradiction

/-- An update leads to Open when the door is open. -/
theorem update_opened (h : (update dev now millis m).context.state = .opened) :
    (update dev now millis m).context.doorToOpen = m.context.doorToOpen ∧
      (m.context.state = .opened ∨ m.context.state = .opening ∧
        dev.readDoorState m.context.doorToOpen (refresh dev now m).world = StateMachine.doorOpen) := by
  obtain ⟨target, helapse, hu⟩ := update_elapse dev now millis m
  have hdoor : (refresh dev now m).context.doorToOpen = m.context.doorToOpen :=
    refresh_eq (·.doorToOpen) (fun _ _ _ _ _ => rfl) m
  rw [hu, transitionTo_state] at h
  subst h
  rw [hu, transitionTo_doorToOpen (.inr rfl)]
  refine ⟨hdoor, ?_⟩
  generalize htarget : BoxState.opened = target at helapse
  cases helapse with
  | stay => exact .inl (refresh_state m).symm
  | opened hs hopen =>
    rw [refresh_state] at hs
    rw [hdoor] at hopen
    exact .inr ⟨hs, hopen⟩
  | retry => split at htarget <;> contradiction
  | _ => contradiction

end

/-! ## The contacts -/

variable {dev : Devices V} {env : V → V → Prop} {s s' : Loop V} {m : BoxMachine V} {a : Act V} {ts : Times} {e : BoxEvent}

/-- The doors and their contacts are as they were. -/
def SameDoors (w w' : Watch (Hardware V)) : Prop := w'.1.rest.gpio.doors = w.1.rest.gpio.doors

theorem openDoor_doors (door : UInt8) (h : Hardware V) : (h.openDoor door).2.gpio.doors = h.gpio.doors := by
  unfold Hardware.openDoor GpioHAL.openDoor
  dsimp only
  split <;> rfl

theorem onStateChanged_rest (oldState newState : BoxState) (b : Bridge (Hardware V)) :
    (onStateChanged oldState newState b).rest = b.rest := by
  unfold onStateChanged
  dsimp only
  split <;> split <;> try rfl
  all_goals split <;> rfl

/-- The scanner leaves the hardware alone. -/
theorem polled_hardware (now : Nat) (m : BoxMachine V) : hardware (polled now m) = hardware m := by
  unfold hardware polled onBridge poll
  dsimp only [Machine.call_world]
  split
  · rfl
  split <;> rfl

/-- Only a poll changes what the contacts say. -/
theorem sameDoors_steady (dev : Devices V) : Steady (attach (wire dev)).logged SameDoors where
  refl _ := rfl
  trans h h' := h'.trans h
  ambientOn _ := setAmbient_doors _ _
  ambientOff _ := setAmbient_doors _ _
  display _ _ := rfl
  rand _ := rfl
  onUIUpdate _ _ := rfl
  onStateChange oldState newState t w := by
    have hrest := onStateChanged_rest oldState newState
      { w.1 with rest := (wire dev).onStateChange oldState newState t w.1.rest }
    exact congrArg (·.gpio.doors) hrest
  verifyCred _ _ _ := rfl
  usedCred _ _ := rfl
  openDoor _ _ := openDoor_doors _ _

theorem dispatch_doors (dev : Devices V) (e : BoxEvent) (ts : Times) (m : BoxMachine V) :
    (hardware (dispatch dev e ts m)).gpio.doors = (hardware m).gpio.doors := (sameDoors_steady dev).processEvent _

/-- The state of a door depends on the doors alone. -/
theorem readDoorState_congr {g g' : GpioHAL} (h : g'.doors = g.doors) (door : UInt8) :
    g'.readDoorState door = g.readDoorState door := by
  rw [GpioHAL.readDoorState, h]
  rfl

theorem ajar_congr {g g' : GpioHAL} {door : UInt8} (h : g'.doors = g.doors) : g'.Ajar door ↔ g.Ajar door := by
  rw [GpioHAL.Ajar, h]
  rfl

/-! ## The door of Open -/

/-- The machine in Open has an open contact to wait for, or one of the pending
notifications will tell it that the last contact has closed. -/
structure Waits (pending : List UInt8) (m : BoxMachine V) : Prop where
  door : m.context.state = .opening ∨ m.context.state = .opened → m.context.doorToOpen ≠ doorUnknown
  ajar : m.context.state = .opened → (hardware m).gpio.Ajar m.context.doorToOpen ∨
    m.context.doorToOpen ∈ pending ∧ (hardware m).gpio.readDoorState m.context.doorToOpen = doorClosed

/-- The doors that are still to be notified. -/
def Phase.pending : Phase → List UInt8
  | .notify doors => doors
  | _ => []

/-- An open contact is also one when nothing is pending. -/
theorem Waits.ajar_of_nil (h : Waits [] m) (hs : m.context.state = .opened) :
    (hardware m).gpio.Ajar m.context.doorToOpen := (h.ajar hs).resolve_right fun hmem => List.not_mem_nil hmem.1

theorem Waits.congr {m' : BoxMachine V} {pending : List UInt8} (h : Waits pending m) (hc : m'.context = m.context)
    (hd : (hardware m').gpio.doors = (hardware m).gpio.doors) : Waits pending m' := by
  refine ⟨by rw [hc]; exact h.door, ?_⟩
  rw [hc, ajar_congr hd, readDoorState_congr hd]
  exact h.ajar

/-- An event keeps the machine waiting, when a door that is said to be open is
open and a door that is asked for has a number. -/
theorem Waits.dispatch {pending : List UInt8} (h : Waits pending m) (hweb : ∀ door, e = .webOpenBox door → door ≠ doorUnknown)
    (hopen : ∀ door, e = .doorOpened door → (hardware m).gpio.Ajar door) : Waits pending (dispatch dev e ts m) := by
  have hdoors := dispatch_doors dev e ts m
  have hopened : (MainLoop.dispatch dev e ts m).context.state = .opened → _ := processEvent_opened
  have hopening : (MainLoop.dispatch dev e ts m).context.state = .opening → _ := processEvent_opening
  rw [show processEvent _ e _ _ _ = MainLoop.dispatch dev e ts m from rfl] at hopened hopening
  constructor
  · rintro (hs | hs)
    · rcases hopening hs with ⟨hbefore, hsame⟩ | hne | he
      · rw [hsame]
        exact h.door (.inl hbefore)
      · exact hne
      · exact hweb _ he
    · obtain ⟨hsame, ⟨hbefore, -⟩ | ⟨hbefore, -⟩⟩ := hopened hs
      · rw [hsame]
        exact h.door (.inr hbefore)
      · rw [hsame]
        exact h.door (.inl hbefore)
  · intro hs
    rw [ajar_congr hdoors, readDoorState_congr hdoors]
    obtain ⟨hsame, ⟨hbefore, -⟩ | ⟨-, he⟩⟩ := hopened hs
    · rw [hsame]
      exact h.ajar hbefore
    · rw [hsame]
      exact .inl (hopen _ he)

/-- A notification is no longer pending once the machine has heard of it. -/
theorem Waits.notify {door : UInt8} {doors : List UInt8} (h : Waits (door :: doors) m) : Waits doors (notify dev door ts m) := by
  have hdrop : ∀ {m' : BoxMachine V}, Waits (door :: doors) m' →
      (m'.context.state = .opened → m'.context.doorToOpen = door → (hardware m').gpio.readDoorState door ≠ doorClosed) →
      Waits doors m' := fun {m'} h hne => ⟨h.door, fun hs => by
    rcases h.ajar hs with hajar | ⟨hmem, hclosed⟩
    · exact .inl hajar
    · rcases List.mem_cons.1 hmem with hd | hd
      · rw [hd] at hclosed
        exact absurd hclosed (hne hs hd)
      · exact .inr ⟨hd, hclosed⟩⟩
  unfold MainLoop.notify
  dsimp only
  split
  · rename_i hopen
    have hajar : (hardware m).gpio.Ajar door := GpioHAL.ajar_iff.2 (.inl hopen)
    refine hdrop (h.dispatch (fun _ he => by contradiction) fun d he => ?_) fun _ _ => ?_
    · obtain rfl := BoxEvent.doorOpened.inj he
      exact hajar
    · rw [readDoorState_congr (dispatch_doors ..), hopen]
      decide
  · split
    · -- The machine leaves Open when this is its door.
      refine hdrop (h.dispatch (fun _ he => by contradiction) fun _ he => by contradiction) fun hs hd => ?_
      obtain ⟨hsame, ⟨-, hne⟩ | ⟨-, he⟩⟩ := processEvent_opened (e := .doorClosed door) hs
      · refine absurd ?_ hne
        rw [← hd]
        exact congrArg _ hsame
      · contradiction
    · rename_i hopen hclosed
      exact hdrop h fun _ _ => hclosed

/-- A poll announces the door when its last open contact has closed. -/
theorem Waits.poll (h : Waits [] m) (now : UInt32) (samples : Nat → Bool) :
    Waits ((hardware m).gpio.updateDoorStates now samples).1 (pollContacts now samples m) := by
  refine ⟨h.door, fun hs => ?_⟩
  rcases GpioHAL.shut_announced now samples (h.ajar_of_nil hs) (h.door (.inr hs)) with hajar | ⟨hclosed, hmem⟩
  · exact .inl hajar
  · exact .inr ⟨hmem, hclosed⟩

theorem openBoxDoor_ne {doorNum : JsonVariant} {door : UInt8} (h : openBoxDoor doorNum = some door) : door ≠ doorUnknown := by
  unfold openBoxDoor ParamChecks.integer at h
  split at h
  · contradiction
  obtain ⟨n, hn, rfl⟩ := Option.map_eq_some_iff.1 h
  have hbound := (Option.filter_eq_some_iff.1 hn).2
  simp only [Bool.and_eq_true, decide_eq_true_eq] at hbound
  intro heq
  have := congrArg UInt8.toNat heq
  change n.toNat % 2 ^ 8 = 255 at this
  omega

/-- Neither the keyboard nor the scanner speaks of doors. -/
theorem isKey_of {door : UInt8} (h : isKey e = true) : e ≠ .webOpenBox door ∧ e ≠ .doorOpened door := by
  cases e <;> simp_all [isKey]

theorem scanned_of {now : Nat} {door : UInt8} (h : scanned now m = some e) : e ≠ .webOpenBox door ∧ e ≠ .doorOpened door := by
  unfold scanned poll at h
  split at h
  · contradiction
  split at h
  · obtain rfl := Option.some.inj h
    exact ⟨nofun, nofun⟩
  dsimp only at h
  split at h
  · contradiction
  unfold Scanner.translate at h
  repeat' split at h
  all_goals first
    | contradiction
    | (obtain rfl := Option.some.inj h
       exact ⟨nofun, nofun⟩)

theorem Waits.visitTimer (h : Waits [] m) (now : UInt32) (i : Fin maxTimers) (ts : Times) :
    Waits [] (visitTimer dev now i ts m) := by
  have hactions : ∀ action arg, Waits [] (handleDueActions dev ts action arg m) := fun action arg => by
    unfold handleDueActions
    split
    · exact Waits.notify ⟨h.door, fun hs => .inl (h.ajar_of_nil hs)⟩
    split
    · exact h.congr rfl rfl
    split
    · exact h.congr rfl (setAmbient_doors _ _)
    split
    · exact Waits.dispatch (e := .passwordTimeout) h (fun _ he => by contradiction) fun _ he => by contradiction
    · exact h
  unfold MainLoop.visitTimer TimerManager.visit
  split
  · exact (hactions _ _).congr rfl rfl
  · exact h

/-- An update finds the door open before it goes to Open. -/
theorem Waits.update (h : Waits [] m) (now millis : UInt32) : Waits [] (StateMachine.update (attach (wire dev)).logged now millis m) := by
  have hdoors : (hardware (StateMachine.update (attach (wire dev)).logged now millis m)).gpio.doors = (hardware m).gpio.doors :=
    (sameDoors_steady dev).update m
  have hrefresh : (refresh (attach (wire dev)).logged now m).world.1.rest.gpio.doors = (hardware m).gpio.doors :=
    (sameDoors_steady dev).refresh m
  constructor
  · rintro (hs | hs)
    · obtain ⟨hbefore, hu⟩ := update_in_opening hs
      have hsame : (refresh (attach (wire dev)).logged now m).context.doorToOpen = m.context.doorToOpen :=
        refresh_eq (·.doorToOpen) (fun _ _ _ _ _ => rfl) m
      rw [hu, hsame]
      exact h.door (.inl hbefore)
    · obtain ⟨hsame, hbefore⟩ := update_opened hs
      rw [hsame]
      exact h.door (hbefore.symm.imp And.left id)
  · intro hs
    obtain ⟨hsame, hbefore | ⟨-, hopen⟩⟩ := update_opened hs
    · rw [hsame, ajar_congr hdoors]
      exact .inl (h.ajar_of_nil hbefore)
    · rw [hsame, ajar_congr hdoors]
      refine .inl ((ajar_congr hrefresh).1 (GpioHAL.ajar_iff.2 (.inl ?_)))
      exact hopen

/-- One action of the loop. -/
theorem Waits.step (h : Waits s.phase.pending s.machine) (hs : LoopStep dev env s a s') :
    Waits s'.phase.pending s'.machine := by
  cases hs with
  | noRequest _ hp =>
    rw [hp] at h
    exact h
  | @request _ door _ _ hp hdoor =>
    rw [hp] at h
    -- The web server lets no request through for the door that stands for none.
    refine Waits.dispatch (e := .webOpenBox door) h (fun _ he => ?_) fun _ he => by contradiction
    obtain rfl := BoxEvent.webOpenBox.inj he
    exact openBoxDoor_ne hdoor
  | contacts _ hp =>
    rw [hp] at h
    exact h.poll _ _
  | notify _ hp =>
    rw [hp] at h
    rw [handleDueActions, if_pos rfl, atoi_doorText]
    exact h.notify
  | timers _ hp =>
    rw [hp] at h
    exact h
  | timer _ hp =>
    rw [hp] at h
    exact h.visitTimer _ _ _
  | noKey _ hp =>
    rw [hp] at h
    exact h
  | key _ hp hkey =>
    rw [hp] at h
    exact h.dispatch (fun _ he => absurd he (isKey_of hkey).1) fun _ he => absurd he (isKey_of hkey).2
  | @update ts _ hp =>
    rw [hp] at h
    have hready : Waits [] (onBridge ({ · with millis := stamp ts.callback }) (ready ts s.machine)) := h.congr rfl rfl
    exact hready.update (stamp ts.now) (stamp ts.opening)
  | @scan now _ e _ hp _ _ he =>
    rw [hp] at h
    have hpolled : Waits [] (polled now s.machine) := h.congr rfl (by rw [polled_hardware])
    exact hpolled.dispatch (fun _ h => absurd h (scanned_of he).1) fun _ h => absurd h (scanned_of he).2
  | @silent now _ _ hp =>
    rw [hp] at h
    have hpolled : Waits [] (polled now s.machine) := h.congr rfl (by rw [polled_hardware])
    exact hpolled
  | callback =>
    have hcleared : Waits s.phase.pending (onBridge ({ · with failed := false }) s.machine) := h.congr rfl rfl
    exact Waits.dispatch (e := .scannerFailed) hcleared (fun _ he => by contradiction) fun _ he => by contradiction
  | receive => exact h.congr rfl rfl
  | elsewhere => exact h.congr rfl rfl

theorem Setup.start_waits (dev : Devices V) (setup : Setup V) : Waits [] (setup.start dev).machine := by
  have hstate : (setup.start dev).machine.context.state = .home := by
    change (initializeMachine _ _ _).context.state = .home
    exact congrArg BoxStateContext.state (started_context setup.time _)
  exact ⟨by simp [hstate], by simp [hstate]⟩

/-- At the end of every iteration a machine in Open waits for a door that is
open, or mixed. -/
theorem open_not_shut (dev : Devices V) (env : V → V → Prop) (setup : Setup V) {acts : List (Act V)}
    (hrun : Run (LoopStep dev env) (setup.start dev) acts s) (hend : s.phase = .request)
    (hopen : s.machine.context.state = .opened) :
    (hardware s.machine).gpio.readDoorState s.machine.context.doorToOpen = Hal.doorOpen ∨
      (hardware s.machine).gpio.readDoorState s.machine.context.doorToOpen = doorMixed := by
  have h := hrun.inv (fun s => Waits s.phase.pending s.machine) (setup.start_waits dev) fun _ _ _ hw hs => hw.step hs
  rw [hend] at h
  exact GpioHAL.ajar_iff.1 (h.ajar_of_nil hopen)

/-- A box with two doors that stand open, and no scanner. -/
def standing : Setup Unit :=
  { mappings := [⟨0, 1, 39, 0, false⟩, ⟨1, 2, 40, 0, false⟩]
    ambientPin := invalidPin
    samples := fun _ => true
    pins := fun _ => false
    activate := none
    deactivate := none
    switchPin := qrScannerPinUnused
    switchActiveHigh := true
    scannerTestKeepCred := false
    sampled := 0
    time := 0
    rest := () }

theorem open_not_shut_standing : ∃ acts s, Run (LoopStep emptyBox fun _ _ => True) (standing.start emptyBox) acts s ∧
    s.phase = .request ∧ s.machine.context.state = .opened ∧
    ((hardware s.machine).gpio.readDoorState s.machine.context.doorToOpen = Hal.doorOpen ∨
      (hardware s.machine).gpio.readDoorState s.machine.context.doorToOpen = doorMixed) := by
  have halone : Uneventful emptyBox 0 10 (fun _ => true) (standing.start emptyBox).machine := by decide
  have hdoor : openBoxDoor (.integer 0) = some 0 := rfl
  obtain ⟨acts, hrun⟩ := served_run (fun _ _ => True) hdoor (Nat.zero_le 10) halone
  exact ⟨acts, _, hrun, rfl, rfl, open_not_shut emptyBox _ standing hrun rfl rfl⟩

end OrangeBox.MainLoop
