import OrangeBox.Lib.Run
import OrangeBox.StateMachine.Reactions
/-!
# Steps of the machine

The machine meets events and updates in any order; between them the rest of the
box may change as `env` allows. Time is counted in milliseconds from the start
of the counter, so the readings are stamps of a clock that never goes back.
-/
open OrangeBox.PassStore Clock Runs

namespace OrangeBox.StateMachine

variable {W : Type} {dev : Devices W} {m m' : Machine W} {e : BoxEvent} {target : BoxState} {now millis : UInt32}

/-- The machine at a time. -/
structure Moment (W : Type) where
  machine : Machine W
  clock : Nat

/-- What happens to the machine. The clock is read at `t`, and at `t'` when a
lock is activated. -/
inductive Stimulus (W : Type) where
  | event (e : BoxEvent) (t t' : Nat)
  | update (t t' : Nat)
  | elsewhere (w : W)

inductive Step (dev : Devices W) (env : W → W → Prop) (s : Moment W) : Stimulus W → Moment W → Prop
  | event {e : BoxEvent} {t t' : Nat} : s.clock ≤ t → t ≤ t' →
      Step dev env s (.event e t t') ⟨processEvent dev e (stamp t) (stamp t') s.machine, t'⟩
  | update {t t' : Nat} : s.clock ≤ t → t ≤ t' →
      Step dev env s (.update t t') ⟨update dev (stamp t) (stamp t') s.machine, t'⟩
  | elsewhere {w : W} : env s.machine.world w → Step dev env s (.elsewhere w) ⟨{ s.machine with world := w }, s.clock⟩

/-- The machine after `initialize` at time `t`. -/
def started (dev : Devices W) (t : Nat) (m : Machine W) : Moment W := ⟨initializeMachine dev (stamp t) m, t⟩

theorem started_context (t : Nat) (m : Machine W) : (started dev t m).machine.context =
    { BoxStateContext.zero with
      doorOpenDuration := m.context.doorOpenDuration
      displayRefreshStartedAt := stamp t
      displayRefreshActive := true } := by
  simp [started, initializeMachine, scheduleNextDisplayRefresh, onEnterHome, BoxStateContext.zero]

/-- A machine as constructed. -/
def constructed (w : W) : Machine W :=
  { context := BoxStateContext.zero, lastUIAction := 0, scannerTestKeepCred := false, world := w }

/-- A box without credentials. Its locks work, and its contacts are not connected. -/
def emptyBox : Devices Unit where
  verifyCred _ _ _ := (doorUnknown, ())
  usedCred _ _ := (false, ())
  openDoor door _ := (door, ())
  readDoorState _ _ := doorUnknown
  ambientOn _ := ()
  ambientOff _ := ()
  display _ _ := ()
  rand _ := (0, ())
  onUIUpdate _ _ := ()
  onStateChange _ _ _ _ := ()

/-! ## Calls -/

/-- A call with its answer. -/
inductive DeviceCall where
  | verifyCred (value : List UInt8) (credType : CredType) (door : UInt8)
  | usedCred (door : UInt8) (done : Bool)
  | openDoor (door opened : UInt8)

/-- The same devices, with a record of these calls. -/
def Devices.logged (dev : Devices W) : Devices (W × List DeviceCall) where
  verifyCred value credType w :=
    let (door, w₁) := dev.verifyCred value credType w.1
    (door, w₁, w.2 ++ [.verifyCred value credType door])
  usedCred door w :=
    let (done, w₁) := dev.usedCred door w.1
    (done, w₁, w.2 ++ [.usedCred door done])
  openDoor door w :=
    let (opened, w₁) := dev.openDoor door w.1
    (opened, w₁, w.2 ++ [.openDoor door opened])
  readDoorState door w := dev.readDoorState door w.1
  ambientOn w := (dev.ambientOn w.1, w.2)
  ambientOff w := (dev.ambientOff w.1, w.2)
  display d w := (dev.display d w.1, w.2)
  rand w := ((dev.rand w.1).1, (dev.rand w.1).2, w.2)
  onUIUpdate action w := (dev.onUIUpdate action w.1, w.2)
  onStateChange old new t w := (dev.onStateChange old new t w.1, w.2)

/-- The rest of the box makes none of these calls. -/
def sameCalls (w w' : W × List DeviceCall) : Prop := w'.2 = w.2

theorem logged_quiet (dev : Devices W) : Quiet dev.logged sameCalls where
  refl _ := rfl
  trans h h' := h'.trans h
  ambientOn _ := rfl
  ambientOff _ := rfl
  display _ _ := rfl
  rand _ := rfl
  onUIUpdate _ _ := rfl
  onStateChange _ _ _ _ := rfl

/-- The calls a transition makes: it may activate a lock or charge a credential. -/
inductive Calling (dev : Devices W) (m : Machine (W × List DeviceCall)) : BoxState → List DeviceCall → Prop
  | none {target : BoxState} : (target = .opening → m.context.state = .opening ∨
      m.context.doorToOpen = doorUnknown ∧ (tried dev.logged m).1 = false) → Calling dev m target []
  | openDoor {opened : UInt8} : m.context.state ≠ .opening → m.context.doorToOpen ≠ doorUnknown →
      (tried dev.logged m).1 = decide (opened = m.context.doorToOpen) →
      Calling dev m .opening [.openDoor m.context.doorToOpen opened]
  | usedCred {done : Bool} : m.context.state ≠ .opened → consumes m = true →
      Calling dev m .opened [.usedCred m.context.doorToOpen done]

theorem transitionTo_calls (dev : Devices W) (target : BoxState) (now millis : UInt32)
    (m : Machine (W × List DeviceCall)) : ∃ calls, Calling dev m target calls ∧
      (transitionTo dev.logged target now millis m).world.2 = m.world.2 ++ calls := by
  have hq := logged_quiet dev
  by_cases ho : target = .opening
  · subst ho
    by_cases h : m.context.state = .opening
    · exact ⟨[], .none fun _ => .inl h, by rw [transitionTo_self h.symm, List.append_nil]⟩
    rw [transitionTo_world (Ne.symm h)]
    obtain ⟨w, hw, ⟨hd, htried, hw'⟩ | ⟨hd, htried, hw'⟩⟩ := hq.opening now millis m
    · exact ⟨[], .none fun _ => .inr ⟨hd, htried⟩, by rw [List.append_nil]; exact hw'.trans hw⟩
    · refine ⟨_, .openDoor h hd htried, Eq.trans hw' ?_⟩
      rw [← show w.2 = m.world.2 from hw]
      rfl
  by_cases hd : target = .opened
  · subst hd
    by_cases h : m.context.state = .opened
    · exact ⟨[], .none fun h => absurd h ho, by rw [transitionTo_self h.symm, List.append_nil]⟩
    rw [transitionTo_world (Ne.symm h)]
    obtain ⟨w, hw, hw'⟩ := hq.opened now millis m
    cases hc : consumes m with
    | false =>
      rw [hc] at hw'
      exact ⟨[], .none fun h => absurd h ho, by rw [List.append_nil]; exact hw'.trans hw⟩
    | true =>
      rw [hc] at hw'
      refine ⟨[.usedCred m.context.doorToOpen (dev.usedCred m.context.doorToOpen w.1).1], .usedCred h hc, Eq.trans hw' ?_⟩
      rw [← show w.2 = m.world.2 from hw]
      rfl
  · exact ⟨[], .none fun h => absurd h ho, by rw [List.append_nil]; exact hq.transitionTo ho hd m⟩

/-- The calls of `verifyCred` an event makes. -/
def verifications (dev : Devices W) (now : UInt32) (m : Machine (W × List DeviceCall)) (e : BoxEvent) : List DeviceCall :=
  if evaluated now m.context e then
    match presented e with
    | some (value, credType) => [.verifyCred value credType (dev.verifyCred value credType m.world.1).1]
    | none => []
  else []

theorem verifications_of_presented {m : Machine (W × List DeviceCall)} {value : List UInt8} {credType : CredType}
    (he : evaluated now m.context e = true) (hp : presented e = some (value, credType)) :
    verifications dev now m e = [.verifyCred value credType (dev.verifyCred value credType m.world.1).1] := by
  rw [verifications, if_pos he, hp]

theorem Reaction.calls {m m' : Machine (W × List DeviceCall)} (h : Reaction dev.logged now m e m' target) :
    m'.world.2 = m.world.2 ++ verifications dev now m e := by
  have hnone : evaluated now m.context e = false → m.world.2 = m.world.2 ++ verifications dev now m e := fun he => by
    simp [verifications, he]
  cases h with
  | ignored hh =>
    rw [← hnone (by cases e <;> simp_all [handled, evaluated])]
    exact (logged_quiet dev).notice _ _
  | penalty _ _ he => exact hnone (by rcases he with rfl | rfl <;> rfl)
  | password | scan | presence | web | opened | closed => exact hnone rfl
  | home _ he => exact hnone he
  | accepted he hp =>
    rw [verifications_of_presented he hp]
    rfl
  | refused he hp =>
    rw [verifications_of_presented he hp]
    rfl
  | invalidCode he =>
    rw [verifications, if_pos he]
    exact (List.append_nil _).symm

/-- The calls made between two moments. -/
def newCalls (s s' : Moment (W × List DeviceCall)) : List DeviceCall :=
  s'.machine.world.2.drop s.machine.world.2.length

theorem newCalls_of_append {s s' : Moment (W × List DeviceCall)} {calls : List DeviceCall}
    (h : s'.machine.world.2 = s.machine.world.2 ++ calls) : newCalls s s' = calls := by
  rw [newCalls, h, List.drop_left]

end OrangeBox.StateMachine
