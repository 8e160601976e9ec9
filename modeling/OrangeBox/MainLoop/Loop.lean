import OrangeBox.CredProtocol.Request
import OrangeBox.Hal.Contacts
import OrangeBox.Scanner.BoxScanner
/-!
# The main loop

`loop` of `main.cpp`: one web request, the contacts, the timers, the keyboard,
the machine and the scanner, in that order. `Phase` says where the loop is; an
action is one event with its transition, or one slot of the timers, so that the
states in between can be talked about.
-/
open OrangeBox.PassStore OrangeBox.StateMachine OrangeBox.Scanner Clock Runs
open OrangeBox.Hal hiding doorOpen

namespace OrangeBox.MainLoop

variable {V : Type}

/-! ## The hardware under the machine -/

/-- `gpioHal` and `timerManager`, with the rest of the box. `millis` is what the
clock shows when a timer is scheduled. -/
structure Hardware (V : Type) where
  rest : V
  gpio : GpioHAL
  timers : TimerManager
  millis : UInt32

/-- `openDoor` on the hardware. -/
def Hardware.openDoor (doorNum : UInt8) (h : Hardware V) : UInt8 × Hardware V :=
  let (opened, gpio, timers) := h.gpio.openDoor doorNum h.millis h.timers
  (opened, { h with gpio := gpio, timers := timers })

/-- The devices of a machine that drives the hardware. -/
def wire (dev : Devices V) : Devices (Hardware V) where
  verifyCred value credType h :=
    let (door, v) := dev.verifyCred value credType h.rest
    (door, { h with rest := v })
  usedCred door h :=
    let (done, v) := dev.usedCred door h.rest
    (done, { h with rest := v })
  openDoor door h := h.openDoor door
  readDoorState door h := h.gpio.readDoorState door
  ambientOn h := { h with gpio := h.gpio.ambientOn }
  ambientOff h := { h with gpio := h.gpio.ambientOff }
  display d h := { h with rest := dev.display d h.rest }
  rand h := ((dev.rand h.rest).1, { h with rest := (dev.rand h.rest).2 })
  onUIUpdate action h := { h with rest := dev.onUIUpdate action h.rest }
  onStateChange oldState newState t h := { h with rest := dev.onStateChange oldState newState t h.rest }

/-- The machine with its scanner and its hardware. -/
abbrev BoxMachine (V : Type) := Machine (Watch (Hardware V))

/-- The hardware of a box. -/
def hardware (m : BoxMachine V) : Hardware V := m.world.1.rest

/-- Change the hardware. -/
def onHardware (f : Hardware V → Hardware V) (m : BoxMachine V) : BoxMachine V :=
  onBridge (fun b => { b with rest := f b.rest }) m

@[simp] theorem onHardware_context (f : Hardware V → Hardware V) (m : BoxMachine V) :
    (onHardware f m).context = m.context := rfl

@[simp] theorem onHardware_hardware (f : Hardware V → Hardware V) (m : BoxMachine V) :
    hardware (onHardware f m) = f (hardware m) := rfl

/-! ## Events -/

/-- Readings of the clock: when an event is processed, when a lock is activated,
when its timer is scheduled, and when the callback runs. -/
structure Times where
  now : Nat
  opening : Nat
  armed : Nat
  callback : Nat

/-- The readings follow each other. -/
structure Times.After (clock : Nat) (ts : Times) : Prop where
  now : clock ≤ ts.now
  opening : ts.now ≤ ts.opening
  armed : ts.opening ≤ ts.armed
  callback : ts.armed ≤ ts.callback

/-- The machine when the clock has these readings ahead. -/
def ready (ts : Times) (m : BoxMachine V) : BoxMachine V := onHardware ({ · with millis := stamp ts.armed }) m

/-- `processEvent` of the machine in the loop. -/
def dispatch (dev : Devices V) (e : BoxEvent) (ts : Times) (m : BoxMachine V) : BoxMachine V :=
  process (wire dev) e ts.now ts.opening ts.callback (ready ts m)

/-- The door that `handleOpenBox` puts into the queue for a request. -/
def openBoxDoor (doorNum : JsonVariant) : Option UInt8 := (ParamChecks.integer doorNum 0 254).map (·.toNat.toUInt8)

/-- The events of the keyboard. -/
def isKey : BoxEvent → Bool
  | .keyboardKey1 | .keyboardKey2 | .keyboardKey3 | .keyboardEnter _ | .keyboardCancel => true
  | _ => false

/-- A door whose contacts agree tells the machine. -/
def notify (dev : Devices V) (doorNum : UInt8) (ts : Times) (m : BoxMachine V) : BoxMachine V :=
  let isOpen := (hardware m).gpio.readDoorState doorNum
  if isOpen = Hal.doorOpen then dispatch dev (.doorOpened doorNum) ts m
  else if isOpen = doorClosed then dispatch dev (.doorClosed doorNum) ts m
  else m

def handleDueActions (dev : Devices V) (ts : Times) (action : UInt8) (arg : List UInt8) (m : BoxMachine V) : BoxMachine V :=
  if action = notifyDoorChange then notify dev (atoi arg) ts m
  else if action = lockDeactivateAction then onHardware (fun h => { h with gpio := (h.gpio.lockDeactivate (atoi arg)).2 }) m
  else if action = ambientDeactivate then onHardware (fun h => { h with gpio := h.gpio.ambientOff }) m
  else if action = passwordTimeoutAction then dispatch dev .passwordTimeout ts m
  else m

/-- One slot of `timerManager.update`. -/
def visitTimer (dev : Devices V) (now : UInt32) (i : Fin maxTimers) (ts : Times) : BoxMachine V → BoxMachine V :=
  TimerManager.visit (fun m => (hardware m).timers) (fun tm => onHardware ({ · with timers := tm })) (handleDueActions dev ts) now i

/-! ## The loop -/

inductive Phase where
  | request
  | contacts
  | notify (doors : List UInt8)
  | timers (now : UInt32) (slots : List (Fin maxTimers))
  | update
  | scanner

structure Loop (V : Type) where
  machine : BoxMachine V
  phase : Phase
  clock : Nat

/-- What the loop does next, with what it meets there. -/
inductive Act (V : Type) where
  | noRequest
  | request (door : UInt8) (ts : Times)
  | contacts (samples : Nat → Bool) (now : Nat)
  | notify (ts : Times)
  | timers (now : Nat)
  | timer (ts : Times)
  | noKey
  | key (e : BoxEvent) (ts : Times)
  | update (ts : Times)
  | scan (now : Nat) (ts : Times)
  | callback (ts : Times)
  | receive (bytes : List UInt8)
  | elsewhere (v : V)

/-- The contacts after a poll. -/
def pollContacts (now : UInt32) (samples : Nat → Bool) : BoxMachine V → BoxMachine V :=
  onHardware fun h => { h with gpio := (h.gpio.updateDoorStates now samples).2 }

/-- An action of the loop. Nothing goes on while a callback is still to be
processed; the rest of the box may change at any time as `env` allows. -/
inductive LoopStep (dev : Devices V) (env : V → V → Prop) (s : Loop V) : Act V → Loop V → Prop
  | noRequest : s.machine.world.1.failed = false → s.phase = .request →
      LoopStep dev env s .noRequest ⟨s.machine, .contacts, s.clock⟩
  | request {doorNum : JsonVariant} {door : UInt8} {ts : Times} : s.machine.world.1.failed = false → s.phase = .request →
      openBoxDoor doorNum = some door → ts.After s.clock →
      LoopStep dev env s (.request door ts) ⟨dispatch dev (.webOpenBox door) ts s.machine, .contacts, ts.callback⟩
  | contacts {samples : Nat → Bool} {now : Nat} : s.machine.world.1.failed = false → s.phase = .contacts → s.clock ≤ now →
      LoopStep dev env s (.contacts samples now) ⟨pollContacts (stamp now) samples s.machine,
        .notify ((hardware s.machine).gpio.updateDoorStates (stamp now) samples).1, now⟩
  | notify {door : UInt8} {doors : List UInt8} {ts : Times} : s.machine.world.1.failed = false →
      s.phase = .notify (door :: doors) → ts.After s.clock → LoopStep dev env s (.notify ts)
        ⟨handleDueActions dev ts notifyDoorChange (doorText door) s.machine, .notify doors, ts.callback⟩
  | timers {now : Nat} : s.machine.world.1.failed = false → s.phase = .notify [] → s.clock ≤ now →
      LoopStep dev env s (.timers now) ⟨s.machine, .timers (stamp now) (List.finRange maxTimers), now⟩
  | timer {now : UInt32} {i : Fin maxTimers} {slots : List (Fin maxTimers)} {ts : Times} :
      s.machine.world.1.failed = false → s.phase = .timers now (i :: slots) → ts.After s.clock →
      LoopStep dev env s (.timer ts) ⟨visitTimer dev now i ts s.machine, .timers now slots, ts.callback⟩
  | noKey {now : UInt32} : s.machine.world.1.failed = false → s.phase = .timers now [] →
      LoopStep dev env s .noKey ⟨s.machine, .update, s.clock⟩
  | key {now : UInt32} {e : BoxEvent} {ts : Times} : s.machine.world.1.failed = false → s.phase = .timers now [] →
      isKey e = true → ts.After s.clock → LoopStep dev env s (.key e ts) ⟨dispatch dev e ts s.machine, .update, ts.callback⟩
  | update {ts : Times} : s.machine.world.1.failed = false → s.phase = .update → ts.After s.clock →
      LoopStep dev env s (.update ts) ⟨update (attach (wire dev)).logged (stamp ts.now) (stamp ts.opening)
        (onBridge ({ · with millis := stamp ts.callback }) (ready ts s.machine)), .scanner, ts.callback⟩
  | scan {now : Nat} {ts : Times} {e : BoxEvent} : s.machine.world.1.failed = false → s.phase = .scanner → s.clock ≤ now →
      ts.After now → scanned now s.machine = some e →
      LoopStep dev env s (.scan now ts) ⟨dispatch dev e ts (polled now s.machine), .request, ts.callback⟩
  | silent {now : Nat} {ts : Times} : s.machine.world.1.failed = false → s.phase = .scanner → s.clock ≤ now → ts.After now →
      scanned now s.machine = none → LoopStep dev env s (.scan now ts) ⟨polled now s.machine, .request, ts.callback⟩
  | callback {ts : Times} : s.machine.world.1.failed = true → ts.After s.clock → LoopStep dev env s (.callback ts)
      ⟨dispatch dev .scannerFailed ts (onBridge ({ · with failed := false }) s.machine), s.phase, ts.callback⟩
  | receive {bytes : List UInt8} : LoopStep dev env s (.receive bytes)
      ⟨onBridge (fun b => { b with qr := { b.qr with input := b.qr.input ++ bytes } }) s.machine, s.phase, s.clock⟩
  | elsewhere {v : V} : env (hardware s.machine).rest v →
      LoopStep dev env s (.elsewhere v) ⟨onHardware ({ · with rest := v }) s.machine, s.phase, s.clock⟩

/-! ## Setup -/

/-- What the box finds when it starts. -/
structure Setup (V : Type) where
  mappings : List DoorMapping
  ambientPin : UInt8
  samples : Nat → Bool
  pins : UInt8 → Bool
  activate : Option (List UInt8)
  deactivate : Option (List UInt8)
  switchPin : UInt8
  switchActiveHigh : Bool
  scannerTestKeepCred : Bool
  /-- When `initializeGpioHAL` reads the contacts. -/
  sampled : Nat
  /-- When the machine is initialized. -/
  time : Nat
  rest : V

/-- The hardware after `initializeGpioHAL`. -/
def Setup.hardware (setup : Setup V) : Hardware V :=
  { rest := setup.rest
    gpio := .initializeGpioHAL setup.mappings setup.ambientPin setup.samples (stamp setup.sampled) setup.pins
    timers := .constructed
    millis := stamp setup.time }

/-- The box after `setup`. -/
def Setup.start (dev : Devices V) (setup : Setup V) : Loop V :=
  let s := begun (wire dev) setup.activate setup.deactivate setup.switchPin setup.switchActiveHigh setup.scannerTestKeepCred
    setup.time setup.hardware
  ⟨s.machine, .request, s.clock⟩

/-! ## An iteration with one request -/

/-- The clock stands still. -/
def Times.at (t : Nat) : Times := ⟨t, t, t, t⟩

theorem Times.at_after {clock t : Nat} (h : clock ≤ t) : (Times.at t).After clock :=
  ⟨h, Nat.le_refl t, Nat.le_refl t, Nat.le_refl t⟩

/-- The machine after a web request at `t` and the poll after it. -/
def requested (dev : Devices V) (door : UInt8) (t : Nat) (samples : Nat → Bool) (m : BoxMachine V) : BoxMachine V :=
  pollContacts (stamp t) samples (dispatch dev (.webOpenBox door) (.at t) m)

/-- The machine after the update that follows. -/
def served (dev : Devices V) (door : UInt8) (t : Nat) (samples : Nat → Bool) (m : BoxMachine V) : BoxMachine V :=
  update (attach (wire dev)).logged (stamp t) (stamp t)
    (onBridge ({ · with millis := stamp t }) (ready (.at t) (requested dev door t samples m)))

/-- The iteration meets nothing but the request: no contact changes, no timer is
due and the scanner has nothing to say. -/
def Uneventful (dev : Devices V) (door : UInt8) (t : Nat) (samples : Nat → Bool) (m : BoxMachine V) : Prop :=
  m.world.1.failed = false ∧ (requested dev door t samples m).world.1.failed = false ∧
    (served dev door t samples m).world.1.failed = false ∧
    (∀ p ∈ (hardware (dispatch dev (.webOpenBox door) (.at t) m)).gpio.doors.zipIdx,
      p.1.changes (stamp t) (samples p.2) = false) ∧
    (∀ i, (hardware (requested dev door t samples m)).timers.due (stamp t) i = false) ∧
    (served dev door t samples m).world.1.ready = false

instance (dev : Devices V) (door : UInt8) (t : Nat) (samples : Nat → Bool) (m : BoxMachine V) :
    Decidable (Uneventful dev door t samples m) := inferInstanceAs (Decidable (_ ∧ _))

variable {dev : Devices V}

/-- A pass over timers that are not due. -/
theorem idle_timers (env : V → V → Prop) {now : UInt32} {m : BoxMachine V} {clock : Nat} (slots : List (Fin maxTimers))
    (hf : m.world.1.failed = false) (hdue : ∀ i, (hardware m).timers.due now i = false) :
    ∃ acts, Run (LoopStep dev env) ⟨m, .timers now slots, clock⟩ acts ⟨m, .timers now [], clock⟩ := by
  induction slots with
  | nil => exact ⟨[], .nil⟩
  | cons i slots ih =>
    obtain ⟨acts, hrun⟩ := ih
    have hstep : LoopStep dev env ⟨m, .timers now (i :: slots), clock⟩ (.timer (.at clock))
        ⟨visitTimer dev now i (.at clock) m, .timers now slots, clock⟩ := .timer hf rfl (Times.at_after (Nat.le_refl _))
    have hidle : visitTimer dev now i (.at clock) m = m := by
      unfold visitTimer TimerManager.visit
      rw [if_neg (by rw [hdue i]; decide)]
    rw [hidle] at hstep
    exact ⟨_, Run.cons hstep hrun⟩

/-- The run of such an iteration. -/
theorem served_run (env : V → V → Prop) {doorNum : JsonVariant} {door : UInt8} {t clock : Nat} {samples : Nat → Bool} {m : BoxMachine V}
    (hdoor : openBoxDoor doorNum = some door) (ht : clock ≤ t) (h : Uneventful dev door t samples m) :
    ∃ acts, Run (LoopStep dev env) ⟨m, .request, clock⟩ acts ⟨served dev door t samples m, .request, t⟩ := by
  obtain ⟨hf, hf₁, hf₂, hnone, hdue, hready⟩ := h
  have hrequest : LoopStep dev env ⟨m, .request, clock⟩ (.request door (.at t))
      ⟨dispatch dev (.webOpenBox door) (.at t) m, .contacts, t⟩ := .request hf rfl hdoor (Times.at_after ht)
  have hpoll : LoopStep dev env ⟨dispatch dev (.webOpenBox door) (.at t) m, .contacts, t⟩ (.contacts samples t)
      ⟨requested dev door t samples m, .notify [], t⟩ := by
    rw [← GpioHAL.announced_nil hnone]
    exact .contacts hf₁ rfl (Nat.le_refl t)
  have htimers : LoopStep dev env ⟨requested dev door t samples m, .notify [], t⟩ (.timers t)
      ⟨requested dev door t samples m, .timers (stamp t) (List.finRange maxTimers), t⟩ := .timers hf₁ rfl (Nat.le_refl t)
  obtain ⟨acts, hidle⟩ : ∃ acts, Run (LoopStep dev env)
      ⟨requested dev door t samples m, .timers (stamp t) (List.finRange maxTimers), t⟩ acts
      ⟨requested dev door t samples m, .timers (stamp t) [], t⟩ := idle_timers env _ hf₁ hdue
  have hkey : LoopStep dev env ⟨requested dev door t samples m, .timers (stamp t) [], t⟩ .noKey
      ⟨requested dev door t samples m, .update, t⟩ := .noKey hf₁ rfl
  have hupdate : LoopStep dev env ⟨requested dev door t samples m, .update, t⟩ (.update (.at t))
      ⟨served dev door t samples m, .scanner, t⟩ := .update hf₁ rfl (Times.at_after (Nat.le_refl t))
  have hsilent : scanned t (served dev door t samples m) = none ∧
      polled t (served dev door t samples m) = served dev door t samples m := by
    unfold scanned polled onBridge poll
    rw [if_pos hready]
    refine ⟨rfl, ?_⟩
    generalize served dev door t samples m = r at hready ⊢
    obtain ⟨c, u, k, w⟩ := r
    simp only [Machine.call]
    rw [if_pos hready]
  have hscan : LoopStep dev env ⟨served dev door t samples m, .scanner, t⟩ (.scan t (.at t))
      ⟨polled t (served dev door t samples m), .request, t⟩ :=
    .silent hf₂ rfl (Nat.le_refl t) (Times.at_after (Nat.le_refl t)) hsilent.1
  rw [hsilent.2] at hscan
  exact ⟨_, .append (.cons hrequest (.cons hpoll (.single htimers))) (hidle.append (.cons hkey (.cons hupdate (.single hscan))))⟩

end OrangeBox.MainLoop
