import OrangeBox.StateMachine.Steps
/-!
# The keyboard

`keyboard.cpp`, and the part of the state change callback that is about it. A
poll gets what the keypad answers on the bus: a length and the keys, or nothing.
The stars that `handleKey` shows are left out.
-/
open OrangeBox.PassStore OrangeBox.StateMachine Clock Runs

namespace OrangeBox.Keyboard

abbrev passMax : Nat := 8
abbrev keyboardModeCommand : UInt8 := 1
abbrev keyboardModePassword : UInt8 := 2
abbrev keyboardKey1 : UInt8 := 1
abbrev keyboardKey2 : UInt8 := 2
abbrev keyboardKey3 : UInt8 := 3
/-- `#`. -/
abbrev keyboardKeyEnter : UInt8 := 13
/-- `*`. -/
abbrev keyboardKeyCancel : UInt8 := 27

structure KeyboardStatus where
  keyboardMode : UInt8
  currentPasswordLen : Nat
  passwordComplete : Bool
  cancelPressed : Bool
  currentPassword : Vector UInt8 (passMax + 1)
  currentKey : UInt8
  deriving DecidableEq

/-- `keyboardState`, and the mode `BoxKeyboard` keeps for itself. -/
structure BoxKeyboard where
  keyboardMode : UInt8
  keyboardState : KeyboardStatus
  deriving DecidableEq

namespace KeyboardStatus

def zero : KeyboardStatus :=
  { keyboardMode := 0, currentPasswordLen := 0, passwordComplete := false, cancelPressed := false,
    currentPassword := Vector.replicate _ 0, currentKey := 0 }

def clearPassword (s : KeyboardStatus) : KeyboardStatus :=
  { s with currentPassword := (List.range passMax).foldl (fun buffer i => buffer.setIfInBounds i 32) s.currentPassword }

def handleKey (s : KeyboardStatus) (k : UInt8) : KeyboardStatus :=
  if k ≤ 9 then
    if s.currentPasswordLen < passMax then
      { s with
        currentPassword := s.currentPassword.setIfInBounds s.currentPasswordLen (48 + k)
        currentPasswordLen := s.currentPasswordLen + 1 }
    else s
  else if k = keyboardKeyCancel then
    if s.currentPasswordLen > 0 then { s with currentPasswordLen := s.currentPasswordLen - 1 }
    else { s with cancelPressed := true }
  else if k = keyboardKeyEnter then
    if s.currentPasswordLen > 0 then
      { s with
        currentPassword := s.currentPassword.setIfInBounds s.currentPasswordLen 0
        passwordComplete := true }
    else s
  else s

/-- The state change callback. -/
def onStateChanged (newState : BoxState) (s : KeyboardStatus) : KeyboardStatus :=
  if newState = .password then
    clearPassword { s with
      keyboardMode := keyboardModePassword
      currentPasswordLen := 0
      passwordComplete := false
      cancelPressed := false }
  else { s with keyboardMode := keyboardModeCommand }

end KeyboardStatus

namespace BoxKeyboard

/-- After `setup`. -/
def constructed : BoxKeyboard :=
  { keyboardMode := 0, keyboardState := { KeyboardStatus.zero with keyboardMode := keyboardModeCommand } }

/-- The keys in an answer of the keypad. -/
def keysOf : List UInt8 → List UInt8
  | [] => []
  | len :: rest => rest.take len.toNat

def pollKeypad (response : List UInt8) (b : BoxKeyboard) : Bool × BoxKeyboard :=
  match response with
  | [] => (false, b)
  | len :: rest =>
    let receive (s : KeyboardStatus) (k : UInt8) : KeyboardStatus :=
      if b.keyboardMode = keyboardModeCommand then { s with currentKey := k }
      else if b.keyboardMode = keyboardModePassword then s.handleKey k
      else s
    (true, { b with keyboardState := (rest.take len.toNat).foldl receive b.keyboardState })

def pollKeyboard (response : List UInt8) (b : BoxKeyboard) : Bool × BoxKeyboard :=
  if b.keyboardState.keyboardMode = keyboardModeCommand then
    pollKeypad response { b with keyboardMode := keyboardModeCommand }
  else if b.keyboardState.keyboardMode = keyboardModePassword then
    pollKeypad response
      (if b.keyboardMode ≠ keyboardModePassword then
        { keyboardMode := keyboardModePassword
          keyboardState := { b.keyboardState with currentPasswordLen := 0, passwordComplete := false } }
      else b)
  else (false, b)

/-- The mode `handleKeyboard` sets before it polls. -/
def enterMode (state : BoxState) (b : BoxKeyboard) : BoxKeyboard :=
  { b with keyboardState := { b.keyboardState with
      keyboardMode := if state = .password then keyboardModePassword else keyboardModeCommand } }

end BoxKeyboard

/-- The event `handleKeyboard` raises after a poll. -/
def raisedEvent (state : BoxState) (s : KeyboardStatus) : Option BoxEvent :=
  match state with
  | .home =>
    if s.keyboardMode = keyboardModeCommand then
      if s.currentKey = keyboardKey1 then some .keyboardKey1
      else if s.currentKey = keyboardKey2 then some .keyboardKey2
      else if s.currentKey = keyboardKey3 then some .keyboardKey3
      else none
    else none
  | .password =>
    if s.passwordComplete then
      some (.keyboardEnter ((CText.read (passMax + 1) s.currentPassword.toList).truncate 32 (by decide)))
    else if s.cancelPressed then some .keyboardCancel
    else none
  | .badPass | .presence | .scan =>
    if s.currentKey = keyboardKeyCancel || s.cancelPressed then some .keyboardCancel else none
  | _ => none

/-- What `handleKeyboard` does once its event is processed. -/
def settled (state : BoxState) (event : BoxEvent) (s : KeyboardStatus) : KeyboardStatus :=
  match state, event with
  | .password, .keyboardEnter _ =>
    KeyboardStatus.clearPassword { s with passwordComplete := false, currentPasswordLen := 0, cancelPressed := false }
  | .password, _ => { s with cancelPressed := false }
  | .home, _ => { s with currentKey := 32 }
  | _, _ => { s with currentKey := 32, cancelPressed := false }

/-! ## The keyboard at the machine -/

variable {W : Type}

/-- The devices of a machine whose state changes reach the keyboard. -/
def keyed (dev : Devices W) : Devices (W × BoxKeyboard) where
  verifyCred value credType w := ((dev.verifyCred value credType w.1).1, (dev.verifyCred value credType w.1).2, w.2)
  usedCred door w := ((dev.usedCred door w.1).1, (dev.usedCred door w.1).2, w.2)
  openDoor door w := ((dev.openDoor door w.1).1, (dev.openDoor door w.1).2, w.2)
  readDoorState door w := dev.readDoorState door w.1
  ambientOn w := (dev.ambientOn w.1, w.2)
  ambientOff w := (dev.ambientOff w.1, w.2)
  display d w := (dev.display d w.1, w.2)
  rand w := ((dev.rand w.1).1, (dev.rand w.1).2, w.2)
  onUIUpdate action w := (dev.onUIUpdate action w.1, w.2)
  onStateChange old new t w :=
    (dev.onStateChange old new t w.1, { w.2 with keyboardState := w.2.keyboardState.onStateChanged new })

/-- The keyboard of a machine. -/
def keyboard (m : Machine (W × BoxKeyboard)) : BoxKeyboard := m.world.2

def withKeyboard (b : BoxKeyboard) (m : Machine (W × BoxKeyboard)) : Machine (W × BoxKeyboard) := m.call ((·.1, b))

/-- `handleKeyboard`, and the event it raised. -/
def handleKeyboard (dev : Devices W) (response : List UInt8) (currentMillis millis : UInt32)
    (m : Machine (W × BoxKeyboard)) : Option BoxEvent × Machine (W × BoxKeyboard) :=
  let state := m.context.state
  let (polled, b) := (m.world.2.enterMode state).pollKeyboard response
  let m := withKeyboard b m
  match if polled then raisedEvent state b.keyboardState else none with
  | none => (none, m)
  | some e =>
    let m := processEvent (keyed dev) e currentMillis millis m
    (some e, withKeyboard { m.world.2 with keyboardState := settled state e m.world.2.keyboardState } m)

/-! ## What a poll does -/

/-- The last key of an answer is kept. -/
theorem foldl_currentKey (keys : List UInt8) (status : KeyboardStatus) :
    keys.foldl (fun s k => { s with currentKey := k }) status =
      { status with currentKey := keys.getLast?.getD status.currentKey } := by
  induction keys generalizing status with
  | nil => rfl
  | cons k keys ih =>
    rw [List.foldl_cons, ih, List.getLast?_cons]
    rfl

namespace BoxKeyboard

/-- The keyboard after a poll outside Password. -/
def heard (response : List UInt8) (b : BoxKeyboard) : BoxKeyboard :=
  { keyboardMode := keyboardModeCommand
    keyboardState := { b.keyboardState with
      keyboardMode := keyboardModeCommand
      currentKey := (keysOf response).getLast?.getD b.keyboardState.currentKey } }

/-- The entry when a poll in Password starts. -/
def opened (b : BoxKeyboard) : KeyboardStatus :=
  if b.keyboardMode ≠ keyboardModePassword then
    { b.keyboardState with keyboardMode := keyboardModePassword, currentPasswordLen := 0, passwordComplete := false }
  else { b.keyboardState with keyboardMode := keyboardModePassword }

/-- The keyboard after a poll in Password. -/
def typed (response : List UInt8) (b : BoxKeyboard) : BoxKeyboard :=
  { keyboardMode := keyboardModePassword, keyboardState := (keysOf response).foldl KeyboardStatus.handleKey b.opened }

/-- The keyboard after a poll. -/
def polled (state : BoxState) (response : List UInt8) (b : BoxKeyboard) : BoxKeyboard :=
  if state = .password then b.typed response else b.heard response

theorem pollKeypad_command {b : BoxKeyboard} (h : b.keyboardMode = keyboardModeCommand) (response : List UInt8) :
    b.pollKeypad response = (decide (response ≠ []), { b with keyboardState := { b.keyboardState with
      currentKey := (keysOf response).getLast?.getD b.keyboardState.currentKey } }) := by
  cases response with
  | nil => rfl
  | cons len rest =>
    simp only [pollKeypad, h, if_true, foldl_currentKey]
    rfl

theorem pollKeypad_password {b : BoxKeyboard} (h : b.keyboardMode = keyboardModePassword) (response : List UInt8) :
    b.pollKeypad response = (decide (response ≠ []),
      { b with keyboardState := (keysOf response).foldl KeyboardStatus.handleKey b.keyboardState }) := by
  cases response with
  | nil => rfl
  | cons len rest =>
    have hne : keyboardModePassword ≠ keyboardModeCommand := by decide
    simp only [pollKeypad, h, if_neg hne, if_true]
    rfl

theorem pollKeyboard_eq (state : BoxState) (response : List UInt8) (b : BoxKeyboard) :
    (b.enterMode state).pollKeyboard response = (decide (response ≠ []), b.polled state response) := by
  unfold pollKeyboard polled
  by_cases hs : state = .password
  · have hmode : (b.enterMode state).keyboardState.keyboardMode = keyboardModePassword := if_pos hs
    rw [hmode, if_neg (by decide), if_pos rfl, if_pos hs]
    split
    · rename_i hfirst
      have hfirst' : b.keyboardMode ≠ keyboardModePassword := hfirst
      rw [pollKeypad_password rfl, typed, opened, if_pos hfirst']
      simp [enterMode, hs]
    · rename_i hsame
      have hsame' : b.keyboardMode = keyboardModePassword := not_not.1 hsame
      rw [pollKeypad_password (b := b.enterMode state) hsame', typed, opened, if_neg (not_not.2 hsame')]
      simp [enterMode, hs, hsame']
  · have hmode : (b.enterMode state).keyboardState.keyboardMode = keyboardModeCommand := if_neg hs
    rw [if_pos hmode, if_neg hs, pollKeypad_command rfl]
    simp [enterMode, hs, heard]

end BoxKeyboard

/-- The event of a poll. -/
def calledFor (state : BoxState) (response : List UInt8) (b : BoxKeyboard) : Option BoxEvent :=
  if response = [] then none else raisedEvent state (b.polled state response).keyboardState

/-- The machine after a poll that raised an event. -/
def handled (dev : Devices W) (response : List UInt8) (currentMillis millis : UInt32) (e : BoxEvent)
    (m : Machine (W × BoxKeyboard)) : Machine (W × BoxKeyboard) :=
  let m' := processEvent (keyed dev) e currentMillis millis (withKeyboard ((keyboard m).polled m.context.state response) m)
  withKeyboard { keyboard m' with keyboardState := settled m.context.state e (keyboard m').keyboardState } m'

theorem handleKeyboard_eq (dev : Devices W) (response : List UInt8) (currentMillis millis : UInt32)
    (m : Machine (W × BoxKeyboard)) : handleKeyboard dev response currentMillis millis m =
      match calledFor m.context.state response (keyboard m) with
      | none => (none, withKeyboard ((keyboard m).polled m.context.state response) m)
      | some e => (some e, handled dev response currentMillis millis e m) := by
  have hevent : (if decide (response ≠ []) = true then
      raisedEvent m.context.state ((keyboard m).polled m.context.state response).keyboardState else none) =
      calledFor m.context.state response (keyboard m) := by
    by_cases hr : response = [] <;> simp [hr, calledFor]
  rw [handleKeyboard, ← hevent]
  unfold handled keyboard
  rw [BoxKeyboard.pollKeyboard_eq]

/-! ## Runs -/

/-- The keyboard is polled, or something else happens to the machine. -/
inductive Act (W : Type) where
  | poll (response : List UInt8) (t t' : Nat)
  | other (a : Stimulus (W × BoxKeyboard))

/-- Nothing else touches the keyboard. -/
def Untouched (env : W → W → Prop) (w w' : W × BoxKeyboard) : Prop := env w.1 w'.1 ∧ w'.2 = w.2

inductive KeyStep (dev : Devices W) (env : W → W → Prop) (s : Moment (W × BoxKeyboard)) :
    Act W → Moment (W × BoxKeyboard) → Prop
  | poll {response : List UInt8} {t t' : Nat} : s.clock ≤ t → t ≤ t' → KeyStep dev env s (.poll response t t')
      ⟨(handleKeyboard dev response (stamp t) (stamp t') s.machine).2, t'⟩
  | other {a : Stimulus (W × BoxKeyboard)} {s' : Moment (W × BoxKeyboard)} :
      Step (keyed dev) (Untouched env) s a s' → KeyStep dev env s (.other a) s'

/-- The event a poll raises. -/
def raised (dev : Devices W) (s : Moment (W × BoxKeyboard)) : Act W → Option BoxEvent
  | .poll response t t' => (handleKeyboard dev response (stamp t) (stamp t') s.machine).1
  | .other _ => none

theorem raised_poll (dev : Devices W) (s : Moment (W × BoxKeyboard)) (response : List UInt8) (t t' : Nat) :
    raised dev s (.poll response t t') = calledFor s.machine.context.state response (keyboard s.machine) := by
  rw [raised, handleKeyboard_eq]
  split <;> rename_i hcalled <;> exact hcalled.symm

/-- A box as it starts. -/
def startedBox (dev : Devices W) (t : Nat) (w : W) : Moment (W × BoxKeyboard) :=
  started (keyed dev) t (constructed (w, .constructed))

end OrangeBox.Keyboard
