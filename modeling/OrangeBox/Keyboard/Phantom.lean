import OrangeBox.Keyboard.Keyboard
/-!
# Keys that come late

Outside Password the keyboard looks at the last key it received, whenever that
was. An answer without keys raises the event of a key that came in an earlier
poll, if the machine has come to a state where that key means something.
-/
open OrangeBox.PassStore OrangeBox.StateMachine Clock Runs

namespace OrangeBox.Keyboard

variable {W : Type} {dev : Devices W} {env : W → W → Prop} {s s' : Moment (W × BoxKeyboard)} {state : BoxState}
  {response : List UInt8} {k : UInt8} {e : BoxEvent} {m : Machine (W × BoxKeyboard)} {now millis : UInt32}
  {waiting : Option UInt8} {b : BoxKeyboard}

/-! ## What a key means -/

/-- The event of a key outside Password. -/
def meaning (state : BoxState) (k : UInt8) : Option BoxEvent :=
  match state with
  | .home =>
    if k = keyboardKey1 then some .keyboardKey1
    else if k = keyboardKey2 then some .keyboardKey2
    else if k = keyboardKey3 then some .keyboardKey3
    else none
  | .badPass | .presence | .scan => if k = keyboardKeyCancel then some .keyboardCancel else none
  | _ => none

/-- The key of an event. -/
def keyFor : BoxEvent → Option UInt8
  | .keyboardKey1 => some keyboardKey1
  | .keyboardKey2 => some keyboardKey2
  | .keyboardKey3 => some keyboardKey3
  | .keyboardCancel => some keyboardKeyCancel
  | _ => none

theorem keyFor_of_meaning (h : meaning state k = some e) : keyFor e = some k := by
  unfold meaning at h
  split at h
  · split at h
    · rename_i hk
      cases h
      rw [hk]; rfl
    split at h
    · rename_i hk
      cases h
      rw [hk]; rfl
    split at h
    · rename_i hk
      cases h
      rw [hk]; rfl
    · contradiction
  iterate 3
    split at h
    · rename_i hk
      cases h
      rw [hk]; rfl
    · contradiction
  · contradiction

/-- A space stands for no key. -/
theorem meaning_space (state : BoxState) : meaning state 32 = none := by cases state <;> rfl

theorem raisedEvent_eq {status : KeyboardStatus} (hs : state ≠ .password) (hmode : status.keyboardMode = keyboardModeCommand)
    (hcancel : status.cancelPressed = false) : raisedEvent state status = meaning state status.currentKey := by
  cases state with
  | password => contradiction
  | home => rw [raisedEvent, if_pos hmode]; rfl
  | badPass | presence | scan =>
    simp only [raisedEvent, meaning, hcancel, Bool.or_false, decide_eq_true_eq]
  | opening | opened | closed | external => rfl

/-! ## What is waiting -/

/-- The key that the keyboard still holds, and it is not in the middle of a cancel. -/
structure Waits (waiting : Option UInt8) (b : BoxKeyboard) : Prop where
  key : ∀ state, meaning state b.keyboardState.currentKey = waiting.bind (meaning state)
  quiet : b.keyboardState.cancelPressed = false

/-- The machine does not touch the key, and cancels nothing. -/
def KeepsKey (w w' : W × BoxKeyboard) : Prop :=
  w'.2.keyboardState.currentKey = w.2.keyboardState.currentKey ∧
    (w.2.keyboardState.cancelPressed = false → w'.2.keyboardState.cancelPressed = false)

theorem keyed_steady (dev : Devices W) : Steady (keyed dev) KeepsKey where
  refl _ := ⟨rfl, id⟩
  trans h h' := ⟨h'.1.trans h.1, h'.2 ∘ h.2⟩
  ambientOn _ := ⟨rfl, id⟩
  ambientOff _ := ⟨rfl, id⟩
  display _ _ := ⟨rfl, id⟩
  rand _ := ⟨rfl, id⟩
  onUIUpdate _ _ := ⟨rfl, id⟩
  onStateChange _ new _ w := by
    unfold KeepsKey keyed KeyboardStatus.onStateChanged
    dsimp only
    split
    · exact ⟨rfl, fun _ => rfl⟩
    · exact ⟨rfl, id⟩
  verifyCred _ _ _ := ⟨rfl, id⟩
  usedCred _ _ := ⟨rfl, id⟩
  openDoor _ _ := ⟨rfl, id⟩

theorem keyed_processEvent (dev : Devices W) (e : BoxEvent) (now millis : UInt32) (m : Machine (W × BoxKeyboard)) :
    KeepsKey m.world (processEvent (keyed dev) e now millis m).world := (keyed_steady dev).processEvent m

theorem Waits.keep {w w' : W × BoxKeyboard} (h : Waits waiting w.2) (hk : KeepsKey w w') : Waits waiting w'.2 :=
  ⟨fun state => by rw [hk.1]; exact h.key state, hk.2 h.quiet⟩

/-- The last key received outside Password, unless it has raised its event. -/
def waitingAfter (state : BoxState) (response : List UInt8) (waiting : Option UInt8) : Option UInt8 :=
  if state = .password then waiting
  else
    let last := (BoxKeyboard.keysOf response).getLast?.or waiting
    if response ≠ [] ∧ (last.bind (meaning state)).isSome then none else last

/-- The key is looked at with the keys that came. -/
theorem Waits.heard (h : Waits waiting b) (response : List UInt8) :
    Waits ((BoxKeyboard.keysOf response).getLast?.or waiting) (b.heard response) := by
  refine ⟨fun state => ?_, h.quiet⟩
  unfold BoxKeyboard.heard
  cases (BoxKeyboard.keysOf response).getLast? with
  | none => exact h.key state
  | some k => rfl

theorem Waits.calledFor (h : Waits waiting b) (hs : state ≠ .password) (response : List UInt8) :
    calledFor state response b = if response = [] then none
      else ((BoxKeyboard.keysOf response).getLast?.or waiting).bind (meaning state) := by
  rw [Keyboard.calledFor, BoxKeyboard.polled, if_neg hs, raisedEvent_eq hs rfl (h.heard response).quiet, (h.heard response).key]

/-- Once an event is raised outside Password, nothing waits. -/
theorem settled_waits (hs : state ≠ .password) (e : BoxEvent) (h : b.keyboardState.cancelPressed = false) :
    Waits none { b with keyboardState := settled state e b.keyboardState } := by
  unfold settled
  split
  · contradiction
  · contradiction
  · exact ⟨meaning_space, h⟩
  · exact ⟨meaning_space, rfl⟩

theorem Waits.command (h : Waits waiting (keyboard m)) (hs : m.context.state ≠ .password) (response : List UInt8)
    (now millis : UInt32) : Waits (waitingAfter m.context.state response waiting)
      (keyboard (handleKeyboard dev response now millis m).2) := by
  have hheard : Waits ((BoxKeyboard.keysOf response).getLast?.or waiting) ((keyboard m).polled m.context.state response) := by
    rw [BoxKeyboard.polled, if_neg hs]
    exact h.heard response
  rw [handleKeyboard_eq, h.calledFor hs, waitingAfter, if_neg hs]
  dsimp only
  by_cases hr : response = []
  · rw [if_pos hr, if_neg fun h => h.1 hr]
    exact hheard
  rw [if_neg hr]
  cases hevent : ((BoxKeyboard.keysOf response).getLast?.or waiting).bind (meaning m.context.state) with
  | none =>
    rw [if_neg (by simp)]
    exact hheard
  | some e =>
    rw [if_pos ⟨hr, rfl⟩]
    exact settled_waits hs e ((keyed_processEvent dev e now millis _).2 hheard.quiet)

/-! ## A poll in Password -/

theorem handleKey_currentKey (status : KeyboardStatus) (k : UInt8) : (status.handleKey k).currentKey = status.currentKey := by
  unfold KeyboardStatus.handleKey
  repeat' split
  all_goals rfl

theorem opened_cancelPressed (b : BoxKeyboard) : b.opened.cancelPressed = b.keyboardState.cancelPressed := by
  unfold BoxKeyboard.opened
  split <;> rfl

theorem typed_currentKey (response : List UInt8) (b : BoxKeyboard) :
    (b.typed response).keyboardState.currentKey = b.keyboardState.currentKey := by
  have hopened : b.opened.currentKey = b.keyboardState.currentKey := by
    unfold BoxKeyboard.opened
    split <;> rfl
  exact List.foldlRecOn _ KeyboardStatus.handleKey hopened fun status hb k _ => (handleKey_currentKey status k).trans hb

/-- An event raised in Password leaves nothing to cancel, and the key alone. -/
theorem settled_password (e : BoxEvent) (status : KeyboardStatus) :
    (settled .password e status).currentKey = status.currentKey ∧ (settled .password e status).cancelPressed = false := by
  unfold settled
  split
  · exact ⟨rfl, rfl⟩
  · exact ⟨rfl, rfl⟩
  · contradiction
  · exact ⟨by simp_all, rfl⟩

theorem Waits.password (h : Waits waiting (keyboard m)) (hs : m.context.state = .password) (response : List UInt8)
    (now millis : UInt32) : Waits waiting (keyboard (handleKeyboard dev response now millis m).2) := by
  have hkey : ((keyboard m).polled m.context.state response).keyboardState.currentKey = (keyboard m).keyboardState.currentKey := by
    rw [BoxKeyboard.polled, if_pos hs, typed_currentKey]
  rw [handleKeyboard_eq]
  cases hcalled : Keyboard.calledFor m.context.state response (keyboard m) with
  | none =>
    refine ⟨fun state => (congrArg (meaning state) hkey).trans (h.key state), ?_⟩
    change ((keyboard m).polled m.context.state response).keyboardState.cancelPressed = false
    rw [hs] at hcalled ⊢
    unfold Keyboard.calledFor at hcalled
    split at hcalled
    · -- No answer: the keyboard is as it was.
      rename_i hr
      subst hr
      exact (opened_cancelPressed _).trans h.quiet
    · simp only [raisedEvent] at hcalled
      split at hcalled
      · contradiction
      split at hcalled
      · contradiction
      · rename_i hquiet
        exact Bool.eq_false_iff.2 hquiet
  | some e =>
    obtain ⟨hkept, -⟩ := keyed_processEvent dev e now millis (withKeyboard ((keyboard m).polled m.context.state response) m)
    have hsettled := settled_password e (keyboard (processEvent (keyed dev) e now millis
      (withKeyboard ((keyboard m).polled m.context.state response) m))).keyboardState
    rw [← hs] at hsettled
    exact ⟨fun state => (congrArg (meaning state) (hsettled.1.trans (hkept.trans hkey))).trans (h.key state), hsettled.2⟩

/-! ## Runs -/

/-- A run with the key that waits. -/
def Noted (dev : Devices W) (env : W → W → Prop) (σ : Moment (W × BoxKeyboard) × Option UInt8) (a : Act W)
    (σ' : Moment (W × BoxKeyboard) × Option UInt8) : Prop :=
  KeyStep dev env σ.1 a σ'.1 ∧ σ'.2 = match a with
    | .poll response _ _ => waitingAfter σ.1.machine.context.state response σ.2
    | .other _ => σ.2

variable {σ σ' : Moment (W × BoxKeyboard) × Option UInt8} {a : Act W}

theorem Noted.poll {waiting : Option UInt8} (response : List UInt8) {t t' : Nat} (h : s.clock ≤ t) (h' : t ≤ t') :
    Noted dev env (s, waiting) (.poll response t t')
      (⟨(handleKeyboard dev response (stamp t) (stamp t') s.machine).2, t'⟩,
        waitingAfter s.machine.context.state response waiting) := ⟨.poll h h', rfl⟩

theorem Noted.other {a : Stimulus (W × BoxKeyboard)} {waiting : Option UInt8} (h : Step (keyed dev) (Untouched env) s a s') :
    Noted dev env (s, waiting) (.other a) (s', waiting) := ⟨.other h, rfl⟩

/-- An event that is raised outside Password is that of the last key in the answer. -/
def Caused (dev : Devices W) (σ : Moment (W × BoxKeyboard) × Option UInt8) (a : Act W)
    (_ : Moment (W × BoxKeyboard) × Option UInt8) : Prop :=
  ∀ response t t' e, a = .poll response t t' → σ.1.machine.context.state ≠ .password → raised dev σ.1 a = some e →
    ∃ k, (BoxKeyboard.keysOf response).getLast? = some k ∧ keyFor e = some k

/-- An answer without keys does not come where the key that waits means something. -/
def Idle (σ : Moment (W × BoxKeyboard) × Option UInt8) (a : Act W) (_ : Moment (W × BoxKeyboard) × Option UInt8) : Prop :=
  ∀ response t t' k, a = .poll response t t' → σ.1.machine.context.state ≠ .password → response ≠ [] →
    BoxKeyboard.keysOf response = [] → σ.2 = some k → meaning σ.1.machine.context.state k = none

theorem Waits.caused (h : Waits σ.2 (keyboard σ.1.machine)) : Caused dev σ a σ' ↔ Idle σ a σ' := by
  constructor
  · rintro hcaused response t t' k rfl hs hr hkeys hwaits
    cases hmeans : meaning σ.1.machine.context.state k with
    | none => rfl
    | some e =>
      have hraised : raised dev σ.1 (.poll response t t') = some e := by
        rw [raised_poll, h.calledFor hs, if_neg hr, hkeys, hwaits]
        exact hmeans
      obtain ⟨k', hlast, -⟩ := hcaused response t t' e rfl hs hraised
      rw [hkeys] at hlast
      contradiction
  · rintro hidle response t t' e rfl hs hraised
    rw [raised_poll, h.calledFor hs] at hraised
    split at hraised
    · contradiction
    rename_i hr
    cases hlast : (BoxKeyboard.keysOf response).getLast? with
    | some k =>
      rw [hlast] at hraised
      exact ⟨k, rfl, keyFor_of_meaning hraised⟩
    | none =>
      -- No key came, so the event is that of the key that waited.
      rw [hlast, Option.none_or] at hraised
      obtain ⟨k, hwaits, hmeans⟩ := Option.bind_eq_some_iff.1 hraised
      rw [hidle response t t' k rfl hs hr (List.getLast?_eq_none_iff.1 hlast) hwaits] at hmeans
      contradiction

theorem Waits.step (h : Waits σ.2 (keyboard σ.1.machine)) (hs : Noted dev env σ a σ') : Waits σ'.2 (keyboard σ'.1.machine) := by
  obtain ⟨s, waiting⟩ := σ
  obtain ⟨s', waiting'⟩ := σ'
  obtain ⟨hstep, hwaiting⟩ := hs
  dsimp only at hstep hwaiting h ⊢
  subst hwaiting
  cases hstep with
  | @poll response t t' _ _ =>
    dsimp only
    by_cases hpass : s.machine.context.state = .password
    · rw [waitingAfter, if_pos hpass]
      exact h.password hpass response _ _
    · exact h.command hpass response _ _
  | other hother =>
    cases hother with
    | event => exact h.keep (keyed_processEvent ..)
    | update => exact h.keep ((keyed_steady dev).update _)
    | elsewhere henv => exact h.keep ⟨congrArg (·.keyboardState.currentKey) henv.2, fun hq => by rw [henv.2]; exact hq⟩

theorem started_waits (dev : Devices W) (t : Nat) (w : W) : Waits none (keyboard (startedBox dev t w).machine) :=
  ⟨fun state => by cases state <;> rfl, rfl⟩

/-- Every event raised outside Password is that of a key in the answer it is
raised for exactly when no answer without keys comes in a state where the last
key that was received and has raised nothing means something. -/
theorem caused_iff (dev : Devices W) (env : W → W → Prop) (t : Nat) (w : W) (acts : List (Act W))
    (σ : Moment (W × BoxKeyboard) × Option UInt8) :
    Run (Within (Noted dev env) (Caused dev)) (startedBox dev t w, none) acts σ ↔
      Run (Within (Noted dev env) Idle) (startedBox dev t w, none) acts σ :=
  Run.within_iff (fun σ => Waits σ.2 (keyboard σ.1.machine)) (started_waits dev t w) (fun _ _ _ h _ => h.caused)
    fun _ _ _ h hs _ => h.step hs

/-- A door is opened by a request; `1` is pressed before the box is in Home again;
and then the keypad answers without a key. -/
theorem late_key : ∃ σ, Run (Noted emptyBox fun _ _ => True) (startedBox emptyBox 0 (), none)
      [.other (.event (.webOpenBox 0) 10 10), .poll [1, 1] 20 20, .other (.update 1010 1010)] σ ∧
    raised emptyBox σ.1 (.poll [0] 1020 1020) = some .keyboardKey1 ∧ ¬Caused emptyBox σ (.poll [0] 1020 1020) σ := by
  have hstart : Run (Noted emptyBox fun _ _ => True) (startedBox emptyBox 0 (), none) [] (startedBox emptyBox 0 (), none) := .nil
  have hopen := hstart.snoc (Noted.other (.event (e := .webOpenBox 0) (by decide : 0 ≤ 10) (Nat.le_refl 10)))
  have hkey := hopen.snoc (Noted.poll [1, 1] (by decide : 10 ≤ 20) (Nat.le_refl 20))
  have hhome := hkey.snoc (Noted.other (.update (by decide : 20 ≤ 1010) (Nat.le_refl 1010)))
  refine ⟨_, hhome, rfl, fun hcaused => ?_⟩
  obtain ⟨k, hlast, -⟩ := hcaused [0] 1020 1020 .keyboardKey1 rfl (by decide) rfl
  contradiction

end OrangeBox.Keyboard
