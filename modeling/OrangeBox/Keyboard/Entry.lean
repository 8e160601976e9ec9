import OrangeBox.Keyboard.Keyboard
/-!
# The code that is submitted

What the keys typed in Password come to, whatever batches they arrive in: up to
the first `#` behind a digit they edit the entry, and that entry is submitted.
The event is made only when the whole batch is done, so the keys behind that `#`
in its batch can still write over the text.
-/
open OrangeBox.PassStore OrangeBox.StateMachine Clock Runs

namespace OrangeBox.Keyboard

/-! ## The entry -/

/-- A key edits the entry. -/
def typeKey (entry : List UInt8) (k : UInt8) : List UInt8 :=
  if k ≤ 9 then if entry.length < passMax then entry ++ [48 + k] else entry
  else if k = keyboardKeyCancel then entry.dropLast
  else entry

/-- The entry at the first `#` that finds one, and the keys behind it. -/
def submission : List UInt8 → List UInt8 → Option (List UInt8 × List UInt8)
  | _, [] => none
  | entry, k :: keys =>
    if k = keyboardKeyEnter ∧ entry ≠ [] then some (entry, keys) else submission (typeKey entry k) keys

/-- Where a key writes when the entry has this length, and what. -/
def written (len : Nat) (k : UInt8) : List (Nat × UInt8) :=
  if k ≤ 9 then if len < passMax then [(len, 48 + k)] else []
  else if k = keyboardKeyEnter ∧ 0 < len then [(len, 0)]
  else []

/-- The length of the entry after a key. -/
def moved (len : Nat) (k : UInt8) : Nat :=
  if k ≤ 9 then if len < passMax then len + 1 else len
  else if k = keyboardKeyCancel then len - 1
  else len

def writes : Nat → List UInt8 → List (Nat × UInt8)
  | _, [] => []
  | len, k :: keys => written len k ++ writes (moved len k) keys

def overtype (ws : List (Nat × UInt8)) (text : List UInt8) : List UInt8 := ws.foldl (fun text w => text.set w.1 w.2) text

/-- The keys leave the entry and its end as they are: what they write over is
last written over with the same. -/
def Spares (entry keys : List UInt8) : Prop := overtype (writes entry.length keys) (entry ++ [0]) = entry ++ [0]

instance (entry keys : List UInt8) : Decidable (Spares entry keys) := inferInstanceAs (Decidable (_ = _))

theorem submission_append (entry keys keys' : List UInt8) : submission entry (keys ++ keys') =
    match submission entry keys with
    | some (submitted, rest) => some (submitted, rest ++ keys')
    | none => submission (keys.foldl typeKey entry) keys' := by
  induction keys generalizing entry with
  | nil => rfl
  | cons k keys ih =>
    rw [List.cons_append, submission, submission]
    split
    · rfl
    · exact ih _

theorem take_overtype (n : Nat) (ws : List (Nat × UInt8)) (text : List UInt8) :
    (overtype ws text).take n = overtype ws (text.take n) := by
  induction ws generalizing text with
  | nil => rfl
  | cons w ws ih =>
    refine (ih _).trans (congrArg (overtype ws) ?_)
    exact List.take_set

theorem take_set_succ {n : Nat} {text : List UInt8} {c : UInt8} (h : n < text.length) :
    (text.set n c).take (n + 1) = text.take n ++ [c] := by
  rw [List.take_succ_eq_append_getElem (by rwa [List.length_set]), List.getElem_set_self, List.take_set,
    List.set_eq_of_length_le (List.length_take_le _ _)]

/-- A text of the entry and its end is read as the entry. -/
theorem takeWhile_eq_iff {entry text : List UInt8} (h0 : 0 ∉ entry) (hlen : entry.length < text.length) :
    text.takeWhile (· ≠ 0) = entry ↔ text.take (entry.length + 1) = entry ++ [0] := by
  induction entry generalizing text with
  | nil =>
    cases text with
    | nil => contradiction
    | cons c text => by_cases hc : c = 0 <;> simp [hc]
  | cons d entry ih =>
    cases text with
    | nil => contradiction
    | cons c text =>
      obtain ⟨hd, h0⟩ := not_or.1 (mt List.mem_cons.2 h0)
      have ih := ih h0 (Nat.lt_of_succ_lt_succ hlen)
      by_cases hc : c = 0
      · subst hc
        simp [hd]
      · rw [List.takeWhile_cons_of_pos (by simp [hc]), List.length_cons, List.take_succ_cons, List.cons_append,
          List.cons.injEq, List.cons.injEq, ih]

/-! ## The buffer -/

variable {entry keys : List UInt8} {s : KeyboardStatus} {k : UInt8}

/-- The buffer holds the entry, and nothing is submitted. -/
structure Holds (entry : List UInt8) (s : KeyboardStatus) : Prop where
  length : s.currentPasswordLen = entry.length
  short : entry.length ≤ passMax
  text : s.currentPassword.toList.take entry.length = entry
  clean : 0 ∉ entry
  incomplete : s.passwordComplete = false

theorem digit_ne_zero (h : k ≤ 9) : 48 + k ≠ 0 := by
  intro hz
  have hle := UInt8.le_iff_toNat_le.1 h
  have hsum := congrArg UInt8.toNat hz
  rw [UInt8.toNat_add] at hsum
  simp at hle hsum
  omega

theorem Holds.handleKey (h : Holds entry s) (hk : ¬(k = keyboardKeyEnter ∧ entry ≠ [])) :
    Holds (typeKey entry k) (s.handleKey k) := by
  unfold typeKey KeyboardStatus.handleKey
  rw [h.length]
  split
  · rename_i hdigit
    split
    · rename_i hroom
      refine ⟨?_, ?_, ?_, ?_, h.incomplete⟩
      · simp
      · simpa using hroom
      · have hlt : entry.length < s.currentPassword.toList.length := by
          rw [Vector.length_toList]
          omega
        simp only [Vector.toList_setIfInBounds, List.length_append, List.length_singleton]
        rw [take_set_succ hlt, h.text]
      · simpa [h.clean] using (digit_ne_zero hdigit).symm
    · exact h
  split
  · split
    · refine ⟨?_, ?_, ?_, fun hmem => h.clean (List.mem_of_mem_dropLast hmem), h.incomplete⟩
      · simp
      · rw [List.length_dropLast]
        exact Nat.le_trans (Nat.sub_le _ _) h.short
      · rw [List.length_dropLast, List.dropLast_eq_take]
        have htake := congrArg (List.take (entry.length - 1)) h.text
        rwa [List.take_take, Nat.min_eq_left (Nat.sub_le _ _)] at htake
    · rename_i hempty
      have hnil : entry = [] := List.eq_nil_of_length_eq_zero (Nat.eq_zero_of_not_pos hempty)
      subst hnil
      exact ⟨rfl, h.short, h.text, h.clean, h.incomplete⟩
  split
  · rename_i henter
    have hnil : entry = [] := by
      by_contra hne
      exact hk ⟨henter, hne⟩
    subst hnil
    exact h
  · exact h

/-- The `#` that submits the entry ends the text. -/
theorem Holds.enter (h : Holds entry s) (hne : entry ≠ []) : (s.handleKey keyboardKeyEnter).passwordComplete = true ∧
    (s.handleKey keyboardKeyEnter).currentPasswordLen = entry.length ∧
      (s.handleKey keyboardKeyEnter).currentPassword.toList.take (entry.length + 1) = entry ++ [0] := by
  have hpos : s.currentPasswordLen > 0 := by
    rw [h.length]
    exact List.length_pos_iff.2 hne
  have hkey : s.handleKey keyboardKeyEnter = { s with
      currentPassword := s.currentPassword.setIfInBounds s.currentPasswordLen 0
      passwordComplete := true } := by
    unfold KeyboardStatus.handleKey
    rw [if_neg (by decide), if_neg (by decide), if_pos rfl, if_pos hpos]
  rw [hkey]
  have hlt : entry.length < s.currentPassword.toList.length := by
    rw [Vector.length_toList]
    exact Nat.lt_succ_of_le h.short
  refine ⟨rfl, h.length, ?_⟩
  rw [Vector.toList_setIfInBounds, h.length, take_set_succ hlt, h.text]

theorem handleKey_writes (s : KeyboardStatus) (k : UInt8) :
    (s.handleKey k).currentPassword.toList = overtype (written s.currentPasswordLen k) s.currentPassword.toList ∧
      (s.handleKey k).currentPasswordLen = moved s.currentPasswordLen k := by
  unfold KeyboardStatus.handleKey written moved
  by_cases hdigit : k ≤ 9
  · rw [if_pos hdigit, if_pos hdigit, if_pos hdigit]
    split
    · exact ⟨Vector.toList_setIfInBounds, rfl⟩
    · exact ⟨rfl, rfl⟩
  rw [if_neg hdigit, if_neg hdigit, if_neg hdigit]
  by_cases hcancel : k = keyboardKeyCancel
  · have henter : ¬(k = keyboardKeyEnter ∧ 0 < s.currentPasswordLen) := fun h =>
      absurd (hcancel.symm.trans h.1) (by decide)
    rw [if_pos hcancel, if_neg henter, if_pos hcancel]
    split
    · exact ⟨rfl, rfl⟩
    · rename_i hempty
      refine ⟨rfl, ?_⟩
      change s.currentPasswordLen = s.currentPasswordLen - 1
      omega
  rw [if_neg hcancel, if_neg hcancel]
  by_cases henter : k = keyboardKeyEnter
  · rw [if_pos henter]
    split
    · rename_i hsome
      rw [if_pos ⟨henter, hsome⟩]
      exact ⟨Vector.toList_setIfInBounds, rfl⟩
    · rename_i hempty
      rw [if_neg fun h => hempty h.2]
      exact ⟨rfl, rfl⟩
  · rw [if_neg henter, if_neg fun h => henter h.1]
    exact ⟨rfl, rfl⟩

theorem handleKey_complete (s : KeyboardStatus) (k : UInt8) (h : s.passwordComplete = true) :
    (s.handleKey k).passwordComplete = true := by
  unfold KeyboardStatus.handleKey
  repeat' split
  all_goals first | exact h | rfl

/-- Keys write where `writes` says, and leave what is submitted submitted. -/
theorem foldl_handleKey_writes (keys : List UInt8) (s : KeyboardStatus) :
    (keys.foldl KeyboardStatus.handleKey s).currentPassword.toList =
      overtype (writes s.currentPasswordLen keys) s.currentPassword.toList := by
  induction keys generalizing s with
  | nil => rfl
  | cons k keys ih =>
    obtain ⟨hbuffer, hlen⟩ := handleKey_writes s k
    rw [List.foldl_cons, ih, hbuffer, hlen, writes, overtype, overtype, overtype, List.foldl_append]

theorem foldl_handleKey_complete (keys : List UInt8) (h : s.passwordComplete = true) :
    (keys.foldl KeyboardStatus.handleKey s).passwordComplete = true :=
  List.foldlRecOn keys KeyboardStatus.handleKey h fun s hs k _ => handleKey_complete s k hs

/-- A batch that submits nothing edits the entry. -/
theorem Holds.typed (h : Holds entry s) (hopen : submission entry keys = none) :
    Holds (keys.foldl typeKey entry) (keys.foldl KeyboardStatus.handleKey s) := by
  induction keys generalizing entry s with
  | nil => exact h
  | cons k keys ih =>
    rw [submission] at hopen
    split at hopen
    · contradiction
    · rename_i hk
      exact ih (h.handleKey hk) hopen

/-- A batch that submits an entry: its keys behind the `#` write over the text. -/
theorem Holds.submits {submitted rest : List UInt8} (h : Holds entry s) (hsub : submission entry keys = some (submitted, rest)) :
    (keys.foldl KeyboardStatus.handleKey s).passwordComplete = true ∧
      ((keys.foldl KeyboardStatus.handleKey s).currentPassword.toList.takeWhile (· ≠ 0) = submitted ↔
        Spares submitted rest) := by
  induction keys generalizing entry s with
  | nil => contradiction
  | cons k keys ih =>
    rw [submission] at hsub
    split at hsub
    · rename_i hk
      obtain ⟨rfl, rfl⟩ := Prod.mk.inj (Option.some.inj hsub)
      obtain ⟨rfl, hne⟩ := hk
      obtain ⟨hcomplete, hlen, htext⟩ := h.enter hne
      rw [List.foldl_cons]
      refine ⟨foldl_handleKey_complete _ hcomplete, ?_⟩
      have hlt : entry.length < (keys.foldl KeyboardStatus.handleKey
          (s.handleKey keyboardKeyEnter)).currentPassword.toList.length := by
        rw [Vector.length_toList]
        exact Nat.lt_succ_of_le h.short
      rw [takeWhile_eq_iff h.clean hlt, foldl_handleKey_writes, take_overtype, htext, hlen]
      rfl
    · rename_i hk
      exact ih (h.handleKey hk) hsub

/-! ## A poll in Password -/

variable {W : Type} {dev : Devices W} {env : W → W → Prop} {s₀ σ σ' : Moment (W × BoxKeyboard)} {a : Act W}
  {m : Machine (W × BoxKeyboard)} {response : List UInt8} {now millis : UInt32}

/-- The machine has just come to Password. -/
structure Entered (m : Machine (W × BoxKeyboard)) : Prop where
  state : m.context.state = .password
  cleared : ∃ s : KeyboardStatus, (keyboard m).keyboardState = s.onStateChanged .password

/-- Whatever was there before. -/
theorem transitionTo_entered (dev : Devices W) (now millis : UInt32) (h : m.context.state ≠ .password) :
    Entered (transitionTo (keyed dev) .password now millis m) where
  state := transitionTo_state ..
  cleared := by
    unfold keyboard
    rw [transitionTo_world h.symm]
    exact ⟨_, rfl⟩

/-- What is known while keys are typed and nothing is submitted. -/
structure Typing (keys : List UInt8) (m : Machine (W × BoxKeyboard)) : Prop where
  state : m.context.state = .password
  pending : submission [] keys = none
  holds : Holds (keys.foldl typeKey []) (keyboard m).keyboardState
  quiet : (keyboard m).keyboardState.cancelPressed = false
  mode : (keyboard m).keyboardMode = keyboardModePassword ∨ keys.foldl typeKey [] = []

theorem Entered.typing (h : Entered m) : Typing [] m := by
  obtain ⟨hs, s, hk⟩ := h
  refine ⟨hs, rfl, ?_, ?_, .inr rfl⟩
  · rw [hk]
    exact ⟨rfl, Nat.zero_le _, rfl, List.not_mem_nil, rfl⟩
  · rw [hk]
    rfl

variable {typedKeys : List UInt8}

/-- The first poll clears what is clear already. -/
theorem Typing.opened (h : Typing typedKeys m) : Holds (typedKeys.foldl typeKey []) (keyboard m).opened ∧
    (keyboard m).opened.cancelPressed = false := by
  unfold BoxKeyboard.opened
  split
  · rename_i hfirst
    have hnil := h.mode.resolve_left hfirst
    rw [hnil]
    exact ⟨⟨rfl, Nat.zero_le _, rfl, List.not_mem_nil, rfl⟩, h.quiet⟩
  · exact ⟨⟨h.holds.length, h.holds.short, h.holds.text, h.holds.clean, h.holds.incomplete⟩, h.quiet⟩

theorem Typing.polled (h : Typing typedKeys m) (response : List UInt8) : ((keyboard m).polled m.context.state response) =
    { keyboardMode := keyboardModePassword
      keyboardState := (BoxKeyboard.keysOf response).foldl KeyboardStatus.handleKey (keyboard m).opened } := by
  rw [BoxKeyboard.polled, if_pos h.state]
  rfl

/-- The text of the event is what the buffer holds. -/
theorem submitted_bytes (buffer : Vector UInt8 (passMax + 1)) (h : 32 ≤ 33) :
    ((CText.read (passMax + 1) buffer.toList).truncate 32 h : CText 33).bytes = buffer.toList.takeWhile (· ≠ 0) := by
  have hle : (buffer.toList.takeWhile (· ≠ 0)).length ≤ passMax + 1 :=
    Nat.le_trans (List.IsPrefix.length_le (List.takeWhile_prefix _)) (Nat.le_of_eq Vector.length_toList)
  have hread : (CText.read (passMax + 1) buffer.toList).bytes = buffer.toList.takeWhile (· ≠ 0) := List.take_of_length_le hle
  rw [CText.truncate_bytes, hread, List.take_of_length_le (Nat.le_trans hle (by decide))]

/-- An answer that brings the `#` raises the event. -/
theorem Typing.submits {submitted rest : List UInt8} (h : Typing typedKeys m)
    (hsub : submission [] (typedKeys ++ BoxKeyboard.keysOf response) = some (submitted, rest)) :
    ∃ text, calledFor m.context.state response (keyboard m) = some (.keyboardEnter text) ∧
      (text.bytes = submitted ↔ Spares submitted rest) := by
  rw [submission_append, h.pending] at hsub
  obtain ⟨hcomplete, htext⟩ := h.opened.1.submits hsub
  have hr : response ≠ [] := by
    rintro rfl
    contradiction
  have hevent : calledFor m.context.state response (keyboard m) = some (.keyboardEnter ((CText.read (passMax + 1)
      ((BoxKeyboard.keysOf response).foldl KeyboardStatus.handleKey (keyboard m).opened).currentPassword.toList).truncate 32
        (by decide))) := by
    rw [calledFor, if_neg hr, h.polled, h.state, raisedEvent, if_pos hcomplete]
  exact ⟨_, hevent, by rw [submitted_bytes]; exact htext⟩

/-- An answer that does not bring it leaves the entry edited. -/
theorem Typing.edited (h : Typing typedKeys m) (hsub : submission [] (typedKeys ++ BoxKeyboard.keysOf response) = none) :
    Holds ((typedKeys ++ BoxKeyboard.keysOf response).foldl typeKey [])
      ((keyboard m).polled m.context.state response).keyboardState := by
  rw [submission_append, h.pending] at hsub
  rw [List.foldl_append, h.polled]
  exact h.opened.1.typed hsub

theorem Typing.not_submits (h : Typing typedKeys m)
    (hsub : submission [] (typedKeys ++ BoxKeyboard.keysOf response) = none) (text : CText 33) :
    calledFor m.context.state response (keyboard m) ≠ some (.keyboardEnter text) := by
  have hopen := (h.edited hsub).incomplete
  unfold calledFor raisedEvent
  rw [h.state] at hopen ⊢
  rw [hopen]
  intro hcalled
  split at hcalled
  · contradiction
  · dsimp only at hcalled
    split at hcalled
    · contradiction
    split at hcalled
    · cases hcalled
    · contradiction

/-! ## Runs -/

/-- The machine is in Password before and after. -/
def Stays (s : Moment (W × BoxKeyboard)) (_ : Act W) (s' : Moment (W × BoxKeyboard)) : Prop :=
  s.machine.context.state = .password ∧ s'.machine.context.state = .password

/-- The keys that the answers bring. -/
def keysIn (acts : List (Act W)) : List UInt8 :=
  acts.flatMap fun
    | .poll response _ _ => BoxKeyboard.keysOf response
    | .other _ => []

/-- The keyboard's events make the machine leave Password. -/
theorem raised_leaves {e : BoxEvent} (hs : m.context.state = .password) (he : raisedEvent .password (keyboard m).keyboardState = some e) :
    (processEvent (keyed dev) e now millis m).context.state ≠ .password := by
  have hleaves : ∀ target ≠ BoxState.password, ∀ m' : Machine (W × BoxKeyboard),
      (transitionTo (keyed dev) target now millis m').context.state ≠ .password := fun target hne m' => by
    rw [transitionTo_state]
    exact hne
  simp only [raisedEvent] at he
  split at he
  · cases he
    simp only [processEvent, handleKeyboardEvent, hs]
    split
    · exact hleaves .opening (by decide) _
    · exact hleaves .badPass (by decide) _
  split at he
  · cases he
    simp only [processEvent, handleKeyboardEvent, hs]
    exact hleaves .home (by decide) _
  · contradiction

theorem keyed_calm (dev : Devices W) : Calm (keyed dev) fun w w' => w'.2 = w.2 where
  refl _ := rfl
  trans h h' := h'.trans h
  ambientOn _ := rfl
  ambientOff _ := rfl
  display _ _ := rfl
  rand _ := rfl
  onUIUpdate _ _ := rfl

/-- A poll that raises nothing. -/
theorem Typing.pressed (h : Typing typedKeys m) (hcalled : calledFor m.context.state response (keyboard m) = none) :
    Typing (typedKeys ++ BoxKeyboard.keysOf response) (withKeyboard ((keyboard m).polled m.context.state response) m) := by
  have hpending : submission [] (typedKeys ++ BoxKeyboard.keysOf response) = none := by
    cases hsub : submission [] (typedKeys ++ BoxKeyboard.keysOf response) with
    | none => rfl
    | some result =>
      obtain ⟨submitted, rest⟩ := result
      obtain ⟨text, hraised, -⟩ := h.submits hsub
      rw [hcalled] at hraised
      contradiction
  have hquiet : ((keyboard m).polled m.context.state response).keyboardState.cancelPressed = false := by
    unfold calledFor at hcalled
    split at hcalled
    · rename_i hnone
      rw [h.polled, hnone]
      exact h.opened.2
    · rw [h.state] at hcalled ⊢
      simp only [raisedEvent] at hcalled
      split at hcalled
      · contradiction
      split at hcalled
      · contradiction
      · rename_i hquiet
        exact Bool.eq_false_iff.2 hquiet
  have hmode : ((keyboard m).polled m.context.state response).keyboardMode = keyboardModePassword := by rw [h.polled]
  exact ⟨h.state, hpending, h.edited hpending, hquiet, .inl hmode⟩

theorem Typing.step (h : Typing typedKeys σ.machine) (hs : KeyStep dev env σ a σ') (hstays : Stays σ a σ') :
    Typing (typedKeys ++ keysIn [a]) σ'.machine := by
  have hsame : ∀ {m' : Machine (W × BoxKeyboard)}, m'.context.state = .password → keyboard m' = keyboard σ.machine →
      Typing typedKeys m' := fun hstate hkeys => ⟨hstate, h.pending, hkeys ▸ h.holds, hkeys ▸ h.quiet, hkeys ▸ h.mode⟩
  cases hs with
  | @poll response t t' _ _ =>
    have hkeys : keysIn [(.poll response t t' : Act W)] = BoxKeyboard.keysOf response := List.append_nil _
    rw [hkeys]
    obtain ⟨-, hleft⟩ := hstays
    dsimp only at hleft ⊢
    rw [handleKeyboard_eq] at hleft ⊢
    cases hcalled : calledFor σ.machine.context.state response (keyboard σ.machine) with
    | none => exact h.pressed hcalled
    | some e =>
      -- An event would have ended it.
      rw [hcalled] at hleft
      unfold calledFor at hcalled
      split at hcalled
      · contradiction
      refine absurd hleft (raised_leaves h.state ?_)
      rw [← h.state]
      exact hcalled
  | other hother =>
    change Typing (typedKeys ++ []) σ'.machine
    rw [List.append_nil]
    cases hother with
    | event => exact hsame hstays.2 ((keyed_calm dev).processEvent_same (hstays.2.trans hstays.1.symm))
    | update => exact hsame hstays.2 ((keyed_calm dev).update_same (hstays.2.trans hstays.1.symm))
    | elsewhere henv => exact hsame hstays.2 henv.2

theorem Entered.typed {acts : List (Act W)} (h : Entered s₀.machine) (hrun : Run (Within (KeyStep dev env) Stays) s₀ acts σ) :
    Typing (keysIn acts) σ.machine := by
  induction hrun with
  | nil => exact h.typing
  | @snoc acts σ σ' a _ hs ih =>
    have hkeys : keysIn (acts ++ [a]) = keysIn acts ++ keysIn [a] := List.flatMap_append
    rw [hkeys]
    exact ih.step hs.1 hs.2

/-- While the machine stays in Password, the poll that brings the first `#` that
finds an entry raises the first Enter event, and no poll before it does. The
event carries the entry exactly when the keys behind that `#` in its batch leave
the text as it is. -/
theorem submitted_iff (dev : Devices W) (env : W → W → Prop) {acts : List (Act W)} (h : Entered s₀.machine)
    (hrun : Run (Within (KeyStep dev env) Stays) s₀ acts σ) (response : List UInt8) (t t' : Nat) :
    (∀ submitted rest, submission [] (keysIn acts ++ BoxKeyboard.keysOf response) = some (submitted, rest) →
      ∃ text, raised dev σ (.poll response t t') = some (.keyboardEnter text) ∧ (text.bytes = submitted ↔ Spares submitted rest)) ∧
    (submission [] (keysIn acts ++ BoxKeyboard.keysOf response) = none →
      ∀ text, raised dev σ (.poll response t t') ≠ some (.keyboardEnter text)) := by
  have htyping := h.typed hrun
  rw [raised_poll]
  exact ⟨fun submitted rest hsub => htyping.submits hsub, fun hsub text => htyping.not_submits hsub text⟩

/-- `1` was pressed in Home. -/
abbrev asked : Moment (Unit × BoxKeyboard) :=
  ⟨(handleKeyboard emptyBox [1, 1] (stamp 10) (stamp 10) (startedBox emptyBox 0 ()).machine).2, 10⟩

theorem asked_entered : Entered asked.machine := ⟨rfl, { KeyboardStatus.zero with currentKey := 32 }, by decide +kernel⟩

/-- `4`, and then `2` and `#` at once. -/
theorem submitted_iff_two : ∃ text, raised emptyBox
    ⟨(handleKeyboard emptyBox [1, 4] (stamp 20) (stamp 20) asked.machine).2, 20⟩ (.poll [2, 2, 13] 30 30) =
      some (.keyboardEnter text) ∧ text.bytes = [52, 50] := by
  have hrun : Run (Within (KeyStep emptyBox fun _ _ => True) Stays) asked [.poll [1, 4] 20 20]
      ⟨(handleKeyboard emptyBox [1, 4] (stamp 20) (stamp 20) asked.machine).2, 20⟩ :=
    .single ⟨.poll (by decide : 10 ≤ 20) (Nat.le_refl 20), rfl, rfl⟩
  obtain ⟨text, hraised, htext⟩ := (submitted_iff emptyBox (fun _ _ => True) asked_entered hrun [2, 2, 13] 30 30).1
    [52, 50] [] rfl
  exact ⟨text, hraised, htext.2 rfl⟩

/-- `1`, `#` and `2` at once: the last key ends up in the text. -/
theorem text_overtyped : Entered asked.machine ∧ submission [] (BoxKeyboard.keysOf [3, 1, 13, 2]) = some ([49], [2]) ∧
    ∃ text, raised emptyBox asked (.poll [3, 1, 13, 2] 20 20) = some (.keyboardEnter text) ∧
      text.bytes = [49, 50, 32, 32, 32, 32, 32, 32] := by
  refine ⟨asked_entered, rfl, ?_⟩
  rw [raised_poll]
  exact ⟨_, rfl, by decide +kernel⟩

end OrangeBox.Keyboard
