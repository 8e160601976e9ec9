import OrangeBox.StateMachine.Steps
/-!
# Which door Opening waits for

While the machine is in Opening its context describes the attempt made when it
got there, and every web request tries its door, as long as no web request is
processed in Opening (`opening_coherent_iff`). One that is changes `doorToOpen`
and nothing else, because the transition to the current state does nothing.
-/
open OrangeBox.PassStore Clock Runs

namespace OrangeBox.StateMachine

variable {W : Type} {dev : Devices W} {e : BoxEvent} {target : BoxState} {now millis : UInt32} {t t' : Nat}
  {c c' : BoxStateContext} {m m' : Machine (W × List DeviceCall)} {s s' : Moment (W × List DeviceCall)}
  {st : Stimulus (W × List DeviceCall)}

/-- The call of `openDoor` and its answer. -/
def openCall : DeviceCall → Option (UInt8 × UInt8)
  | .openDoor door opened => some (door, opened)
  | _ => none

/-- The doors that a step tries to open, with the answers. -/
def openCalls (s s' : Moment (W × List DeviceCall)) : List (UInt8 × UInt8) := (newCalls s s').filterMap openCall

/-- An entry into Opening: when the lock is activated, and the calls made. -/
structure Entry where
  time : Nat
  calls : List (UInt8 × UInt8)

def openingEntries (s : Moment (W × List DeviceCall)) (_ : Stimulus (W × List DeviceCall))
    (s' : Moment (W × List DeviceCall)) : List Entry :=
  if s.machine.context.state ≠ .opening ∧ s'.machine.context.state = .opening then [⟨s'.clock, openCalls s s'⟩] else []

/-- The context describes an entry into Opening. -/
structure Describes (c : BoxStateContext) (entry : Entry) : Prop where
  one : entry.calls.length ≤ 1
  door : c.doorToOpen = (entry.calls.head?.map Prod.fst).getD doorUnknown
  active : c.doorOpenDuration ≠ 0 ↔ ∃ call ∈ entry.calls, call.2 = call.1
  startedAt : c.doorOpenStartedAt = stamp entry.time

/-- In Opening the context describes the latest entry. -/
def Coherent (σ : Moment (W × List DeviceCall) × List Entry) : Prop :=
  σ.1.machine.context.state = .opening → ∃ entry, σ.2.getLast? = some entry ∧ Describes σ.1.machine.context entry

/-- A web request tries its door. -/
def Serves (s : Moment (W × List DeviceCall)) (st : Stimulus (W × List DeviceCall))
    (s' : Moment (W × List DeviceCall)) : Prop :=
  ∀ doorNum t t', st = .event (.webOpenBox doorNum) t t' → ∃ opened, openCalls s s' = [(doorNum, opened)]

/-- The door number `handleOpenBox` lets through. -/
def Requestable (st : Stimulus (W × List DeviceCall)) : Prop :=
  ∀ doorNum t t', st = .event (.webOpenBox doorNum) t t' → doorNum ≠ doorUnknown

/-- No web request is processed in Opening. -/
def Undisturbed (s : Moment (W × List DeviceCall)) (st : Stimulus (W × List DeviceCall)) : Prop :=
  ∀ doorNum t t', st = .event (.webOpenBox doorNum) t t' → s.machine.context.state ≠ .opening

/-! ## Entering Opening -/

theorem verifications_openCall : (verifications dev now m e).filterMap openCall = [] := by
  unfold verifications
  split
  · split <;> rfl
  · rfl

/-- The calls of `openDoor` made by an event are those of its transition. -/
theorem openCalls_event (hr : Reaction dev.logged (stamp t) s.machine e m' target) {calls : List DeviceCall}
    (hcalls : (transitionTo dev.logged target (stamp t) (stamp t') m').world.2 = m'.world.2 ++ calls) :
    openCalls s ⟨transitionTo dev.logged target (stamp t) (stamp t') m', t'⟩ = calls.filterMap openCall := by
  rw [hr.calls, List.append_assoc] at hcalls
  rw [openCalls, newCalls_of_append hcalls, List.filterMap_append, verifications_openCall, List.nil_append]

/-- A transition from another state to Opening is described by the context. -/
theorem describes_entry (hne : m'.context.state ≠ .opening) {calls : List DeviceCall} (hcalls : Calling dev m' .opening calls) :
    Describes (transitionTo dev.logged .opening now (stamp t') m').context ⟨t', calls.filterMap openCall⟩ := by
  rw [transitionTo_opening _ _ _ hne]
  cases hcalls with
  | none hnone =>
    obtain ⟨hd, htried⟩ := (hnone rfl).resolve_left hne
    exact ⟨Nat.zero_le _, hd, by simp [htried], rfl⟩
  | @openDoor opened _ _ htried =>
    refine ⟨Nat.le_refl _, rfl, ?_, rfl⟩
    rw [htried]
    by_cases hopened : opened = m'.context.doorToOpen
    · simp [openCall, hopened, doorOpeningTimeout]
    · simp [openCall, hopened]

/-- In Opening only a web request leads to Opening with another context. -/
theorem reaction_opening (hr : Reaction dev.logged now m e m' .opening) (hs : m.context.state = .opening) :
    m'.context = m.context ∨ ∃ doorNum, e = .webOpenBox doorNum := by
  generalize htarget : BoxState.opening = target at hr
  cases hr with
  | ignored => exact .inl (notice_context _ _)
  | web => exact .inr ⟨_, rfl⟩
  | accepted he =>
    rcases evaluated_state he with h | h <;> simp [hs] at h
  | _ => simp at htarget

/-! ## Coherence -/

theorem Describes.congr {entry : Entry} (h : Describes c entry) (hd : c'.doorToOpen = c.doorToOpen)
    (hl : c'.doorOpenDuration = c.doorOpenDuration) (hs : c'.doorOpenStartedAt = c.doorOpenStartedAt) :
    Describes c' entry :=
  ⟨h.one, by rw [hd, h.door], by rw [hl, h.active], by rw [hs, h.startedAt]⟩

/-- The coherence of one step: an entry is described, and staying in Opening
changes nothing that matters. -/
theorem Coherent.step {es : List Entry} (h : Coherent (s, es)) (hs : Step dev.logged sameCalls s st s')
    (hu : Undisturbed s st) : Coherent (s', es ++ openingEntries s st s') := by
  intro hopening
  have hstay : s.machine.context.state = .opening → openingEntries s st s' = [] := fun hs => by
    simp [openingEntries, hs]
  cases hs with
  | @event e t t' hle hle' =>
    obtain ⟨m', target, hr, he⟩ := processEvent_reaction dev.logged e (stamp t) (stamp t') s.machine
    obtain ⟨calls, hcalls, hlog⟩ := transitionTo_calls dev target (stamp t) (stamp t') m'
    dsimp only at hopening
    rw [he] at hopening hstay ⊢
    rw [transitionTo_state] at hopening
    subst hopening
    have hm' : m'.context.state = s.machine.context.state := hr.state
    by_cases hs : s.machine.context.state = .opening
    · have hctx := (reaction_opening hr hs).resolve_right fun ⟨doorNum, hweb⟩ =>
        hu doorNum t t' (by rw [hweb]) hs
      obtain ⟨entry, hlast, hdesc⟩ := h hs
      rw [transitionTo_self (hm'.trans hs).symm] at hstay ⊢
      rw [hstay hs, List.append_nil]
      exact ⟨entry, hlast, by rw [hctx]; exact hdesc⟩
    · have hone : openingEntries s (.event e t t')
          ⟨transitionTo dev.logged .opening (stamp t) (stamp t') m', t'⟩ = [⟨t', calls.filterMap openCall⟩] := by
        rw [openingEntries, if_pos ⟨hs, transitionTo_state _ _ _ _ _⟩, openCalls_event hr hlog]
      refine ⟨⟨t', calls.filterMap openCall⟩, by rw [hone, List.getLast?_concat], ?_⟩
      exact describes_entry (by rwa [hm']) hcalls
  | @update t t' hle hle' =>
    obtain ⟨hs, hu⟩ := update_in_opening hopening
    obtain ⟨entry, hlast, hdesc⟩ := h hs
    rw [hu] at hstay ⊢
    refine ⟨entry, by rw [hstay hs, List.append_nil]; exact hlast, hdesc.congr ?_ ?_ ?_⟩
    · exact refresh_eq (·.doorToOpen) (fun _ _ _ _ _ => rfl) s.machine
    · exact refresh_eq (·.doorOpenDuration) (fun _ _ _ _ _ => rfl) s.machine
    · exact refresh_eq (·.doorOpenStartedAt) (fun _ _ _ _ _ => rfl) s.machine
  | elsewhere =>
    obtain ⟨entry, hlast, hdesc⟩ := h hopening
    exact ⟨entry, by rw [hstay hopening, List.append_nil]; exact hlast, hdesc⟩

/-- A web request outside Opening goes to Opening and tries its door. -/
theorem serves_step (hs : Step dev.logged sameCalls s st s') (hreq : Requestable st) (hu : Undisturbed s st) :
    Serves s st s' := by
  rintro doorNum t t' rfl
  have hne := hu doorNum t t' rfl
  have hdoor := hreq doorNum t t' rfl
  cases hs
  obtain ⟨calls, hcalls, hlog⟩ := transitionTo_calls dev .opening (stamp t) (stamp t') (request doorNum s.machine)
  have hopen : openCalls s ⟨processEvent dev.logged (.webOpenBox doorNum) (stamp t) (stamp t') s.machine, t'⟩ =
    calls.filterMap openCall := openCalls_event .web hlog
  rw [hopen]
  cases hcalls with
  | none hnone => exact absurd ((hnone rfl).resolve_left hne).1 hdoor
  | @openDoor opened _ _ _ => exact ⟨opened, rfl⟩

/-- In Opening a web request tries no door. -/
theorem not_serves (hs : Step dev.logged sameCalls s st s') (hserves : Serves s st s') : Undisturbed s st := by
  rintro doorNum t t' rfl hopening
  obtain ⟨opened, hcalls⟩ := hserves doorNum t t' rfl
  cases hs
  have hself : transitionTo dev.logged .opening (stamp t) (stamp t') (request doorNum s.machine) =
      request doorNum s.machine := transitionTo_self hopening.symm
  have hlog : (transitionTo dev.logged .opening (stamp t) (stamp t') (request doorNum s.machine)).world.2 =
      (request doorNum s.machine).world.2 ++ [] := by
    rw [hself, List.append_nil]
  have hnone : openCalls s ⟨processEvent dev.logged (.webOpenBox doorNum) (stamp t) (stamp t') s.machine, t'⟩ = [] :=
    openCalls_event .web hlog
  rw [hnone] at hcalls
  contradiction

/-- What is claimed of a step: it leaves a coherent state, and a web request is served. -/
def Works (σ : Moment (W × List DeviceCall) × List Entry) (st : Stimulus (W × List DeviceCall))
    (σ' : Moment (W × List DeviceCall) × List Entry) : Prop := Coherent σ' ∧ Serves σ.1 st σ'.1

/-- Opening is coherent along a run exactly when no web request of the run is
processed in Opening. -/
theorem opening_coherent_iff (dev : Devices W) (m : Machine (W × List DeviceCall)) (t : Nat)
    {stimuli : List (Stimulus (W × List DeviceCall))} {σ : Moment (W × List DeviceCall) × List Entry}
    (hreq : ∀ st ∈ stimuli, Requestable st) :
    Run (Within (Watched (Step dev.logged sameCalls) openingEntries) Works) (started dev.logged t m, []) stimuli σ ↔
      Run (Within (Watched (Step dev.logged sameCalls) openingEntries) fun σ st _ => Undisturbed σ.1 st)
        (started dev.logged t m, []) stimuli σ := by
  constructor
  · intro h
    exact h.mono fun _ _ _ hs => ⟨hs.1, not_serves hs.1.1 hs.2.2⟩
  · intro h
    have hstart : Coherent (started dev.logged t m, []) := fun hs => by
      rw [started_context] at hs
      contradiction
    have hall := h.within (P := Works) Coherent hstart fun σ st σ' hmem hi hs => by
      obtain ⟨⟨hstep, hobs⟩, hu⟩ := hs
      have hc : Coherent σ' := by
        have := Coherent.step hi hstep hu
        rwa [← hobs] at this
      exact ⟨⟨hc, serves_step hstep (hreq st hmem) hu⟩, hc⟩
    exact hall.1.mono fun _ _ _ hs => ⟨hs.1.1, hs.2⟩

/-- The machine of a box without credentials, as it starts. -/
def idleBox : Moment (Unit × List DeviceCall) := started emptyBox.logged 0 (constructed ((), []))

theorem opening_coherent_one : ∃ stimuli σ, (∀ st ∈ stimuli, Requestable st) ∧ σ.1.machine.context.state = .opening ∧
    Run (Within (Watched (Step emptyBox.logged sameCalls) openingEntries) Works) (idleBox, []) stimuli σ := by
  have hrequest : ∀ st ∈ [Stimulus.event (.webOpenBox 3) 10 20], Requestable (W := Unit) st := by
    intro st hst doorNum t t' he
    obtain rfl := List.mem_singleton.1 hst
    cases he
    decide
  have hstep : Step emptyBox.logged sameCalls idleBox (.event (.webOpenBox 3) 10 20)
    ⟨processEvent emptyBox.logged (.webOpenBox 3) (stamp 10) (stamp 20) idleBox.machine, 20⟩ :=
    .event (Nat.zero_le 10) (by decide)
  have hwatch : Watched (Step emptyBox.logged sameCalls) openingEntries (idleBox, []) (.event (.webOpenBox 3) 10 20)
    (⟨processEvent emptyBox.logged (.webOpenBox 3) (stamp 10) (stamp 20) idleBox.machine, 20⟩, [⟨20, [(3, 3)]⟩]) :=
    ⟨hstep, rfl⟩
  refine ⟨_, _, hrequest, rfl, (opening_coherent_iff emptyBox _ 0 hrequest).2 (Run.nil.snoc ⟨hwatch, ?_⟩)⟩
  intro doorNum t t' _
  decide

/-- Two web requests in a row: the second one replaces the door, and the lock of
the first one was pulsed. -/
theorem second_request_misdirects : ∃ stimuli σ, (∀ st ∈ stimuli, Requestable st) ∧
    Run (Watched (Step emptyBox.logged sameCalls) openingEntries) (idleBox, []) stimuli σ ∧
      σ.2 = [⟨20, [(3, 3)]⟩] ∧ σ.1.machine.context.doorToOpen = 4 ∧ ¬Coherent σ := by
  have hstart : Run (Watched (Step emptyBox.logged sameCalls) openingEntries) (idleBox, []) [] (idleBox, []) := .nil
  have hfirst := hstart.observe (.event (e := .webOpenBox 3) (Nat.zero_le 10) (by decide : 10 ≤ 20))
  have hsecond := hfirst.observe (.event (e := .webOpenBox 4) (by decide : 20 ≤ 30) (Nat.le_refl 30))
  refine ⟨_, _, ?_, hsecond, rfl, rfl, fun hc => ?_⟩
  · intro st hst doorNum t t' he
    rcases List.mem_append.1 hst with hst | hst <;>
    · subst he
      simp at hst
      rw [hst.1]
      decide
  · obtain ⟨entry, hlast, hdesc⟩ := hc rfl
    obtain rfl := Option.some.inj hlast.symm
    exact absurd hdesc.door (by decide)

end OrangeBox.StateMachine
