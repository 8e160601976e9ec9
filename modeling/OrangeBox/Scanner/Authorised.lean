import OrangeBox.Scanner.BoxScanner
/-!
# Authorised openings

A door is opened only while an event is processed that authorises it: a web
request for it, or a text that `verifyCred` accepted for it in that same event
(`doors_authorised`). An update, the scanner's own callback and every other
event open nothing.
-/
open OrangeBox.PassStore OrangeBox.StateMachine Clock Runs

namespace OrangeBox.Scanner

variable {V W : Type} {e : BoxEvent} {target : BoxState} {now millis : UInt32}

/-! ## One event -/

/-- An event in a state authorises a door: it is a request for it, or brings a
text that was accepted for it. -/
def Authorises (state : BoxState) (calls : List DeviceCall) (e : BoxEvent) (door : UInt8) : Prop :=
  e = .webOpenBox door ∨ door ≠ doorUnknown ∧
    ((∃ password, e = .keyboardEnter password ∧ state = .password ∧
        DeviceCall.verifyCred password.bytes .password door ∈ calls) ∨
      ∃ cred, e = .scannerCodeReceived cred ∧ state = .scan ∧ DeviceCall.verifyCred cred.bytes .packetNumber door ∈ calls)

/-- No door is opened, or one that the event authorises. -/
def OpensAuthorised (state : BoxState) (calls : List DeviceCall) (e : BoxEvent) : Prop :=
  calls.filterMap openCall = [] ∨
    ∃ door opened, calls.filterMap openCall = [(door, opened)] ∧ Authorises state calls e door

/-- The calls of one event. -/
theorem processEvent_authorised (dev : Devices W) (e : BoxEvent) (now millis : UInt32) (m : Machine (W × List DeviceCall)) :
    ∃ calls, (processEvent dev.logged e now millis m).world.2 = m.world.2 ++ calls ∧
      OpensAuthorised m.context.state calls e := by
  obtain ⟨m', target, hr, he⟩ := processEvent_reaction dev.logged e now millis m
  obtain ⟨calls, hcalls, hlog⟩ := transitionTo_calls dev target now millis m'
  have hstate := hr.state
  rw [he]
  refine ⟨verifications dev now m e ++ calls, by rw [hlog, hr.calls, List.append_assoc], ?_⟩
  unfold OpensAuthorised
  rw [List.filterMap_append, verifications_openCall, List.nil_append]
  cases hcalls with
  | none | usedCred => exact .inl rfl
  | @openDoor opened hne hdoor _ =>
    refine .inr ⟨m'.context.doorToOpen, opened, rfl, ?_⟩
    rw [hstate] at hne
    generalize htarget : BoxState.opening = target at hr
    cases hr with
    | ignored => exact absurd htarget.symm hne
    | web => exact .inl rfl
    | @accepted e value credType hev hp _ =>
      have hmem : DeviceCall.verifyCred value credType (dev.verifyCred value credType m.world.1).1 ∈
          verifications dev now m e ++ [.openDoor (accept dev.logged value credType m).context.doorToOpen opened] := by
        rw [verifications_of_presented hev hp]
        exact List.mem_append_left _ (List.mem_singleton.2 rfl)
      refine .inr ⟨hdoor, ?_⟩
      cases e with
      | keyboardEnter password =>
        obtain ⟨rfl, rfl⟩ := Prod.mk.inj (Option.some.inj hp)
        exact .inl ⟨password, rfl, by simpa [evaluated] using hev, hmem⟩
      | scannerCodeReceived cred =>
        obtain ⟨rfl, rfl⟩ := Prod.mk.inj (Option.some.inj hp)
        simp only [evaluated, Bool.and_eq_true, decide_eq_true_eq] at hev
        exact .inr ⟨cred, rfl, hev.1, hmem⟩
      | _ => contradiction
    | _ => contradiction

/-- An update opens no door. -/
theorem update_openCall (dev : Devices W) (now millis : UInt32) (m : Machine (W × List DeviceCall)) :
    ∃ calls, (update dev.logged now millis m).world.2 = m.world.2 ++ calls ∧ calls.filterMap openCall = [] := by
  obtain ⟨target, helapse, hu⟩ := update_elapse dev.logged now millis m
  obtain ⟨calls, hcalls, hlog⟩ := transitionTo_calls dev target now millis (refresh dev.logged now m)
  have hrefresh : (refresh dev.logged now m).world.2 = m.world.2 := (logged_quiet dev).refresh m
  rw [hu]
  refine ⟨calls, by rw [hlog, hrefresh], ?_⟩
  cases hcalls with
  | none | usedCred => rfl
  | openDoor hne =>
    generalize htarget : BoxState.opening = target at helapse
    cases helapse with
    | stay => exact absurd htarget.symm hne
    | retry => split at htarget <;> contradiction
    | _ => contradiction

/-! ## Runs -/

variable {dev : Devices V} {s s' : Moment (Watch V)} {h : Happening V}

/-- The event that is processed. One that a callback raised is not external. -/
def external (s : Moment (Watch V)) : Happening V → Option BoxEvent
  | .event e _ _ _ => some e
  | .scan now _ _ _ => scanned now s.machine
  | _ => none

/-- A step opens a door only for an external event that authorises it. -/
def Authorised (s : Moment (Watch V)) (h : Happening V) (s' : Moment (Watch V)) : Prop :=
  openCalls s s' = [] ∨ ∃ e door opened, external s h = some e ∧ openCalls s s' = [(door, opened)] ∧
    Authorises s.machine.context.state (newCalls s s') e door

theorem authorised_of_event {t t' t'' : Nat} {m : Machine (Watch V)} (hcontext : m.context = s.machine.context)
    (hlog : m.world.2 = s.machine.world.2) (hexternal : external s h = some e) :
    Authorised s h ⟨process dev e t t' t'' m, t''⟩ := by
  obtain ⟨calls, hcalls, hopens⟩ := processEvent_authorised (attach dev) e (stamp t) (stamp t')
    (onBridge ({ · with millis := stamp t'' }) m)
  have hcalls' : (process dev e t t' t'' m).world.2 = s.machine.world.2 ++ calls := hcalls.trans (by rw [← hlog]; rfl)
  have hstate : (onBridge ({ · with millis := stamp t'' }) m).context.state = s.machine.context.state := by
    rw [← hcontext]; rfl
  have hnew : newCalls s ⟨process dev e t t' t'' m, t''⟩ = calls := newCalls_of_append hcalls'
  rw [hstate] at hopens
  unfold Authorised openCalls
  rw [hnew]
  rcases hopens with hnone | ⟨door, opened, hone, hauth⟩
  · exact .inl hnone
  · exact .inr ⟨e, door, opened, hexternal, hone, hauth⟩

/-- A step whose calls open nothing. -/
theorem authorised_of_quiet {calls : List DeviceCall} (hlog : s'.machine.world.2 = s.machine.world.2 ++ calls)
    (hnone : calls.filterMap openCall = []) : Authorised s h s' := by
  refine .inl ?_
  rw [openCalls, newCalls_of_append hlog, hnone]

theorem Happens.authorised (hs : Happens dev s h s') : Authorised s h s' := by
  have hsame : ∀ {s' : Moment (Watch V)}, s'.machine.world.2 = s.machine.world.2 → Authorised s h s' := fun hlog =>
    authorised_of_quiet (hlog.trans (List.append_nil _).symm) rfl
  cases hs with
  | event => exact authorised_of_event rfl rfl rfl
  | update =>
    obtain ⟨calls, hlog, hnone⟩ := update_openCall (attach dev) (stamp _) (stamp _)
      (onBridge ({ · with millis := stamp _ }) s.machine)
    exact authorised_of_quiet hlog hnone
  | scan _ _ _ _ _ he => exact authorised_of_event rfl rfl he
  | silent => exact hsame rfl
  | @callback t t' t'' =>
    -- `ScannerFailed` authorises nothing.
    obtain ⟨calls, hlog, hopens⟩ := processEvent_authorised (attach dev) .scannerFailed (stamp t) (stamp t')
      (onBridge ({ · with millis := stamp t'' }) (onBridge ({ · with failed := false }) s.machine))
    rcases hopens with hnone | ⟨door, opened, -, hweb | ⟨-, ⟨_, hkey, -⟩ | ⟨_, hscan, -⟩⟩⟩
    · exact authorised_of_quiet hlog hnone
    all_goals contradiction
  | receive => exact hsame rfl
  | elsewhere => exact hsame rfl

/-- In every run of the machine with its scanner, every door is opened by an
external event that authorises it, and at most one for each event. -/
theorem doors_authorised (dev : Devices V) (t : Nat) (m : Machine (Watch V)) {happenings : List (Happening V)}
    {s : Moment (Watch V)} (hrun : Run (Happens dev) (booted dev t m) happenings s) :
    Run (Within (Happens dev) Authorised) (booted dev t m) happenings s :=
  hrun.mono fun _ _ _ hs => ⟨hs, hs.authorised⟩

/-- The machine and the scanner of a box without credentials, as constructed. -/
def emptyBridge : Machine (Watch Unit) := constructed ((begin (some []) (some []) qrScannerPinUnused true (.constructed ())).2, [])

theorem doors_authorised_one : ∃ s, Run (Within (Happens emptyBox) Authorised) (booted emptyBox 0 emptyBridge)
    [.event (.webOpenBox 3) 10 20 20] s ∧ openCalls (booted emptyBox 0 emptyBridge) s = [(3, 3)] := by
  have hstep : Happens emptyBox (booted emptyBox 0 emptyBridge) (.event (.webOpenBox 3) 10 20 20)
    ⟨process emptyBox (.webOpenBox 3) 10 20 20 (booted emptyBox 0 emptyBridge).machine, 20⟩ :=
    .event rfl (Nat.zero_le 10) (by decide) (Nat.le_refl 20)
  exact ⟨_, doors_authorised _ _ _ (.single hstep), rfl⟩

end OrangeBox.Scanner
