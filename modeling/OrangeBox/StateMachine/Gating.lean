import OrangeBox.StateMachine.Steps
/-!
# Client operations are gated by the state

Whether clients may open doors is latched by the entry actions of some states.
It belongs to the current state whichever way the box came there, as long as
nobody asks for a code in Home while a delay is running: that goes to BadPass
without withdrawing the permission (`gating_iff`).
-/
open OrangeBox.PassStore Clock Runs

namespace OrangeBox.StateMachine

variable {W : Type} {dev : Devices W} {m m' : Machine W} {e : BoxEvent} {target : BoxState} {now millis : UInt32}

/-! ## The latch -/

/-- Clients may open doors in Home, and while a presence code is shown. -/
def allowed : BoxState → Bool
  | .home | .presence => true
  | _ => false

/-- The entry action sets the latch. -/
def latches : BoxState → Bool
  | .home | .password | .scan | .opening => true
  | _ => false

@[simp] theorem setExternal_lastUIAction (action : UInt8) (m : Machine W) :
    (setExternal dev action m).lastUIAction = action := by
  unfold setExternal
  split
  · rfl
  · rename_i h
    exact not_not.1 h

@[simp] theorem write_lastUIAction (d : Display) (m : Machine W) : (write dev d m).lastUIAction = m.lastUIAction := rfl

theorem onExit_lastUIAction (state : BoxState) (m : Machine W) : (onExit dev state m).lastUIAction = m.lastUIAction := by
  cases state <;> rfl

theorem activateLock_lastUIAction (m : Machine W) : (activateLock dev m).2.lastUIAction = m.lastUIAction := by
  unfold activateLock
  split <;> rfl

theorem onEnter_lastUIAction (target : BoxState) (m : Machine W) : (onEnter dev target now millis m).lastUIAction =
    if latches target then (if allowed target then uiEnableDoorControls else uiDisableDoorControls) else m.lastUIAction := by
  cases target with
  | home => simp [onEnter, onEnterHome, enableExternal, latches, allowed]
  | password => simp [onEnter, onEnterPassword, disableExternal, latches, allowed]
  | scan => simp [onEnter, onEnterScan, disableExternal, latches, allowed]
  | opening =>
    simp only [onEnter, onEnterOpening, latches, allowed]
    split <;> simp [activateLock_lastUIAction, disableExternal]
  | presence => simp [onEnter, onEnterPresence, generatePresenceCode, latches]
  | opened =>
    simp only [onEnter, onEnterOpen, latches]
    split <;> simp
  | closed => simp [onEnter, onEnterClosed, latches]
  | external => simp [onEnter, latches]
  | badPass =>
    simp only [onEnter, onEnterBadPass, latches]
    generalize (if m.context.retryScanAfterBadCode then ResponseLine.badScan else .badPass) = line
    split <;> simp

/-- The permission is the one that belongs to the state. -/
def Gated (m : Machine W) : Prop := isExternalEnabled m = allowed m.context.state

theorem transitionTo_lastUIAction (h : target ≠ m.context.state) : (transitionTo dev target now millis m).lastUIAction =
    if latches target then (if allowed target then uiEnableDoorControls else uiDisableDoorControls) else m.lastUIAction := by
  rw [transitionTo_eq h, Machine.call_lastUIAction, scheduleNextDisplayRefresh, Machine.set_lastUIAction, onEnter_lastUIAction,
    between, Machine.set_lastUIAction, onExit_lastUIAction]

/-- A transition keeps the permission right unless it leads to a state with
another permission that does not set it. -/
theorem Gated.transitionTo_iff (h : Gated m) :
    Gated (transitionTo dev target now millis m) ↔ latches target = true ∨ allowed target = allowed m.context.state := by
  by_cases hself : target = m.context.state
  · rw [transitionTo_self hself]
    exact iff_of_true h (.inr (congrArg allowed hself))
  unfold Gated isExternalEnabled at h ⊢
  rw [transitionTo_state, transitionTo_lastUIAction hself]
  cases hlatch : latches target with
  | true =>
    refine iff_of_true ?_ (.inl rfl)
    cases allowed target <;> rfl
  | false =>
    simp only [Bool.false_eq_true, if_false, false_or]
    rw [h, eq_comm]

theorem Gated.congr (h : Gated m) (hui : m'.lastUIAction = m.lastUIAction) (hstate : m'.context.state = m.context.state) :
    Gated m' := by
  unfold Gated isExternalEnabled at h ⊢
  rw [hui, hstate]
  exact h

/-! ## Events and updates -/

theorem Reaction.lastUIAction (h : Reaction dev now m e m' target) : m'.lastUIAction = m.lastUIAction := by
  cases h with
  | ignored => unfold notice; split <;> rfl
  | _ => rfl

/-- A code is asked for in Home while a delay is running. -/
def Barred (now : UInt32) (c : BoxStateContext) (e : BoxEvent) : Prop :=
  c.state = .home ∧ badPasswordOver now c = false ∧ (e = .keyboardKey1 ∨ e = .keyboardKey3)

theorem evaluated_not_home {c : BoxStateContext} (h : evaluated now c e = true) : c.state ≠ .home := by
  rcases evaluated_state h with hs | hs <;> simp [hs]

theorem processEvent_gated_iff (h : Gated m) : Gated (processEvent dev e now millis m) ↔ ¬Barred now m.context e := by
  obtain ⟨r, target, hr, he⟩ := processEvent_reaction dev e now millis m
  rw [he, (h.congr hr.lastUIAction hr.state).transitionTo_iff, hr.state]
  have hnotHome : m.context.state ≠ .home → ¬Barred now m.context e := fun hs hb => hs hb.1
  cases hr with
  | ignored hh =>
    refine iff_of_true (.inr rfl) ?_
    rintro ⟨hs, -, rfl | rfl⟩
    · simp [handled, hs] at hh
    · simp [handled, hs] at hh
  | penalty hs hover hkey =>
    refine iff_of_false ?_ (not_not.2 ⟨hs, hover, hkey⟩)
    rw [hs]
    decide
  | password _ hover => exact iff_of_true (.inl rfl) fun hb => Bool.noConfusion (hover.symm.trans hb.2.1)
  | scan _ hover => exact iff_of_true (.inl rfl) fun hb => Bool.noConfusion (hover.symm.trans hb.2.1)
  | presence hs => exact iff_of_true (.inr (by rw [hs]; rfl)) fun hb => by rcases hb.2.2 with he | he <;> cases he
  | home _ _ hs => exact iff_of_true (.inl rfl) (hnotHome hs)
  | accepted hev => exact iff_of_true (.inl rfl) (hnotHome (evaluated_not_home hev))
  | refused hev | invalidCode hev =>
    -- A bad code was typed or scanned, where clients had no permission already.
    refine iff_of_true (.inr ?_) (hnotHome (evaluated_not_home hev))
    rcases evaluated_state hev with hs | hs <;> rw [hs] <;> rfl
  | web => exact iff_of_true (.inl rfl) fun hb => by rcases hb.2.2 with he | he <;> cases he
  | opened hs | closed hs => exact iff_of_true (.inr (by rw [hs]; rfl)) (hnotHome (by simp [hs]))

theorem refreshPeriodicDisplay_lastUIAction (now : UInt32) (m : Machine W) :
    (refreshPeriodicDisplay dev now m).2.lastUIAction = m.lastUIAction := by
  unfold refreshPeriodicDisplay
  dsimp only
  split <;> try rfl
  all_goals
    dsimp only
    split <;> rfl

theorem refresh_lastUIAction (now : UInt32) (m : Machine W) : (refresh dev now m).lastUIAction = m.lastUIAction := by
  unfold refresh
  dsimp only
  split
  · split
    · exact refreshPeriodicDisplay_lastUIAction now _
    · exact refreshPeriodicDisplay_lastUIAction now _
  · rfl

theorem update_gated (h : Gated m) : Gated (update dev now millis m) := by
  obtain ⟨target, helapse, hu⟩ := update_elapse dev now millis m
  have hr : Gated (refresh dev now m) := h.congr (refresh_lastUIAction now m) (refresh_state m)
  rw [hu, hr.transitionTo_iff]
  cases helapse with
  | stay => exact .inr rfl
  | home => exact .inl rfl
  | retry => exact .inl (by split <;> rfl)
  | opened hs => exact .inr (by rw [hs]; rfl)

/-! ## Runs -/

variable {env : W → W → Prop} {s s' : Moment W} {a : Stimulus W} {t : Nat} {as : List (Stimulus W)}

/-- Nobody asks for a code in Home while a delay is running. -/
def Unbarred (s : Moment W) (a : Stimulus W) (_ : Moment W) : Prop :=
  ∀ e t t', a = .event e t t' → ¬Barred (stamp t) s.machine.context e

theorem Gated.step_iff (h : Gated s.machine) (hs : Step dev env s a s') : Gated s'.machine ↔ Unbarred s a s' := by
  cases hs with
  | event _ _ =>
    rw [processEvent_gated_iff h]
    exact ⟨fun hb e t t' he => by cases he; exact hb, fun hb => hb _ _ _ rfl⟩
  | update _ _ => exact iff_of_true (update_gated h) (fun e t t' he => by cases he)
  | elsewhere _ => exact iff_of_true h (fun e t t' he => by cases he)

theorem started_gated (dev : Devices W) (t : Nat) (m : Machine W) : Gated (started dev t m).machine := by
  simp [started, initializeMachine, scheduleNextDisplayRefresh, Gated, isExternalEnabled, onEnterHome, enableExternal,
    BoxStateContext.zero, allowed]

/-- The permission belongs to the state all along a run exactly when nobody asks
for a code in Home while a delay is running. -/
theorem gating_iff (dev : Devices W) (env : W → W → Prop) (t : Nat) (m : Machine W) (as : List (Stimulus W)) (s : Moment W) :
    Run (Within (Step dev env) fun _ _ s' => Gated s'.machine) (started dev t m) as s ↔
      Run (Within (Step dev env) Unbarred) (started dev t m) as s :=
  Run.within_iff (fun s => Gated s.machine) (started_gated dev t m) (fun _ _ _ hg hs => hg.step_iff hs)
    fun _ _ _ hg hs hu => (hg.step_iff hs).2 hu

/-- Two such runs that end in the same state leave clients the same permission,
whatever happened on the way and whichever boxes they are of. -/
theorem same_permission {V : Type} {dev' : Devices V} {env' : V → V → Prop} {t' : Nat} {n : Machine V}
    {bs : List (Stimulus V)} {r : Moment V} (h : Run (Within (Step dev env) Unbarred) (started dev t m) as s)
    (h' : Run (Within (Step dev' env') Unbarred) (started dev' t' n) bs r)
    (hstate : s.machine.context.state = r.machine.context.state) :
    isExternalEnabled s.machine = isExternalEnabled r.machine := by
  have hgated := Run.inv (fun s => Gated s.machine) (started_gated dev t m) (fun s a s' hg hs => (hg.step_iff hs.1).2 hs.2) h
  have hgated' := Run.inv (fun s => Gated s.machine) (started_gated dev' t' n) (fun s a s' hg hs => (hg.step_iff hs.1).2 hs.2) h'
  exact hgated.trans ((congrArg allowed hstate).trans hgated'.symm)

/-- A bad code leads to BadPass and withdraws the permission; giving up and
asking for a code again leads to BadPass and does not. -/
theorem permission_by_path : ∃ as as' s s', Run (Step emptyBox fun _ _ => True) (started emptyBox 0 (constructed ())) as s ∧
    Run (Step emptyBox fun _ _ => True) (started emptyBox 0 (constructed ())) as' s' ∧
    s.machine.context.state = .badPass ∧ s'.machine.context.state = .badPass ∧
    isExternalEnabled s.machine = false ∧ isExternalEnabled s'.machine = true := by
  have hstart : Run (Step emptyBox fun _ _ => True) (started emptyBox 0 (constructed ())) []
    (started emptyBox 0 (constructed ())) := .nil
  have hasked := hstart.snoc (Step.event (e := .keyboardKey1) (Nat.le_refl 0) (Nat.zero_le 50))
  have hbad := hasked.snoc (Step.event (e := .keyboardEnter CText.empty) (by decide : 50 ≤ 100) (Nat.le_refl 100))
  have hhome := hbad.snoc (Step.event (e := .keyboardCancel) (by decide : 100 ≤ 200) (Nat.le_refl 200))
  have hagain := hhome.snoc (Step.event (e := .keyboardKey1) (by decide : 200 ≤ 300) (Nat.le_refl 300))
  exact ⟨_, _, _, _, hbad, hagain, rfl, rfl, rfl, rfl⟩

end OrangeBox.StateMachine
