import OrangeBox.StateMachine.Gating
/-!
# A machine left alone

Events only come from outside. When none come and `update` is called often
enough, every state but Home and Open ends by its timeout, so the machine comes
to rest (`comes_to_rest`): at Home with the light off and the door controls
enabled, or in Open because somebody opened the door. Nothing is assumed about
the run that led to the silence, so the counter may have gone round any number
of times since the running timeout was started.
-/
open OrangeBox.PassStore Clock Runs

namespace OrangeBox.StateMachine

variable {W : Type} {dev : Devices W} {e : BoxEvent} {target : BoxState} {now millis : UInt32} {g t t' d : Nat}
  {m m' : Machine W}

/-! ## Timeouts -/

/-- The timeout that `update` looks at in a state: when it was started and how
long it is. Home and Open have none. -/
def timeoutOf (c : BoxStateContext) : Option (UInt32 × UInt32) :=
  match c.state with
  | .password => some (c.passwordEntryStartedAt, c.currentPasswordEntryMillis)
  | .scan => some (c.scanStartedAt, qrScannerScanTimeoutMs)
  | .badPass => some (c.badPasswordStartedAt, c.currentBadPasswordMillis)
  | .presence => some (c.presenceCodeStartedAt, presenceCodeMillis)
  | .opening => some (c.doorOpenStartedAt, c.doorOpenDuration)
  | .closed => some (c.ambientOffStartedAt, ambientTimeout)
  | .home | .opened | .external => none

def timedOut (now : UInt32) (c : BoxStateContext) : Bool :=
  (timeoutOf c).any fun (startedAt, length) => timeoutElapsed startedAt length now

/-- Where a timeout leads. -/
def afterTimeout (c : BoxStateContext) : BoxState :=
  if c.state = .badPass then if c.retryScanAfterBadCode then .scan else .password else .home

theorem timeoutOf_refresh (m : Machine W) : timeoutOf (refresh dev now m).context = timeoutOf m.context :=
  refresh_eq timeoutOf (fun _ _ _ _ _ => rfl) m

theorem afterTimeout_refresh (m : Machine W) : afterTimeout (refresh dev now m).context = afterTimeout m.context :=
  refresh_eq afterTimeout (fun _ _ _ _ _ => rfl) m

/-- An update is one of three: the door was opened, the timeout is over, or
nothing happens. -/
theorem update_timeout (dev : Devices W) (now millis : UInt32) (m : Machine W) :
    (m.context.state = .opening ∧ update dev now millis m = transitionTo dev .opened now millis (refresh dev now m)) ∨
    (timedOut now m.context = true ∧
      update dev now millis m = transitionTo dev (afterTimeout m.context) now millis (refresh dev now m)) ∨
    (timedOut now m.context = false ∧ update dev now millis m = refresh dev now m) := by
  have hstate : (refresh dev now m).context.state = m.context.state := refresh_state m
  have htimeout : timeoutOf (refresh dev now m).context = timeoutOf m.context := timeoutOf_refresh m
  have hafter : afterTimeout (refresh dev now m).context = afterTimeout m.context := afterTimeout_refresh m
  unfold timedOut
  rw [← htimeout, ← hafter, ← hstate]
  unfold update
  generalize refresh dev now m = r
  cases hs : r.context.state <;> simp only [timeoutOf, afterTimeout, hs, Option.any] <;> grind

/-! ## How long a timeout lasts -/

/-- The longest timeout of a state, in milliseconds. -/
def longestTimeout : BoxState → Nat
  | .password | .presence => 30000
  | .scan => 9000
  | .badPass => 35000
  | .opening => 1000
  | .closed => 5000
  | .home | .opened | .external => 0

/-- The lengths that the context holds are within the limits. -/
structure Capped (c : BoxStateContext) : Prop where
  password : c.currentPasswordEntryMillis.toNat ≤ 30000
  badPassword : c.currentBadPasswordMillis.toNat ≤ 35000
  opening : c.state = .opening → c.doorOpenDuration.toNat ≤ 1000

theorem Capped.length_le {c : BoxStateContext} (h : Capped c) {startedAt length : UInt32}
    (ht : timeoutOf c = some (startedAt, length)) : length.toNat ≤ longestTimeout c.state := by
  unfold timeoutOf at ht
  cases hs : c.state <;> simp only [hs, Option.some.injEq, Prod.mk.injEq, reduceCtorEq] at ht <;> obtain ⟨-, rfl⟩ := ht
  case password => exact h.password
  case badPass => exact h.badPassword
  case opening => exact h.opening hs
  all_goals exact Nat.le_refl _

theorem exited_capped {c : BoxStateContext} (h : Capped c) : Capped (exited c) := by
  refine ⟨?_, h.badPassword, h.opening⟩
  unfold exited
  dsimp only
  split
  · exact Nat.zero_le _
  · exact h.password

/-- Entering a state keeps the lengths within the limits. -/
theorem Capped.transitionTo (h : Capped m.context) : Capped (transitionTo dev target now millis m).context := by
  by_cases hne : m.context.state = target
  · rw [transitionTo_self hne.symm]
    exact h
  have hx := exited_capped h
  cases target with
  | home =>
    rw [transitionTo_home _ _ _ hne]
    exact ⟨hx.password, hx.badPassword, fun hs => by contradiction⟩
  | password =>
    rw [transitionTo_password _ _ _ hne]
    exact ⟨Nat.le_refl _, Nat.zero_le _, fun hs => by contradiction⟩
  | presence =>
    obtain ⟨code, hc⟩ := transitionTo_presence dev now millis hne
    rw [hc]
    exact ⟨hx.password, hx.badPassword, fun hs => by contradiction⟩
  | opening =>
    rw [transitionTo_opening _ _ _ hne]
    refine ⟨hx.password, hx.badPassword, fun _ => ?_⟩
    dsimp only
    split
    · exact Nat.le_refl _
    · exact Nat.zero_le _
  | opened =>
    rw [transitionTo_opened _ _ _ hne]
    exact ⟨hx.password, hx.badPassword, fun hs => by contradiction⟩
  | closed =>
    rw [transitionTo_closed _ _ _ hne]
    exact ⟨hx.password, hx.badPassword, fun hs => by contradiction⟩
  | external =>
    rw [transitionTo_external _ _ _ hne]
    exact ⟨hx.password, hx.badPassword, fun hs => by contradiction⟩
  | badPass =>
    rw [transitionTo_badPass _ _ _ hne]
    split
    · refine ⟨hx.password, ?_, fun hs => by contradiction⟩
      exact Nat.le_trans (Nat.le_of_eq (toNat_badPasswordDelay _)) (by omega)
    · exact ⟨hx.password, hx.badPassword, fun hs => by contradiction⟩
  | scan =>
    rw [transitionTo_scan _ _ _ hne]
    exact ⟨hx.password, Nat.zero_le _, fun hs => by contradiction⟩

/-- What a reaction changes before the transition are not the lengths. -/
theorem Reaction.capped (h : Reaction dev now m e m' target) (hl : Capped m.context) : Capped m'.context := by
  cases h with
  | ignored | opened | closed =>
    rw [notice_context]
    exact hl
  | _ => exact ⟨hl.password, hl.badPassword, hl.opening⟩

theorem refresh_capped (hl : Capped m.context) : Capped (refresh dev now m).context := by
  obtain ⟨startedAt, due, hr⟩ := refresh_context dev now m
  rw [hr]
  exact ⟨hl.password, hl.badPassword, hl.opening⟩

/-! ## The light and the door controls -/

/-- The same devices, with the state of the light inside the box. -/
def Devices.lit (dev : Devices W) : Devices (W × Bool) where
  verifyCred value credType w := ((dev.verifyCred value credType w.1).1, (dev.verifyCred value credType w.1).2, w.2)
  usedCred door w := ((dev.usedCred door w.1).1, (dev.usedCred door w.1).2, w.2)
  openDoor door w := ((dev.openDoor door w.1).1, (dev.openDoor door w.1).2, w.2)
  readDoorState door w := dev.readDoorState door w.1
  ambientOn w := (dev.ambientOn w.1, true)
  ambientOff w := (dev.ambientOff w.1, false)
  display d w := (dev.display d w.1, w.2)
  rand w := ((dev.rand w.1).1, (dev.rand w.1).2, w.2)
  onUIUpdate action w := (dev.onUIUpdate action w.1, w.2)
  onStateChange old new t w := (dev.onStateChange old new t w.1, w.2)

/-- The rest of the box leaves the light alone. -/
def sameLight (w w' : W × Bool) : Prop := w'.2 = w.2

/-- A door is being opened, is open or has just been closed. -/
def InUse : BoxState → Prop
  | .opening | .opened | .closed => True
  | _ => False

/-- What the box shows fits its state. -/
structure Fitting (m : Machine (W × Bool)) : Prop where
  light : m.world.2 = true → InUse m.context.state
  enabled : m.context.state = .home → isExternalEnabled m = true
  disabled : InUse m.context.state → isExternalEnabled m = false

@[simp] theorem setExternal_light (action : UInt8) (m : Machine (W × Bool)) :
    (setExternal dev.lit action m).world.2 = m.world.2 := by
  unfold setExternal
  split <;> rfl

@[simp] theorem presenceDigits_light (n : Nat) (w : W × Bool) : (presenceDigits dev.lit n w).2.2 = w.2 := by
  induction n generalizing w with
  | zero => rfl
  | succ n ih => exact (ih _).trans rfl

section
variable {m : Machine (W × Bool)}

theorem onEnterHome_light (m : Machine (W × Bool)) : (onEnterHome dev.lit m).world.2 = false := setExternal_light _ _

theorem onEnterHome_enabled (m : Machine (W × Bool)) : isExternalEnabled (onEnterHome dev.lit m) = true :=
  decide_eq_true (setExternal_lastUIAction _ _)

/-- Charging a credential is left alone by what it does not reach. -/
theorem charged_same {α : Type} (f : Machine (W × Bool) → α)
    (hf : ∀ m : Machine (W × Bool), f (m.call fun w => (dev.lit.usedCred m.context.doorToOpen w).2) = f m) (charge : Bool) :
    f (if charge then m.call fun w => (dev.lit.usedCred m.context.doorToOpen w).2 else m) = f m := by
  cases charge with
  | false => rfl
  | true => exact hf m

/-- Only Home and Opening change the light or need the door controls changed. -/
theorem entered_light (hhome : target ≠ .home) (ho : target ≠ .opening) (h : (between dev.lit target m).world.2 = false) :
    (entered dev.lit target now millis m).2 = false := by
  unfold entered
  generalize between dev.lit target m = r at h ⊢
  cases target with
  | home | opening => contradiction
  | password | scan => exact (setExternal_light _ _).trans h
  | presence =>
    change (presenceDigits dev.lit presenceCodeLength r.world).2.2 = false
    rw [presenceDigits_light, h]
  | opened =>
    exact (charged_same (·.world.2) (fun _ => rfl) (consumes r)).trans h
  | closed | external => exact h
  | badPass =>
    rw [onEnter, onEnterBadPass]
    generalize hw : write dev.lit _ r = r'
    have hsame : r'.world.2 = r.world.2 := by
      rw [← hw]
      rfl
    cases hover : badPasswordOver now r'.context <;> exact hsame.trans h

theorem between_light (target : BoxState) (h : m.world.2 = false) : (between dev.lit target m).world.2 = false := by
  unfold between onExit
  split
  · exact h
  · exact h
  · exact h
  · rfl
  · exact h

/-- The door controls after a transition. -/
theorem transitionTo_enabled (h : target ≠ m.context.state) :
    isExternalEnabled (transitionTo dev.lit target now millis m) =
      if latches target then allowed target else isExternalEnabled m := by
  unfold isExternalEnabled
  rw [transitionTo_lastUIAction h]
  split
  · cases allowed target <;> rfl
  · rfl

theorem Fitting.transitionTo (h : Fitting m)
    (hto : target ≠ .home → target ≠ .opening → (InUse target ↔ InUse m.context.state)) :
    Fitting (transitionTo dev.lit target now millis m) := by
  by_cases hne : target = m.context.state
  · rw [transitionTo_self hne]
    exact h
  have hstate := transitionTo_state dev.lit target now millis m
  have hlight : (StateMachine.transitionTo dev.lit target now millis m).world.2 = (entered dev.lit target now millis m).2 := by
    rw [transitionTo_world hne]
    rfl
  have hshown : isExternalEnabled (StateMachine.transitionTo dev.lit target now millis m) =
      if latches target then allowed target else isExternalEnabled m :=
    transitionTo_enabled hne
  by_cases hhome : target = .home
  · subst hhome
    refine ⟨fun hl => ?_, fun _ => ?_, fun hu => ?_⟩
    · rw [hlight, entered, onEnter, onEnterHome_light] at hl
      contradiction
    · exact hshown
    · rw [hstate] at hu
      exact hu.elim
  by_cases ho : target = .opening
  · subst ho
    refine ⟨fun _ => ?_, fun hs => ?_, fun _ => ?_⟩
    · rw [hstate]
      trivial
    · rw [hstate] at hs
      contradiction
    · exact hshown
  -- The other states leave the light as it is, and are in use if the last one was.
  have hiff := hto hhome ho
  refine ⟨fun hl => ?_, fun hs => ?_, fun hu => ?_⟩
  · rw [hstate, hiff]
    refine h.light ?_
    by_contra hoff
    rw [hlight, entered_light hhome ho (between_light target (Bool.eq_false_iff.2 hoff))] at hl
    contradiction
  · rw [hstate] at hs
    contradiction
  · rw [hstate] at hu
    have hlatch : latches target = false := by
      cases target with
      | opened | closed => rfl
      | opening => contradiction
      | _ => exact hu.elim
    rw [hshown, hlatch]
    exact h.disabled (hiff.1 hu)

theorem Fitting.congr {m' : Machine (W × Bool)} (h : Fitting m) (hs : m'.context.state = m.context.state)
    (hl : m'.world.2 = m.world.2) (hu : m'.lastUIAction = m.lastUIAction) : Fitting m' := by
  have hshown : isExternalEnabled m' = isExternalEnabled m := by rw [isExternalEnabled, hu, isExternalEnabled]
  refine ⟨?_, ?_, ?_⟩
  · rw [hl, hs]
    exact h.light
  · rw [hshown, hs]
    exact h.enabled
  · rw [hshown, hs]
    exact h.disabled

end

/-- Apart from Home and Opening a reaction stays among the states in use or
among the others. -/
theorem Reaction.inUse (h : Reaction dev now m e m' target) (hhome : target ≠ .home) (ho : target ≠ .opening) :
    InUse target ↔ InUse m'.context.state := by
  rw [h.state]
  cases h with
  | ignored => exact Iff.rfl
  | penalty hs | password hs | scan hs | presence hs => rw [hs]; exact Iff.rfl
  | home | accepted | web => contradiction
  | refused hev | invalidCode hev => rcases evaluated_state hev with hs | hs <;> rw [hs] <;> exact Iff.rfl
  | opened hs | closed hs => rw [hs]; exact Iff.rfl

theorem Elapse.inUse (h : Elapse dev now m target) (hhome : target ≠ .home) : InUse target ↔ InUse m.context.state := by
  cases h with
  | stay => exact Iff.rfl
  | home => contradiction
  | retry hs =>
    rw [hs]
    split <;> exact Iff.rfl
  | opened hs => rw [hs]; exact Iff.rfl

/-! ## Any run -/

/-- What holds after every run. -/
structure Kept (m : Machine (W × Bool)) : Prop where
  capped : Capped m.context
  fitting : Fitting m
  inside : m.context.state ≠ .external

section
variable {s s' s₀ : Moment (W × Bool)} {st : Stimulus (W × Bool)} {es : List (Stimulus (W × Bool))}

theorem reaction_light {m m' : Machine (W × Bool)} (h : Reaction dev.lit now m e m' target) :
    m'.world.2 = m.world.2 ∧ m'.lastUIAction = m.lastUIAction := by
  cases h with
  | ignored | opened | closed => unfold notice; split <;> exact ⟨rfl, rfl⟩
  | _ => exact ⟨rfl, rfl⟩

theorem refresh_light (m : Machine (W × Bool)) :
    (refresh dev.lit now m).world.2 = m.world.2 ∧ (refresh dev.lit now m).lastUIAction = m.lastUIAction := by
  have hshow : ∀ r : Machine (W × Bool), (refreshPeriodicDisplay dev.lit now r).2.world.2 = r.world.2 ∧
      (refreshPeriodicDisplay dev.lit now r).2.lastUIAction = r.lastUIAction := by
    intro r
    unfold refreshPeriodicDisplay
    dsimp only
    split
    · exact ⟨rfl, rfl⟩
    · dsimp only
      split <;> exact ⟨rfl, rfl⟩
    · dsimp only
      split <;> exact ⟨rfl, rfl⟩
    all_goals exact ⟨rfl, rfl⟩
  unfold refresh
  dsimp only
  split
  · split <;> exact hshow _
  · exact ⟨rfl, rfl⟩

/-- No step leads to External. -/
theorem Reaction.inside (h : Reaction dev now m e m' target) (hs : m.context.state ≠ .external) : target ≠ .external := by
  cases h with
  | ignored => exact hs
  | _ => exact BoxState.noConfusion

theorem Elapse.inside (h : Elapse dev now m target) (hs : m.context.state ≠ .external) : target ≠ .external := by
  cases h with
  | stay => exact hs
  | retry => split <;> exact BoxState.noConfusion
  | _ => exact BoxState.noConfusion

theorem Kept.step (h : Kept s.machine) (hs : Step dev.lit sameLight s st s') : Kept s'.machine := by
  cases hs with
  | @event e t t' =>
    -- A reaction keeps the state, and then there is one transition.
    obtain ⟨m', target, hr, he⟩ := processEvent_reaction dev.lit e (stamp t) (stamp t') s.machine
    obtain ⟨hlight, hui⟩ := reaction_light hr
    have hfit : Fitting m' := h.fitting.congr hr.state hlight hui
    have hkept : Kept (transitionTo dev.lit target (stamp t) (stamp t') m') :=
      ⟨(hr.capped h.capped).transitionTo, hfit.transitionTo hr.inUse, by
        rw [transitionTo_state]
        exact hr.inside h.inside⟩
    rw [← he] at hkept
    exact hkept
  | @update t t' =>
    obtain ⟨target, hel, hu⟩ := update_elapse dev.lit (stamp t) (stamp t') s.machine
    have hlight : (refresh dev.lit (stamp t) s.machine).world.2 = s.machine.world.2 := (refresh_light s.machine).1
    have hui : (refresh dev.lit (stamp t) s.machine).lastUIAction = s.machine.lastUIAction :=
      (refresh_light s.machine).2
    have hfit : Fitting (refresh dev.lit (stamp t) s.machine) := h.fitting.congr (refresh_state _) hlight hui
    have hkept : Kept (transitionTo dev.lit target (stamp t) (stamp t') (refresh dev.lit (stamp t) s.machine)) :=
      ⟨(refresh_capped h.capped).transitionTo, hfit.transitionTo fun hhome _ => hel.inUse hhome, by
        rw [transitionTo_state]
        exact hel.inside (by rw [refresh_state]; exact h.inside)⟩
    rw [← hu] at hkept
    exact hkept
  | elsewhere hw => exact ⟨h.capped, h.fitting.congr rfl hw rfl, h.inside⟩

/-- A machine starts by entering Home. -/
theorem started_home (dev : Devices W) (t : Nat) (m : Machine W) :
    ∃ m', (started dev t m).machine = scheduleNextDisplayRefresh (stamp t) (onEnterHome dev m') :=
  ⟨_, rfl⟩

theorem started_light (t : Nat) (m : Machine (W × Bool)) : (started dev.lit t m).machine.world.2 = false := by
  obtain ⟨m', hm⟩ := started_home dev.lit t m
  rw [hm, scheduleNextDisplayRefresh, Machine.set_world, onEnterHome_light]

theorem started_enabled (t : Nat) (m : Machine (W × Bool)) : isExternalEnabled (started dev.lit t m).machine = true := by
  obtain ⟨m', hm⟩ := started_home dev.lit t m
  rw [hm, isExternalEnabled, scheduleNextDisplayRefresh, Machine.set_lastUIAction]
  exact onEnterHome_enabled m'

theorem Kept.started (t : Nat) (m : Machine (W × Bool)) : Kept (started dev.lit t m).machine := by
  have hc : (StateMachine.started dev.lit t m).machine.context = _ := started_context t m
  refine ⟨?_, ⟨fun hl => ?_, fun _ => started_enabled t m, fun hu => ?_⟩, ?_⟩
  · rw [hc]
    exact ⟨Nat.zero_le _, Nat.zero_le _, fun hs => by contradiction⟩
  · rw [started_light] at hl
    contradiction
  · rw [hc] at hu
    exact hu.elim
  · rw [hc]
    exact BoxState.noConfusion

/-! ## Silence -/

/-- A step of a machine left alone. The rest of the box may go on, and the next
update ends within `g` milliseconds. -/
def Silent (g : Nat) (s : Moment (W × Bool)) : Stimulus (W × Bool) → Moment (W × Bool) → Prop
  | .event .., _ => False
  | .update _ t', _ => t' ≤ s.clock + g
  | .elsewhere _, _ => True

/-- The machine is at Home, with the light off and the door controls enabled,
or a door is open. -/
def AtRest (m : Machine (W × Bool)) : Prop :=
  m.context.state = .home ∧ m.world.2 = false ∧ isExternalEnabled m = true ∨
    m.context.state = .opened ∧ isExternalEnabled m = false

/-- From `d` on an update finds the timeout over, even if it comes late. -/
def Due (g : Nat) (m : Machine (W × Bool)) (d : Nat) : Prop :=
  ∀ t, d ≤ t → t ≤ d + 2 * g → timedOut (stamp t) m.context = true

/-- The time a timeout leaves for the next one. -/
def reserve (g : Nat) (c : BoxStateContext) : Nat := if c.state = .badPass then 30000 + 2 * g else 0

/-- The machine rests, or it will by `limit`. -/
def Nearing (g limit : Nat) (s : Moment (W × Bool)) : Prop :=
  s.machine.context.state = .home ∨ s.machine.context.state = .opened ∨
    ∃ d, Due g s.machine d ∧ s.clock ≤ d + g ∧ d + 2 * g + reserve g s.machine.context ≤ limit

theorem timeoutOf_none {c : BoxStateContext} (h : timeoutOf c = none) :
    c.state = .home ∨ c.state = .opened ∨ c.state = .external := by
  unfold timeoutOf at h
  cases hs : c.state <;> simp [hs] at h ⊢

theorem timedOut_resting {c : BoxStateContext} (h : c.state = .home ∨ c.state = .opened) : timedOut now c = false := by
  unfold timedOut timeoutOf
  rcases h with hs | hs <;> rw [hs] <;> rfl

theorem Nearing.of_kept (h : Kept s.machine) (hg : g < 2 ^ 30) : Nearing g (s.clock + 65000 + 6 * g) s := by
  cases ht : timeoutOf s.machine.context with
  | none =>
    rcases timeoutOf_none ht with hs | hs | hs
    · exact .inl hs
    · exact .inr (.inl hs)
    · exact absurd hs h.inside
  | some timeout =>
    obtain ⟨start, length⟩ := timeout
    have hlength : length.toNat ≤ longestTimeout s.machine.context.state := h.capped.length_le ht
    have hmost : longestTimeout s.machine.context.state ≤ 35000 := by
      cases s.machine.context.state <;> decide
    obtain ⟨d, hle, hd, hover⟩ := exists_timeoutElapsed start length s.clock (2 * g) (by omega)
    refine .inr (.inr ⟨d, fun t h₁ h₂ => ?_, by omega, ?_⟩)
    · rw [timedOut, ht]
      exact hover t h₁ h₂
    · unfold reserve
      split <;> omega

/-- A state entered by a timeout of another one. -/
theorem due_after (dev : Devices W) (t : Nat) (millis : UInt32) (m : Machine (W × Bool))
    (hs : m.context.state = .badPass) (hg : g < 2 ^ 30) :
    ∃ d, d ≤ t + 30000 ∧ t ≤ d ∧ Due g (transitionTo dev.lit (afterTimeout m.context) (stamp t) millis m) d := by
  unfold afterTimeout Due timedOut
  rw [if_pos hs]
  split
  · rw [transitionTo_scan _ _ _ (by rw [hs]; exact BoxState.noConfusion)]
    exact ⟨t + 9000, by omega, by omega, fun u hle hlt => timeoutElapsed_of_le hle (by omega)⟩
  · rw [transitionTo_password _ _ _ (by rw [hs]; exact BoxState.noConfusion)]
    exact ⟨t + 30000, by omega, by omega, fun u hle hlt => timeoutElapsed_of_le hle (by omega)⟩

theorem Nearing.step {limit : Nat} (h : Nearing g limit s) (hs : Step dev.lit sameLight s st s') (hsilent : Silent g s st s')
    (hg : g < 2 ^ 30) : Nearing g limit s' := by
  cases hs with
  | event => exact hsilent.elim
  | elsewhere => exact h
  | @update t t' hle hle' =>
    have hsoon : t' ≤ s.clock + g := hsilent
    have hcases := update_timeout dev.lit (stamp t) (stamp t') s.machine
    -- A machine at rest stays as it is.
    have hrest : ∀ {state}, s.machine.context.state = state → (state = .home ∨ state = .opened) →
        (update dev.lit (stamp t) (stamp t') s.machine).context.state = state := by
      intro state hstate hrest
      rcases hcases with ⟨hopening, -⟩ | ⟨hover, -⟩ | ⟨-, hu⟩
      · rw [hstate] at hopening
        rcases hrest with rfl | rfl <;> contradiction
      · rw [timedOut_resting (by rw [hstate]; exact hrest)] at hover
        contradiction
      · rw [hu, refresh_state, hstate]
    rcases h with hhome | hopened | ⟨d, hdue, hclock, hlimit⟩
    · exact .inl (hrest hhome (.inl rfl))
    · exact .inr (.inl (hrest hopened (.inr rfl)))
    rcases hcases with ⟨-, hu⟩ | ⟨-, hu⟩ | ⟨hover, hu⟩
    · -- The contacts say that the door is open.
      refine .inr (.inl ?_)
      dsimp only
      rw [hu, transitionTo_state]
    · by_cases hbad : s.machine.context.state = .badPass
      · -- The code may be entered or scanned again, which takes one more timeout.
        have hbad' : (refresh dev.lit (stamp t) s.machine).context.state = .badPass := by rw [refresh_state, hbad]
        obtain ⟨d', hd', hle'', hdue'⟩ := due_after dev t (stamp t') _ hbad' hg
        rw [afterTimeout_refresh, ← hu] at hdue'
        have hleft : reserve g (update dev.lit (stamp t) (stamp t') s.machine).context = 0 := by
          rw [hu, reserve, transitionTo_state, afterTimeout, if_pos hbad]
          split <;> rfl
        have hheld : reserve g s.machine.context = 30000 + 2 * g := if_pos hbad
        refine .inr (.inr ⟨d', hdue', ?_, ?_⟩)
        · change t' ≤ d' + g
          omega
        · rw [hleft]
          omega
      · refine .inl ?_
        dsimp only
        rw [hu, transitionTo_state, afterTimeout, if_neg hbad]
    · -- Nothing has happened, so the timeout was not due.
      have hbefore : t < d := by
        by_contra hnot
        rw [hdue t (by omega) (by omega)] at hover
        contradiction
      refine .inr (.inr ⟨d, fun u h₁ h₂ => ?_, ?_, ?_⟩)
      · rw [hu, timedOut, timeoutOf_refresh]
        exact hdue u h₁ h₂
      · change t' ≤ d + g
        omega
      · rw [hu, reserve, refresh_state]
        exact hlimit

/-- **Left alone, the machine comes to rest.** After any run, when no event
comes and updates end at most `g` milliseconds apart, the machine is at rest
after 65 seconds and six times `g`. -/
theorem comes_to_rest {env : W × Bool → W × Bool → Prop} {t₀ : Nat} {m : Machine (W × Bool)}
    {us : List (Stimulus (W × Bool))} (hlight : ∀ w w', env w w' → sameLight w w')
    (h : Run (Step dev.lit env) (started dev.lit t₀ m) es s) (hsilent : Run (Within (Step dev.lit env) (Silent g)) s us s')
    (hg : g < 2 ^ 30) (hlong : s.clock + 65000 + 6 * g < s'.clock) : AtRest s'.machine := by
  have hstep : ∀ {s st s'}, Step dev.lit env s st s' → Step dev.lit sameLight s st s' := by
    intro s st s' hs
    cases hs with
    | event h₁ h₂ => exact .event h₁ h₂
    | update h₁ h₂ => exact .update h₁ h₂
    | elsewhere henv => exact .elsewhere (hlight _ _ henv)
  have hkept : Kept s.machine := h.inv (fun s => Kept s.machine) (.started t₀ m) fun _ _ _ hi hs => hi.step (hstep hs)
  obtain ⟨hkept', hnear⟩ := hsilent.inv (fun r => Kept r.machine ∧ Nearing g (s.clock + 65000 + 6 * g) r)
    ⟨hkept, .of_kept hkept hg⟩ fun _ _ _ hi hs => ⟨hi.1.step (hstep hs.1), hi.2.step (hstep hs.1) hs.2 hg⟩
  rcases hnear with hs | hs | ⟨d, -, hclock, hlimit⟩
  · refine .inl ⟨hs, ?_, hkept'.fitting.enabled hs⟩
    by_contra hon
    have huse := hkept'.fitting.light (Bool.eq_true_of_not_eq_false hon)
    rw [hs] at huse
    exact huse
  · exact .inr ⟨hs, hkept'.fitting.disabled (by rw [hs]; trivial)⟩
  · omega

/-- `n` updates, `g` milliseconds apart. -/
def leftAlone (dev : Devices (W × Bool)) (g : Nat) : Nat → Moment (W × Bool) → Moment (W × Bool)
  | 0, s => s
  | n + 1, s =>
    let s := leftAlone dev g n s
    ⟨update dev (stamp (s.clock + g)) (stamp (s.clock + g)) s.machine, s.clock + g⟩

theorem leftAlone_silent (dev : Devices W) (g n : Nat) (s : Moment (W × Bool)) :
    ∃ us, Run (Within (Step dev.lit sameLight) (Silent g)) s us (leftAlone dev.lit g n s) := by
  induction n with
  | zero => exact ⟨[], .nil⟩
  | succ n ih =>
    obtain ⟨us, hrun⟩ := ih
    exact ⟨_, hrun.snoc ⟨.update (Nat.le_add_right _ g) (Nat.le_refl _), Nat.le_refl _⟩⟩

/-- A wrong password, and then nothing but an update every 65 seconds. -/
theorem comes_to_rest_mistyped : ∃ s : Moment (Unit × Bool), s.machine.context.state = .badPass ∧
    AtRest (leftAlone emptyBox.lit 65000 8 s).machine := by
  have hstart : Run (Step emptyBox.lit sameLight) (started emptyBox.lit 0 (constructed ((), true))) []
    (started emptyBox.lit 0 (constructed ((), true))) := .nil
  have hkey := hstart.snoc (Step.event (e := .keyboardKey1) (Nat.le_refl 0) (Nat.zero_le 50))
  have hwrong := hkey.snoc (Step.event (e := .keyboardEnter CText.empty) (by decide : 50 ≤ 100) (Nat.le_refl 100))
  obtain ⟨us, hsilent⟩ := leftAlone_silent emptyBox 65000 8
    ⟨processEvent emptyBox.lit (.keyboardEnter CText.empty) (stamp 100) (stamp 100)
      (processEvent emptyBox.lit .keyboardKey1 (stamp 0) (stamp 50)
        (started emptyBox.lit 0 (constructed ((), true))).machine), 100⟩
  exact ⟨_, rfl, comes_to_rest (fun _ _ h => h) hwrong hsilent (by decide) (by decide)⟩

end

end OrangeBox.StateMachine
