import OrangeBox.StateMachine.Steps
/-!
# Guessing is rate limited

Every call of `verifyCred` and every scanned code is an attempt. After the
`k`-th failure in a row there is no attempt for `5000 * min k 7` milliseconds
(`guessing_limited`): the delay that is running survives every detour, because
only an attempt, or the end of the delay, touches it.
-/
open OrangeBox.PassStore Clock Runs

namespace OrangeBox.StateMachine

variable {W : Type} {dev : Devices W} {e : BoxEvent} {target : BoxState} {now millis : UInt32}
  {c c' : BoxStateContext} {m m' : Machine (W × List DeviceCall)} {s s' : Moment (W × List DeviceCall)}

/-! ## Attempts -/

structure Attempt where
  time : Nat
  accepted : Bool

/-- A call of `verifyCred` at `t` is an attempt. -/
def verdict (t : Nat) : DeviceCall → Option Attempt
  | .verifyCred _ _ door => some ⟨t, door ≠ doorUnknown⟩
  | _ => none

/-- The attempts of a step: the calls of `verifyCred`, and invalid codes. -/
def attempts (s : Moment (W × List DeviceCall)) (e : Stimulus (W × List DeviceCall))
    (s' : Moment (W × List DeviceCall)) : List Attempt :=
  match e with
  | .event e t _ =>
    (newCalls s s').filterMap (verdict t) ++
      if e = .scannerInvalidCode ∧ evaluated (stamp t) s.machine.context e = true then [⟨t, false⟩] else []
  | .update t _ => (newCalls s s').filterMap (verdict t)
  | .elsewhere _ => (newCalls s s').filterMap (verdict s.clock)

/-- Failures since the last success. -/
def failures (as : List Attempt) : Nat := as.foldl (fun n a => if a.accepted then 0 else n + 1) 0

@[simp] theorem failures_nil : failures [] = 0 := rfl

@[simp] theorem failures_append (as : List Attempt) (a : Attempt) :
    failures (as ++ [a]) = if a.accepted then 0 else failures as + 1 := by
  simp [failures]

/-- The delay after the `k`-th failure in a row. -/
def delayAfter (k : Nat) : Nat := 5000 * min k 7

/-- No attempt comes before the delay of a failure is over. -/
def RateLimited (as : List Attempt) : Prop :=
  ∀ pre t post, as = pre ++ ⟨t, false⟩ :: post → ∀ a ∈ post, t + delayAfter (failures pre + 1) ≤ a.time

theorem countBadPassword_count {k : Nat} (h : c.badPasswordCount.toNat = min k 255) :
    (countBadPassword c).badPasswordCount.toNat = min (k + 1) 255 := by
  unfold countBadPassword
  dsimp only
  split
  · rename_i hlt
    have hlt : c.badPasswordCount.toNat < 255 := hlt
    rw [UInt8.toNat_add]
    simp only [UInt8.reduceToNat]
    omega
  · rename_i hlt
    have hlt : ¬c.badPasswordCount.toNat < 255 := hlt
    omega

/-! ## What a step does to the delay -/

/-- A delay that is running goes on. -/
def DelayKept (now : UInt32) (c c' : BoxStateContext) : Prop :=
  badPasswordOver now c = false → c'.badPasswordActive = c.badPasswordActive ∧
    c'.badPasswordStartedAt = c.badPasswordStartedAt ∧ c'.currentBadPasswordMillis = c.currentBadPasswordMillis

/-- No delay is running while a code may be entered. -/
def Idle (c : BoxStateContext) : Prop := c.state = .password ∨ c.state = .scan → c.badPasswordActive = false

theorem Idle.over (h : Idle c) (hs : c.state = .password ∨ c.state = .scan) : badPasswordOver now c = true := by
  simp [badPasswordOver, h hs]

/-- The delay, the count and the code entry over a transition. -/
theorem transitionTo_delay (dev : Devices (W × List DeviceCall)) (now millis : UInt32) (hi : Idle m.context)
    (hentry : target = .password ∨ target = .scan → target = m.context.state ∨ badPasswordOver now m.context = true) :
    DelayKept now m.context (transitionTo dev target now millis m).context ∧
      Idle (transitionTo dev target now millis m).context ∧
      (transitionTo dev target now millis m).context.badPasswordCount = m.context.badPasswordCount := by
  by_cases h : m.context.state = target
  · rw [transitionTo_self h.symm]
    exact ⟨fun _ => ⟨rfl, rfl, rfl⟩, hi, rfl⟩
  cases target with
  | home =>
    rw [transitionTo_home _ _ _ h]
    exact ⟨fun _ => ⟨rfl, rfl, rfl⟩, by simp [Idle, moved], rfl⟩
  | password =>
    have hover := (hentry (.inl rfl)).resolve_left (Ne.symm h)
    rw [transitionTo_password _ _ _ h]
    exact ⟨fun hn => by simp [hover] at hn, fun _ => rfl, rfl⟩
  | presence =>
    obtain ⟨code, hc⟩ := transitionTo_presence dev now millis h
    rw [hc]
    exact ⟨fun _ => ⟨rfl, rfl, rfl⟩, by simp [Idle, moved], rfl⟩
  | opening =>
    rw [transitionTo_opening _ _ _ h]
    exact ⟨fun _ => ⟨rfl, rfl, rfl⟩, by simp [Idle, moved], rfl⟩
  | opened =>
    rw [transitionTo_opened _ _ _ h]
    exact ⟨fun _ => ⟨rfl, rfl, rfl⟩, by simp [Idle, moved], rfl⟩
  | closed =>
    rw [transitionTo_closed _ _ _ h]
    exact ⟨fun _ => ⟨rfl, rfl, rfl⟩, by simp [Idle, moved], rfl⟩
  | external =>
    rw [transitionTo_external _ _ _ h]
    exact ⟨fun _ => ⟨rfl, rfl, rfl⟩, by simp [Idle, moved], rfl⟩
  | badPass =>
    rw [transitionTo_badPass _ _ _ h]
    cases hover : badPasswordOver now m.context with
    | true => exact ⟨fun hn => by simp [hover] at hn, by simp [Idle, moved], rfl⟩
    | false => exact ⟨fun _ => ⟨rfl, rfl, rfl⟩, by simp [Idle, moved], rfl⟩
  | scan =>
    have hover := (hentry (.inr rfl)).resolve_left (Ne.symm h)
    rw [transitionTo_scan _ _ _ h]
    exact ⟨fun hn => by simp [hover] at hn, fun _ => rfl, rfl⟩

/-- A refresh ends a delay only when it is over. -/
theorem refresh_delay (dev : Devices (W × List DeviceCall)) (now : UInt32) (hi : Idle m.context) :
    DelayKept now m.context (refresh dev now m).context ∧ Idle (refresh dev now m).context ∧
      (refresh dev now m).context.badPasswordCount = m.context.badPasswordCount ∧
      (badPasswordOver now m.context = false → badPasswordOver now (refresh dev now m).context = false) ∧
      (refresh dev now m).context.state = m.context.state := by
  obtain ⟨started, due, hr⟩ := refresh_context dev now m
  rw [hr]
  refine ⟨fun hn => ?_, fun hs => ?_, rfl, fun hn => ?_, rfl⟩
  · simp only [badPasswordOver, Bool.or_eq_false_iff, Bool.not_eq_false'] at hn
    exact ⟨by simp [lapsed, hn.1, hn.2], rfl, rfl⟩
  · simp [lapsed, hi hs]
  · simp only [badPasswordOver, Bool.or_eq_false_iff, Bool.not_eq_false'] at hn
    simp [badPasswordOver, lapsed, hn.1, hn.2]

theorem DelayKept.trans {c'' : BoxStateContext} (h : DelayKept now c c') (h' : DelayKept now c' c'')
    (hover : badPasswordOver now c = false → badPasswordOver now c' = false) : DelayKept now c c'' := by
  intro hn
  obtain ⟨ha, hs, hd⟩ := h hn
  obtain ⟨ha', hs', hd'⟩ := h' (hover hn)
  exact ⟨ha'.trans ha, hs'.trans hs, hd'.trans hd⟩

theorem update_delay (dev : Devices (W × List DeviceCall)) (now millis : UInt32) (hi : Idle m.context) :
    DelayKept now m.context (update dev now millis m).context ∧ Idle (update dev now millis m).context ∧
      (update dev now millis m).context.badPasswordCount = m.context.badPasswordCount := by
  obtain ⟨target, helapse, hu⟩ := update_elapse dev now millis m
  obtain ⟨hkept, hidle, hcount, hover, -⟩ := refresh_delay dev now hi
  rw [hu]
  have hentry : target = .password ∨ target = .scan →
      target = (refresh dev now m).context.state ∨ badPasswordOver now (refresh dev now m).context = true := by
    intro ht
    cases helapse with
    | stay => exact .inl rfl
    | home | opened => simp at ht
    | retry _ hend => exact .inr (by simp [badPasswordOver, hend])
  obtain ⟨hkept', hidle', hcount'⟩ := transitionTo_delay dev now millis hidle hentry
  exact ⟨hkept.trans hkept' hover, hidle', hcount'.trans hcount⟩

/-! ## The delays of the failures so far -/

/-- The delay of the `k`-th failure in a row, at `t`, is running. -/
structure Pending (c : BoxStateContext) (t k : Nat) : Prop where
  active : c.badPasswordActive = true
  startedAt : c.badPasswordStartedAt = stamp t
  length : c.currentBadPasswordMillis.toNat = delayAfter k

/-- The delay of each failure is over or running. -/
def Waits (c : BoxStateContext) (clock : Nat) (as : List Attempt) : Prop :=
  ∀ pre t post, as = pre ++ ⟨t, false⟩ :: post →
    t ≤ clock ∧ (t + delayAfter (failures pre + 1) ≤ clock ∨ Pending c t (failures pre + 1))

variable {as : List Attempt} {clock t t' : Nat}

/-- When no delay is running, all are over. -/
theorem Waits.settled (h : Waits c clock as) (hle : clock ≤ t) (hover : badPasswordOver (stamp t) c = true) :
    ∀ pre t₀ post, as = pre ++ ⟨t₀, false⟩ :: post → t₀ + delayAfter (failures pre + 1) ≤ t := by
  intro pre t₀ post has
  obtain ⟨hpast, hdone | hpending⟩ := h pre t₀ post has
  · omega
  · simp only [badPasswordOver, hpending.active, Bool.not_true, Bool.false_or, hpending.startedAt] at hover
    have := le_of_timeoutElapsed (by omega) hover
    rw [hpending.length] at this
    exact this

theorem Waits.keep (h : Waits c clock as) (hle : clock ≤ t) (hle' : t ≤ t') (hk : DelayKept (stamp t) c c') :
    Waits c' t' as := by
  intro pre t₀ post has
  obtain ⟨hpast, hcase⟩ := h pre t₀ post has
  refine ⟨by omega, ?_⟩
  cases hover : badPasswordOver (stamp t) c with
  | true =>
    have := h.settled hle hover pre t₀ post has
    exact .inl (by omega)
  | false =>
    rcases hcase with hdone | hpending
    · exact .inl (by omega)
    · obtain ⟨ha, hs, hd⟩ := hk hover
      exact .inr ⟨ha.trans hpending.active, hs.trans hpending.startedAt, by rw [hd, hpending.length]⟩

/-- A split of a list with one more attempt. -/
theorem append_split {pre post : List Attempt} {a b : Attempt} (h : as ++ [a] = pre ++ b :: post) :
    post = [] ∧ as = pre ∧ a = b ∨ ∃ post', post = post' ++ [a] ∧ as = pre ++ b :: post' := by
  rcases List.eq_nil_or_concat post with rfl | ⟨post', a', rfl⟩
  · obtain ⟨rfl, hab⟩ := List.append_inj' h rfl
    exact .inl ⟨rfl, rfl, List.singleton_inj.1 hab⟩
  · rw [List.concat_eq_append, ← List.cons_append, ← List.append_assoc] at h
    obtain ⟨rfl, hab⟩ := List.append_inj' h rfl
    obtain rfl := List.singleton_inj.1 hab
    exact .inr ⟨post', by rw [List.concat_eq_append], rfl⟩

/-- An attempt when all delays are over. -/
theorem RateLimited.append {a : Attempt} (h : RateLimited as)
    (hsettled : ∀ pre t₀ post, as = pre ++ ⟨t₀, false⟩ :: post → t₀ + delayAfter (failures pre + 1) ≤ a.time) :
    RateLimited (as ++ [a]) := by
  intro pre t₀ post has b hb
  rcases append_split has with ⟨rfl, -, -⟩ | ⟨post', rfl, has'⟩
  · exact absurd hb List.not_mem_nil
  · rcases List.mem_append.1 hb with hb | hb
    · exact h pre t₀ post' has' b hb
    · rw [List.mem_singleton.1 hb]
      exact hsettled pre t₀ post' has'

theorem Waits.append {a : Attempt} (hle : t ≤ t') (ha : a.time = t)
    (hsettled : ∀ pre t₀ post, as = pre ++ ⟨t₀, false⟩ :: post → t₀ + delayAfter (failures pre + 1) ≤ t)
    (hlast : a.accepted = false → Pending c t (failures as + 1)) : Waits c t' (as ++ [a]) := by
  intro pre t₀ post has
  rcases append_split has with ⟨-, rfl, rfl⟩ | ⟨post', -, has'⟩
  · obtain rfl : t₀ = t := ha
    exact ⟨hle, .inr (hlast rfl)⟩
  · have := hsettled pre t₀ post' has'
    exact ⟨by omega, .inl (by omega)⟩

/-! ## Every state of a run -/

/-- What holds of the machine and the attempts so far. -/
structure Limited (s : Moment (W × List DeviceCall)) (as : List Attempt) : Prop where
  idle : Idle s.machine.context
  count : s.machine.context.badPasswordCount.toNat = min (failures as) 255
  waits : Waits s.machine.context s.clock as
  spaced : RateLimited as

/-- The attempts of an event, from its reaction. -/
theorem attempts_event (millis : UInt32) (t' : Nat) (hr : Reaction dev.logged (stamp t) s.machine e m' target) :
    attempts s (.event e t t') ⟨transitionTo dev.logged target (stamp t) millis m', t'⟩ =
      (verifications dev (stamp t) s.machine e).filterMap (verdict t) ++
        if e = .scannerInvalidCode ∧ evaluated (stamp t) s.machine.context e = true then [⟨t, false⟩] else [] := by
  obtain ⟨calls, hcalls, hlog⟩ := transitionTo_calls dev target (stamp t) millis m'
  rw [hr.calls, List.append_assoc] at hlog
  have hnone : calls.filterMap (verdict t) = [] := by cases hcalls <;> rfl
  rw [attempts, newCalls_of_append hlog, List.filterMap_append, hnone, List.append_nil]

theorem attempts_not_evaluated (hr : Reaction dev.logged (stamp t) s.machine e m' target)
    (he : evaluated (stamp t) s.machine.context e = false) :
    attempts s (.event e t t') ⟨transitionTo dev.logged target (stamp t) millis m', t'⟩ = [] := by
  rw [attempts_event _ _ hr]
  simp [verifications, he]

/-- A step without an attempt. -/
theorem Limited.keep (h : Limited s as) (hle : s.clock ≤ t) (hle' : t ≤ t') (hk : DelayKept (stamp t) s.machine.context c')
    (hi : Idle c') (hn : c'.badPasswordCount = s.machine.context.badPasswordCount) (hc : s'.machine.context = c')
    (ht : s'.clock = t') : Limited s' as where
  idle := hc ▸ hi
  count := by rw [hc, hn, h.count]
  waits := by rw [hc, ht]; exact h.waits.keep hle hle' hk
  spaced := h.spaced

/-- The fields the delay depends on are the same. -/
def SameDelay (c c' : BoxStateContext) : Prop :=
  c'.state = c.state ∧ c'.badPasswordActive = c.badPasswordActive ∧ c'.badPasswordStartedAt = c.badPasswordStartedAt ∧
    c'.currentBadPasswordMillis = c.currentBadPasswordMillis ∧ c'.badPasswordCount = c.badPasswordCount

theorem Limited.move (h : Limited s as) (hle : s.clock ≤ t) (hle' : t ≤ t') (hsame : SameDelay s.machine.context m'.context)
    (hentry : target = .password ∨ target = .scan →
      target = s.machine.context.state ∨ badPasswordOver (stamp t) s.machine.context = true) :
    Limited ⟨transitionTo dev.logged target (stamp t) millis m', t'⟩ as := by
  obtain ⟨hstate, hactive, hstarted, hlength, hcount⟩ := hsame
  have hover : badPasswordOver (stamp t) m'.context = badPasswordOver (stamp t) s.machine.context := by
    rw [badPasswordOver, hactive, hstarted, hlength]
    rfl
  have hidle : Idle m'.context := fun hs => hactive.trans (h.idle (hstate ▸ hs))
  have hentry' : target = .password ∨ target = .scan →
      target = m'.context.state ∨ badPasswordOver (stamp t) m'.context = true := by
    rw [hstate, hover]
    exact hentry
  obtain ⟨hk, hi, hn⟩ := transitionTo_delay dev.logged (stamp t) millis hidle hentry'
  refine h.keep hle hle' (fun hnot => ?_) hi (hn.trans hcount) rfl rfl
  obtain ⟨ha, hs, hd⟩ := hk (hover.trans hnot)
  exact ⟨ha.trans hactive, hs.trans hstarted, hd.trans hlength⟩

/-- After a failure the delay starts, for the count as it is then. -/
theorem Limited.fail (h : Limited s as) (hle : s.clock ≤ t) (hle' : t ≤ t')
    (he : evaluated (stamp t) s.machine.context e = true) (hstate : m'.context.state = s.machine.context.state)
    (hactive : m'.context.badPasswordActive = s.machine.context.badPasswordActive)
    (hcount : m'.context.badPasswordCount.toNat = min (failures as + 1) 255) :
    Limited ⟨transitionTo dev.logged .badPass (stamp t) millis m', t'⟩ (as ++ [⟨t, false⟩]) := by
  have hin := evaluated_state he
  have hsettled := h.waits.settled hle (h.idle.over hin)
  have hne : m'.context.state ≠ .badPass := by
    rw [hstate]
    rcases hin with hs | hs <;> simp [hs]
  have hover : badPasswordOver (stamp t) m'.context = true := by
    simp [badPasswordOver, hactive, h.idle hin]
  have hctx := transitionTo_badPass dev.logged (stamp t) millis hne
  rw [if_pos hover] at hctx
  refine ⟨?_, ?_, ?_, h.spaced.append hsettled⟩
  · simp [hctx, Idle, moved]
  · simp only [hctx, failures_append]
    exact hcount
  · refine Waits.append hle' rfl hsettled fun _ => ⟨by rw [hctx], by rw [hctx], ?_⟩
    have hdelay : delayAfter (min (failures as + 1) 255) = delayAfter (failures as + 1) := by
      unfold delayAfter
      omega
    rw [hctx, toNat_badPasswordDelay, hcount, ← delayAfter, hdelay]

theorem Limited.event (h : Limited s as) (hle : s.clock ≤ t) (hle' : t ≤ t')
    (hr : Reaction dev.logged (stamp t) s.machine e m' target) :
    Limited ⟨transitionTo dev.logged target (stamp t) millis m', t'⟩
      (as ++ attempts s (.event e t t') ⟨transitionTo dev.logged target (stamp t) millis m', t'⟩) := by
  -- Events that are no attempt: they may start a new entry only when the delay is over.
  have hquiet : evaluated (stamp t) s.machine.context e = false → SameDelay s.machine.context m'.context →
      (target = .password ∨ target = .scan →
        target = s.machine.context.state ∨ badPasswordOver (stamp t) s.machine.context = true) →
      Limited ⟨transitionTo dev.logged target (stamp t) millis m', t'⟩
        (as ++ attempts s (.event e t t') ⟨transitionTo dev.logged target (stamp t) millis m', t'⟩) :=
    fun he hsame hentry => by
      rw [attempts_not_evaluated hr he, List.append_nil]
      exact h.move hle hle' hsame hentry
  have hall := attempts_event millis t' hr
  cases hr with
  | ignored hh =>
    refine hquiet (by cases e <;> simp_all [handled, evaluated]) ?_ fun _ => .inl rfl
    rw [notice_context]
    exact ⟨rfl, rfl, rfl, rfl, rfl⟩
  | penalty _ _ he =>
    exact hquiet (by rcases he with rfl | rfl <;> rfl) ⟨rfl, rfl, rfl, rfl, rfl⟩ (by simp)
  | password _ hover => exact hquiet rfl ⟨rfl, rfl, rfl, rfl, rfl⟩ fun _ => .inr hover
  | scan _ hover => exact hquiet rfl ⟨rfl, rfl, rfl, rfl, rfl⟩ fun _ => .inr hover
  | presence => exact hquiet rfl ⟨rfl, rfl, rfl, rfl, rfl⟩ (by simp)
  | home _ he => exact hquiet he ⟨rfl, rfl, rfl, rfl, rfl⟩ (by simp)
  | web => exact hquiet rfl ⟨rfl, rfl, rfl, rfl, rfl⟩ (by simp)
  | opened | closed => exact hquiet rfl ⟨rfl, rfl, rfl, rfl, rfl⟩ (by simp)
  | accepted he hp hd =>
    rename_i value credType
    have hin := evaluated_state he
    have hsettled := h.waits.settled hle (h.idle.over hin)
    have hne : (accept dev.logged value credType s.machine).context.state ≠ .opening := by
      change s.machine.context.state ≠ .opening
      rcases hin with hs | hs <;> simp [hs]
    have hone : attempts s (.event e t t')
        ⟨transitionTo dev.logged .opening (stamp t) millis (accept dev.logged value credType s.machine), t'⟩ =
          [⟨t, true⟩] := by
      have hcode : e ≠ .scannerInvalidCode := by rintro rfl; contradiction
      have hd : (dev.verifyCred value credType s.machine.world.1).1 ≠ doorUnknown := hd
      rw [hall, verifications_of_presented he hp]
      simp [verdict, hd, hcode]
    rw [hone]
    have hctx := transitionTo_opening dev.logged (stamp t) millis hne
    refine ⟨?_, ?_, Waits.append hle' rfl hsettled (by simp), h.spaced.append hsettled⟩
    · simp [hctx, Idle, moved]
    · rw [hctx, failures_append]
      rfl
  | refused he hp hd =>
    rename_i value credType
    have hone : attempts s (.event e t t') ⟨transitionTo dev.logged .badPass (stamp t) millis
        (refuse (credType = .packetNumber) (verify dev.logged value credType s.machine)), t'⟩ = [⟨t, false⟩] := by
      have hcode : e ≠ .scannerInvalidCode := by rintro rfl; contradiction
      have hd : (dev.verifyCred value credType s.machine.world.1).1 = doorUnknown := hd
      rw [hall, verifications_of_presented he hp]
      simp [verdict, hd, hcode]
    rw [hone]
    exact h.fail hle hle' he rfl rfl (countBadPassword_count h.count)
  | invalidCode he =>
    have hone : attempts s (.event .scannerInvalidCode t t') ⟨transitionTo dev.logged .badPass (stamp t) millis
        (refuse true (s.machine.set ({ · with doorToOpen := doorUnknown }))), t'⟩ = [⟨t, false⟩] := by
      rw [hall, verifications, if_pos he]
      simp [presented, he]
    rw [hone]
    exact h.fail hle hle' he rfl rfl (countBadPassword_count h.count)

theorem attempts_update : attempts s (.update t t') ⟨update dev.logged (stamp t) millis s.machine, t'⟩ = [] := by
  obtain ⟨target, helapse, hu⟩ := update_elapse dev.logged (stamp t) millis s.machine
  obtain ⟨calls, hcalls, hlog⟩ := transitionTo_calls dev target (stamp t) millis (refresh dev.logged (stamp t) s.machine)
  have hrefresh : (refresh dev.logged (stamp t) s.machine).world.2 = s.machine.world.2 := (logged_quiet dev).refresh _
  rw [← hu, hrefresh] at hlog
  rw [attempts, newCalls_of_append hlog]
  cases hcalls <;> rfl

/-- Each step keeps the attempts apart. -/
theorem Limited.step {st : Stimulus (W × List DeviceCall)} (h : Limited s as) (hs : Step dev.logged sameCalls s st s') :
    Limited s' (as ++ attempts s st s') := by
  cases hs with
  | event hle hle' =>
    rename_i e t t'
    obtain ⟨m', target, hr, he⟩ := processEvent_reaction dev.logged e (stamp t) (stamp t') s.machine
    rw [he]
    exact h.event hle hle' hr
  | update hle hle' =>
    obtain ⟨hk, hi, hn⟩ := update_delay dev.logged (stamp _) (stamp _) h.idle
    rw [attempts_update, List.append_nil]
    exact h.keep hle hle' hk hi hn rfl rfl
  | elsewhere hcalls =>
    rename_i w
    have hlog : w.2 = s.machine.world.2 ++ [] := by rw [List.append_nil]; exact hcalls
    have hnone : attempts s (.elsewhere w) ⟨{ s.machine with world := w }, s.clock⟩ = [] := by
      rw [attempts, newCalls_of_append hlog]
      rfl
    rw [hnone, List.append_nil]
    exact ⟨h.idle, h.count, h.waits, h.spaced⟩

theorem Limited.start (t : Nat) (m : Machine (W × List DeviceCall)) : Limited (started dev.logged t m) [] where
  idle := by simp [Idle, started_context, BoxStateContext.zero]
  count := by rw [started_context]; rfl
  waits pre t post h := absurd h (by simp)
  spaced pre t post h := absurd h (by simp)

/-- After the `k`-th failure in a row no attempt is evaluated for the delay of
the `k`-th failure, in any run, whatever the devices answer. -/
theorem guessing_limited (dev : Devices W) (m : Machine (W × List DeviceCall)) (t : Nat)
    {stimuli : List (Stimulus (W × List DeviceCall))} {σ : Moment (W × List DeviceCall) × List Attempt}
    (hrun : Run (Watched (Step dev.logged sameCalls) attempts) (started dev.logged t m, []) stimuli σ) :
    RateLimited σ.2 := by
  refine (Run.inv (fun σ => Limited σ.1 σ.2) (Limited.start t m) (fun σ st σ' h hs => ?_) hrun).spaced
  obtain ⟨hstep, hobs⟩ := hs
  rw [hobs]
  exact h.step hstep

theorem guessing_limited_twice : ∃ stimuli σ,
    Run (Watched (Step emptyBox.logged sameCalls) attempts) (started emptyBox.logged 0 (constructed ((), [])), []) stimuli σ ∧
      σ.2 = [⟨100, false⟩, ⟨5100, false⟩] ∧ RateLimited σ.2 := by
  have hstart : Run (Watched (Step emptyBox.logged sameCalls) attempts)
    (started emptyBox.logged 0 (constructed ((), [])), []) [] (started emptyBox.logged 0 (constructed ((), [])), []) := .nil
  have hkey := hstart.observe (Step.event (e := .keyboardKey1) (Nat.le_refl 0) (Nat.zero_le 50))
  have hfirst := hkey.observe (Step.event (e := .keyboardEnter CText.empty) (by decide : 50 ≤ 100) (Nat.le_refl 100))
  have hwait := hfirst.observe (Step.update (by decide : 100 ≤ 5100) (Nat.le_refl 5100))
  have hsecond := hwait.observe (Step.event (e := .keyboardEnter CText.empty) (Nat.le_refl 5100) (Nat.le_refl 5100))
  exact ⟨_, _, hsecond, rfl, guessing_limited _ _ _ hsecond⟩

end OrangeBox.StateMachine
