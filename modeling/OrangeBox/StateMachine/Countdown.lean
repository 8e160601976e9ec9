import OrangeBox.StateMachine.Reactions
/-!
# Countdowns

The delay after a bad code and the validity of a presence code both run on
while the machine goes through other states. An event leaves such a countdown
as it is, stops it or starts it anew (`Next`); an update also stops it when it
is over. While updates come at least every `2 ^ 31` milliseconds the timestamp
belongs to one moment only, so a countdown that is over stays over (`Known`).
-/
open OrangeBox.PassStore Clock

namespace OrangeBox.StateMachine

variable {W : Type} {dev : Devices W} {m m' : Machine W} {e : BoxEvent} {target : BoxState} {now millis : UInt32}
  {c c' : BoxStateContext}

/-- A timeout that may be running. -/
structure Countdown where
  active : Bool
  startedAt : UInt32
  length : UInt32
  deriving DecidableEq

namespace Countdown

def elapsed (now : UInt32) (d : Countdown) : Bool := !d.active || timeoutElapsed d.startedAt d.length now

/-- The longest countdown, in milliseconds. -/
abbrev longest : Nat := 35000

/-- What a step at `now` does to a countdown. -/
inductive Next (now : UInt32) (starts : Prop) (d d' : Countdown) : Prop
  | kept : d' = d → Next now starts d d'
  | stopped : d'.active = false → Next now starts d d'
  | started : starts → d'.startedAt = now → d'.length.toNat ≤ longest → Next now starts d d'

variable {d d' : Countdown} {starts : Prop} {clock last t : Nat} {P : Nat → Prop}

theorem Next.imp {starts' : Prop} (h : Next now starts d d') (himp : starts → starts') : Next now starts' d d' := by
  cases h with
  | kept h => exact .kept h
  | stopped h => exact .stopped h
  | started hs ht hl => exact .started (himp hs) ht hl

/-- A running countdown started at one moment. It was not over at the last
update, and its end has the property `P`. -/
structure Since (d : Countdown) (clock last : Nat) (P : Nat → Prop) (start : Nat) : Prop where
  startedAt : d.startedAt = stamp start
  length : d.length.toNat ≤ longest
  past : start ≤ clock
  last : last ≤ start + d.length.toNat
  ends : P (start + d.length.toNat)

def Known (d : Countdown) (clock last : Nat) (P : Nat → Prop) : Prop := d.active = true → ∃ start, Since d clock last P start

/-- Until the next update is due, the counter tells whether it is over. -/
theorem Since.elapsed_iff {start : Nat} (h : Since d clock last P start) (ha : d.active = true) (hle : clock ≤ t)
    (ht : t < last + 2 ^ 31) : d.elapsed (stamp t) = true ↔ start + d.length.toNat ≤ t := by
  have hpast := h.past
  have hlast := h.last
  have hlength : d.length.toNat ≤ 35000 := h.length
  unfold elapsed timeoutElapsed
  rw [ha, h.startedAt, Bool.not_true, Bool.false_or, decide_eq_true_iff, UInt32.le_iff_toNat_le,
    toNat_stamp_sub (Nat.le_trans hpast hle)]
  omega

theorem Known.mono {clock' : Nat} (h : Known d clock last P) (hle : clock ≤ clock') : Known d clock' last P := by
  intro ha
  obtain ⟨start, hs⟩ := h ha
  exact ⟨start, hs.startedAt, hs.length, Nat.le_trans hs.past hle, hs.last, hs.ends⟩

/-- An event. -/
theorem Known.event {clock' : Nat} (h : Known d clock last P) (hn : Next (stamp t) starts d d') (hle : clock ≤ t)
    (hle' : t ≤ clock') (hlast : last ≤ t) (hstart : starts → P (t + d'.length.toNat)) : Known d' clock' last P := by
  intro ha
  cases hn with
  | kept he =>
    subst he
    exact h.mono (Nat.le_trans hle hle') ha
  | stopped hstop =>
    rw [hstop] at ha
    contradiction
  | started hs ht hl => exact ⟨t, ht, hl, hle', by omega, hstart hs⟩

/-- An update that leaves a countdown running finds it not over. -/
theorem Known.update {clock' : Nat} (h : Known d clock last P) (hn : Next (stamp t) starts d d')
    (hover : d'.active = true → d' = d → d.elapsed (stamp t) = false) (hle : clock ≤ t) (hle' : t ≤ clock')
    (ht : t < last + 2 ^ 31) (hstart : starts → P (t + d'.length.toNat)) : Known d' clock' t P := by
  intro ha
  cases hn with
  | kept he =>
    have hrun := hover ha he
    subst he
    obtain ⟨start, hs⟩ := h ha
    have hlt : ¬start + d'.length.toNat ≤ t := by
      rw [← hs.elapsed_iff ha hle ht, hrun]
      exact Bool.false_ne_true
    exact ⟨start, hs.startedAt, hs.length, Nat.le_trans hs.past (Nat.le_trans hle hle'), by omega, hs.ends⟩
  | stopped hstop =>
    rw [hstop] at ha
    contradiction
  | started hs hat hl => exact ⟨t, hat, hl, hle', by omega, hstart hs⟩

/-- A countdown that is over ends no later than now. -/
theorem Known.ended (h : Known d clock last P) (hle : clock ≤ t) (ht : t < last + 2 ^ 31) (hover : d.elapsed (stamp t) = true) :
    Known d clock last (· ≤ t) := by
  intro ha
  obtain ⟨start, hs⟩ := h ha
  exact ⟨start, hs.startedAt, hs.length, hs.past, hs.last, (hs.elapsed_iff ha hle ht).1 hover⟩

theorem Known.elapsed {t' : Nat} (h : Known d clock last (· ≤ t)) (hle : clock ≤ t') (ht : t' < last + 2 ^ 31) (htt : t ≤ t') :
    d.elapsed (stamp t') = true := by
  cases ha : d.active with
  | false =>
    unfold Countdown.elapsed
    rw [ha]
    rfl
  | true =>
    obtain ⟨start, hs⟩ := h ha
    exact (hs.elapsed_iff ha hle ht).2 (Nat.le_trans hs.ends htt)

end Countdown

/-! ## The two countdowns -/

/-- The delay after a bad code. -/
def penalty (c : BoxStateContext) : Countdown := ⟨c.badPasswordActive, c.badPasswordStartedAt, c.currentBadPasswordMillis⟩

/-- The validity of the presence code. -/
def presence (c : BoxStateContext) : Countdown := ⟨c.presenceCodeActive, c.presenceCodeStartedAt, presenceCodeMillis⟩

theorem penalty_elapsed (now : UInt32) (c : BoxStateContext) : (penalty c).elapsed now = badPasswordOver now c := rfl

theorem presence_elapsed (now : UInt32) (m : Machine W) : (presence m.context).elapsed now = !isPresenceCodeValid now m := by
  unfold Countdown.elapsed isPresenceCodeValid presence
  rw [Bool.not_and, Bool.not_not]

theorem badPasswordDelay_le (n : UInt8) : (badPasswordDelay n).toNat ≤ Countdown.longest := by
  rw [toNat_badPasswordDelay, Countdown.longest]
  omega

theorem transitionTo_penalty (dev : Devices W) (target : BoxState) (now millis : UInt32) (m : Machine W) :
    Countdown.Next now (target = .badPass ∧ m.context.state ≠ .badPass ∧ badPasswordOver now m.context = true) (penalty m.context)
      (penalty (transitionTo dev target now millis m).context) := by
  by_cases h : m.context.state = target
  · rw [transitionTo_self h.symm]
    exact .kept rfl
  cases target with
  | home => exact .kept (by rw [transitionTo_home _ _ _ h]; rfl)
  | password => exact .stopped (by rw [transitionTo_password _ _ _ h]; rfl)
  | presence =>
    obtain ⟨code, hc⟩ := transitionTo_presence dev now millis h
    exact .kept (by rw [hc]; rfl)
  | opening => exact .kept (by rw [transitionTo_opening _ _ _ h]; rfl)
  | opened => exact .kept (by rw [transitionTo_opened _ _ _ h]; rfl)
  | closed => exact .kept (by rw [transitionTo_closed _ _ _ h]; rfl)
  | external => exact .kept (by rw [transitionTo_external _ _ _ h]; rfl)
  | badPass =>
    rw [transitionTo_badPass _ _ _ h]
    cases hover : badPasswordOver now m.context with
    | true => exact .started ⟨rfl, h, rfl⟩ rfl (badPasswordDelay_le _)
    | false => exact .kept rfl
  | scan => exact .stopped (by rw [transitionTo_scan _ _ _ h]; rfl)

theorem transitionTo_presenceCode (dev : Devices W) (target : BoxState) (now millis : UInt32) (m : Machine W) :
    Countdown.Next now (target = .presence ∧ m.context.state ≠ .presence) (presence m.context)
      (presence (transitionTo dev target now millis m).context) := by
  by_cases h : m.context.state = target
  · rw [transitionTo_self h.symm]
    exact .kept rfl
  cases target with
  | home => exact .kept (by rw [transitionTo_home _ _ _ h]; rfl)
  | password => exact .kept (by rw [transitionTo_password _ _ _ h]; rfl)
  | presence =>
    obtain ⟨code, hc⟩ := transitionTo_presence dev now millis h
    refine .started ⟨rfl, h⟩ (by rw [hc]; rfl) ?_
    change presenceCodeMillis.toNat ≤ 35000
    decide
  | opening => exact .kept (by rw [transitionTo_opening _ _ _ h]; rfl)
  | opened => exact .kept (by rw [transitionTo_opened _ _ _ h]; rfl)
  | closed => exact .kept (by rw [transitionTo_closed _ _ _ h]; rfl)
  | external => exact .kept (by rw [transitionTo_external _ _ _ h]; rfl)
  | badPass =>
    rw [transitionTo_badPass _ _ _ h]
    refine .kept ?_
    split <;> rfl
  | scan => exact .kept (by rw [transitionTo_scan _ _ _ h]; rfl)

/-! ## Events and updates -/

/-- A failed attempt. -/
def Fails (c c' : BoxStateContext) : Prop := (c.state = .password ∨ c.state = .scan) ∧ c'.state = .badPass

/-- A new presence code. -/
def ShowsCode (c c' : BoxStateContext) : Prop := c.state ≠ .presence ∧ c'.state = .presence

theorem processEvent_penalty (dev : Devices W) (e : BoxEvent) (now millis : UInt32) (m : Machine W) :
    Countdown.Next now (Fails m.context (processEvent dev e now millis m).context) (penalty m.context)
      (penalty (processEvent dev e now millis m).context) := by
  obtain ⟨r, target, hr, he⟩ := processEvent_reaction dev e now millis m
  have hsame : penalty r.context = penalty m.context := by
    cases hr with
    | ignored => rw [notice_context]
    | opened => rw [notice_context]
    | closed => rw [notice_context]
    | _ => rfl
  have hover : badPasswordOver now r.context = badPasswordOver now m.context := congrArg (Countdown.elapsed now) hsame
  rw [he, ← hsame]
  refine (transitionTo_penalty dev target now millis r).imp fun hs => ⟨?_, ?_⟩
  · obtain ⟨htarget, hne, hr'⟩ := hs
    rw [hover] at hr'
    rw [hr.state] at hne
    cases hr with
    | ignored => exact absurd htarget hne
    | penalty _ hrun => simp [hr'] at hrun
    | refused hev => exact evaluated_state hev
    | invalidCode hev => exact evaluated_state hev
    | _ => contradiction
  · rw [transitionTo_state]
    exact hs.1

theorem processEvent_presenceCode (dev : Devices W) (e : BoxEvent) (now millis : UInt32) (m : Machine W) :
    Countdown.Next now (ShowsCode m.context (processEvent dev e now millis m).context) (presence m.context)
      (presence (processEvent dev e now millis m).context) := by
  obtain ⟨r, target, hr, he⟩ := processEvent_reaction dev e now millis m
  have hsame : presence r.context = presence m.context := by
    cases hr with
    | ignored => rw [notice_context]
    | opened => rw [notice_context]
    | closed => rw [notice_context]
    | _ => rfl
  rw [he, ← hsame]
  refine (transitionTo_presenceCode dev target now millis r).imp fun hs => ⟨?_, ?_⟩
  · rw [← hr.state]
    exact hs.2
  · rw [transitionTo_state]
    exact hs.1

/-- After a refresh a countdown that still runs is as it was, and not over. -/
theorem refresh_countdowns (dev : Devices W) (now : UInt32) (m : Machine W) :
    ((penalty (refresh dev now m).context).active = true →
      penalty (refresh dev now m).context = penalty m.context ∧ (penalty m.context).elapsed now = false) ∧
    ((presence (refresh dev now m).context).active = true →
      presence (refresh dev now m).context = presence m.context ∧ (presence m.context).elapsed now = false) := by
  obtain ⟨startedAt, due, hr⟩ := refresh_context dev now m
  rw [hr]
  constructor
  · intro ha
    have ha : (m.context.badPasswordActive && !timeoutElapsed m.context.badPasswordStartedAt
        m.context.currentBadPasswordMillis now) = true := ha
    have hsame : m.context.badPasswordActive = true := (Bool.and_eq_true_iff.1 ha).1
    refine ⟨Countdown.mk.injEq .. ▸ ⟨?_, rfl, rfl⟩, ?_⟩
    · exact ha.trans hsame.symm
    · simpa [Countdown.elapsed, penalty] using ha
  · intro ha
    have ha : (m.context.presenceCodeActive && !timeoutElapsed m.context.presenceCodeStartedAt
        presenceCodeMillis now) = true := ha
    have hsame : m.context.presenceCodeActive = true := (Bool.and_eq_true_iff.1 ha).1
    refine ⟨Countdown.mk.injEq .. ▸ ⟨?_, rfl, rfl⟩, ?_⟩
    · exact ha.trans hsame.symm
    · simpa [Countdown.elapsed, presence] using ha

/-- What an update does to a countdown. -/
structure Updates (now : UInt32) (d d' : Countdown) : Prop where
  next : Countdown.Next now False d d'
  running : d'.active = true → d' = d → d.elapsed now = false

theorem update_countdowns (dev : Devices W) (now millis : UInt32) (m : Machine W) :
    Updates now (penalty m.context) (penalty (update dev now millis m).context) ∧
      Updates now (presence m.context) (presence (update dev now millis m).context) := by
  obtain ⟨target, helapse, hu⟩ := update_elapse dev now millis m
  obtain ⟨hpen, hpres⟩ := refresh_countdowns dev now m
  rw [hu]
  have hnotBad : ¬(target = .badPass ∧ (refresh dev now m).context.state ≠ .badPass ∧
      badPasswordOver now (refresh dev now m).context = true) := by
    rintro ⟨rfl, hne, -⟩
    generalize htarget : BoxState.badPass = target at helapse
    cases helapse with
    | stay => exact hne htarget.symm
    | retry => split at htarget <;> contradiction
    | _ => contradiction
  have hnotPresence : ¬(target = .presence ∧ (refresh dev now m).context.state ≠ .presence) := by
    rintro ⟨rfl, hne⟩
    generalize htarget : BoxState.presence = target at helapse
    cases helapse with
    | stay => exact hne htarget.symm
    | retry => split at htarget <;> contradiction
    | _ => contradiction
  have hboth : ∀ {d r d' : Countdown} {starts : Prop}, Countdown.Next now starts r d' → ¬starts →
      (r.active = true → r = d ∧ d.elapsed now = false) → Updates now d d' := by
    intro d r d' starts hnext hnot hr
    cases ha : d'.active with
    | false => exact ⟨.stopped ha, fun h => by simp [ha] at h⟩
    | true =>
      cases hnext with
      | kept he =>
        subst he
        obtain ⟨rfl, hrun⟩ := hr ha
        exact ⟨.kept rfl, fun _ _ => hrun⟩
      | stopped h => simp [ha] at h
      | started hs => exact absurd hs hnot
  exact ⟨hboth (transitionTo_penalty dev target now millis _) hnotBad hpen,
    hboth (transitionTo_presenceCode dev target now millis _) hnotPresence hpres⟩

/-- A countdown of the context, and what starts it. -/
structure Counts (d : BoxStateContext → Countdown) (starts : BoxStateContext → BoxStateContext → Prop) : Prop where
  event : ∀ {W : Type} (dev : Devices W) e now millis m, Countdown.Next now
    (starts m.context (processEvent dev e now millis m).context) (d m.context) (d (processEvent dev e now millis m).context)
  update : ∀ {W : Type} (dev : Devices W) now millis m, Updates now (d m.context) (d (update dev now millis m).context)

theorem penalty_counts : Counts penalty Fails :=
  ⟨processEvent_penalty, fun dev now millis m => (update_countdowns dev now millis m).1⟩

theorem presence_counts : Counts presence ShowsCode :=
  ⟨processEvent_presenceCode, fun dev now millis m => (update_countdowns dev now millis m).2⟩

end OrangeBox.StateMachine
