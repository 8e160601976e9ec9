import OrangeBox.Hal.Agenda
/-!
# The contract of the timers

The slots and the tickets agree (`Sound`), whatever the action handler
schedules and cancels, as long as it does not put a one-shot timer in the slot
that is being handled, and no timer is visited whose stamp lies ahead of the
update's time. Then the contract holds (`contract_holds`).
-/
open Clock Runs

namespace OrangeBox.Hal

/-- The ticket that is being handled. -/
def TimerPhase.handled : TimerPhase → Option Nat
  | .handling _ _ _ ticket => some ticket
  | _ => none

/-- The time of an update, the slot it visits next, and the tickets when it began. -/
def TimerPhase.loop : TimerPhase → Option (Nat × Nat × Nat)
  | .outside => none
  | .visiting now i before => some (now, i, before)
  | .handling now i before _ => some (now, i + 1, before)

/-- The timer is due and nothing has become of it yet. -/
structure Ticket.Overdue (now : Nat) (x : Ticket) : Prop where
  oneShot : x.repeats = false
  due : x.due now
  notInvoked : x.invocations = []
  live : x.cancelled = none

theorem Ticket.Correct.new (t : Nat) (interval : UInt32) (repeats : Bool) :
    Ticket.Correct ⟨t, interval, repeats, [], none⟩ where
  once _ := Nat.zero_le 1
  notEarly _ _ h := by cases h
  spaced _ := .nil
  cancelled _ h := by cases h

/-- A timer that was not cancelled before. -/
theorem Ticket.Correct.struck {x : Ticket} (h : x.Correct) : x.struck.Correct where
  once := h.once
  notEarly := h.notEarly
  spaced := h.spaced
  cancelled _ hn := Option.some.inj hn

namespace Agenda

variable {a a' : Agenda} {i j slot : Fin maxTimers} {ticket now t before : Nat} {deed : TimerDeed} {deeds : List TimerDeed}
  {interval : UInt32} {repeats : Bool}

def Active (i : Fin maxTimers) (a : Agenda) : Prop := (a.manager.timers i).active = true

/-- The ticket of the timer in a slot. -/
def ticketAt (i : Fin maxTimers) (a : Agenda) : Ticket := a.tickets (a.holder i)

/-- A timer agrees with its ticket. -/
structure Filled (i : Fin maxTimers) (a : Agenda) : Prop where
  issued : a.holder i < a.issued
  startedAt : (a.manager.timers i).startedAt = stamp (a.since i)
  interval : (a.manager.timers i).interval = (a.ticketAt i).interval
  repeats : (a.manager.timers i).repeats = (a.ticketAt i).repeats
  live : (a.ticketAt i).cancelled = none

/-- A one-shot timer has not been invoked; a repeating one was stamped when it
was invoked last. -/
structure Waiting (i : Fin maxTimers) (a : Agenda) : Prop where
  oneShot : (a.ticketAt i).repeats = false → (a.ticketAt i).invocations = [] ∧ a.since i = (a.ticketAt i).start
  repeating : ∀ now, (a.ticketAt i).repeats = true → (a.ticketAt i).invocations.head? = some now → a.since i = now

theorem Waiting.congr (h : a.Waiting i) (hticket : a'.ticketAt i = a.ticketAt i) (hsince : a'.since i = a.since i) :
    a'.Waiting i where
  oneShot := by
    rw [hticket, hsince]
    exact h.oneShot
  repeating := by
    rw [hticket, hsince]
    exact h.repeating

theorem Filled.congr (h : a.Filled i) (htimer : a'.manager.timers i = a.manager.timers i) (hholder : a'.holder i = a.holder i)
    (hissued : a.issued ≤ a'.issued) (hticket : a'.ticketAt i = a.ticketAt i) (hsince : a'.since i = a.since i) : a'.Filled i where
  issued := by
    rw [hholder]
    exact Nat.lt_of_lt_of_le h.issued hissued
  startedAt := by rw [htimer, hsince, h.startedAt]
  interval := by rw [htimer, hticket, h.interval]
  repeats := by rw [htimer, hticket, h.repeats]
  live := by rw [hticket, h.live]

/-- While the action handler runs, its slot has the timer that was invoked, none, or a new one. -/
structure Handling (now : Nat) (i : Fin maxTimers) (ticket : Nat) (a : Agenda) : Prop where
  issued : ticket < a.issued
  invoked : (a.tickets ticket).invocations.head? = some now
  only : ∀ j, a.Active j → j ≠ i → a.holder j ≠ ticket
  fresh : a.Active i → a.holder i ≠ ticket → (a.ticketAt i).invocations = []

structure Sound (a : Agenda) : Prop where
  filled : ∀ i, a.Active i → a.Filled i
  apart : ∀ i j, a.Active i → a.Active j → a.holder i = a.holder j → i = j
  waiting : ∀ i, a.Active i → a.phase.handled ≠ some (a.holder i) → a.Waiting i
  handling : ∀ now i before ticket, a.phase = .handling now i before ticket → a.Handling now i ticket
  loop : ∀ now i before, a.phase.loop = some (now, i, before) → before ≤ a.issued ∧
    ∀ ticket < before, (a.tickets ticket).Overdue now → ∃ j, a.Active j ∧ i ≤ j.val ∧ a.holder j = ticket
  finished : ∀ update ∈ a.finished, update.2 ≤ a.issued
  contract : a.Contract

theorem Sound.started (t : Nat) : (started t).Sound where
  filled _ h := by cases h
  apart _ _ h := by cases h
  waiting _ h := by cases h
  handling _ _ _ _ h := by cases h
  loop _ _ _ h := by cases h
  finished _ h := by cases h
  contract :=
    { correct := fun _ h => absurd h (Nat.not_lt_zero _)
      served := fun _ h => by cases h
      kept := fun _ h => absurd h (Nat.not_lt_zero _) }

/-! ## Scheduling -/

section Issue

/-- The agenda after a timer was put in a free slot. -/
def scheduled (slot : Fin maxTimers) (interval : UInt32) (repeats : Bool) (timer : Timer) (t : Nat) (a : Agenda) : Agenda :=
  { a.issue slot interval repeats t with manager := a.manager.put slot timer, clock := t }

variable {timer : Timer}

theorem scheduled_tickets_old (h : ticket < a.issued) :
    (a.scheduled slot interval repeats timer t).tickets ticket = a.tickets ticket :=
  Function.update_of_ne (Nat.ne_of_lt h) ..

theorem scheduled_tickets_new :
    (a.scheduled slot interval repeats timer t).tickets a.issued = ⟨t, interval, repeats, [], none⟩ :=
  Function.update_self ..

theorem scheduled_active (h : i ≠ slot) : (a.scheduled slot interval repeats timer t).Active i ↔ a.Active i := by
  unfold Active
  change ((a.manager.put slot timer).timers i).active = true ↔ _
  rw [TimerManager.put_timers_of_ne h]

theorem scheduled_holder (h : i ≠ slot) : (a.scheduled slot interval repeats timer t).holder i = a.holder i :=
  Function.update_of_ne h ..

theorem scheduled_holder_self : (a.scheduled slot interval repeats timer t).holder slot = a.issued :=
  Function.update_self ..

theorem scheduled_since (h : i ≠ slot) : (a.scheduled slot interval repeats timer t).since i = a.since i :=
  Function.update_of_ne h ..

theorem scheduled_timers (h : i ≠ slot) :
    (a.scheduled slot interval repeats timer t).manager.timers i = a.manager.timers i :=
  TimerManager.put_timers_of_ne h ..

/-- The timers in other slots have their tickets as before. -/
theorem Filled.scheduled_ticketAt (h : a.Filled i) (hne : i ≠ slot) :
    (a.scheduled slot interval repeats timer t).ticketAt i = a.ticketAt i := by
  unfold ticketAt
  rw [scheduled_holder hne, scheduled_tickets_old h.issued]

/-- What holds of the tickets holds of them after another timer was scheduled. -/
theorem Contract.scheduled (h : a.Contract) (hfree : ¬a.Active slot) (hactive : timer.active = true)
    (hfinished : ∀ update ∈ a.finished, update.2 ≤ a.issued) : (a.scheduled slot interval repeats timer t).Contract where
  correct ticket hissued := by
    rcases Nat.lt_succ_iff_lt_or_eq.1 hissued with hold | rfl
    · rw [scheduled_tickets_old hold]
      exact h.correct ticket hold
    · rw [scheduled_tickets_new]
      exact .new t interval repeats
  served update hmem ticket hlt := by
    rw [scheduled_tickets_old (Nat.lt_of_lt_of_le hlt (hfinished update hmem))]
    exact h.served update hmem ticket hlt
  kept ticket hissued := by
    rcases Nat.lt_succ_iff_lt_or_eq.1 hissued with hold | rfl
    · rw [scheduled_tickets_old hold]
      intro hlive hrun
      obtain ⟨i, hi, hholder⟩ := h.kept ticket hold hlive hrun
      have hne : i ≠ slot := fun heq => hfree (heq ▸ hi)
      exact ⟨i, (scheduled_active hne).2 hi, (scheduled_holder hne).trans hholder⟩
    · intro _ _
      refine ⟨slot, ?_, scheduled_holder_self⟩
      change ((a.manager.put slot timer).timers slot).active = true
      rw [TimerManager.put_timers_self, hactive]

theorem Sound.scheduled (h : a.Sound) (hfree : ¬a.Active slot) (htimer : timer.active = true ∧ timer.startedAt = stamp t ∧
    timer.interval = interval ∧ timer.repeats = repeats) : (a.scheduled slot interval repeats timer t).Sound := by
  have hself : (a.scheduled slot interval repeats timer t).ticketAt slot = ⟨t, interval, repeats, [], none⟩ := by
    unfold ticketAt
    rw [scheduled_holder_self, scheduled_tickets_new]
  have hsince : (a.scheduled slot interval repeats timer t).since slot = t := Function.update_self ..
  have htimers : (a.scheduled slot interval repeats timer t).manager.timers slot = timer := TimerManager.put_timers_self ..
  have hother : ∀ {i}, (a.scheduled slot interval repeats timer t).Active i → i = slot ∨ i ≠ slot ∧ a.Active i := fun {i} hi => by
    by_cases heq : i = slot
    · exact .inl heq
    · exact .inr ⟨heq, (scheduled_active heq).1 hi⟩
  refine ⟨fun i hi => ?_, fun i j hi hj heq => ?_, fun i hi hhandled => ?_, fun now i before ticket hphase => ?_,
    fun now i before hloop => ?_, fun update hmem => Nat.le_succ_of_le (h.finished update hmem),
    h.contract.scheduled hfree htimer.1 h.finished⟩
  · -- The slot holds the new ticket, the other slots hold what they held.
    rcases hother hi with rfl | ⟨hne, hold⟩
    · refine ⟨?_, ?_, ?_, ?_, ?_⟩
      · rw [scheduled_holder_self]
        exact Nat.lt_succ_self _
      · rw [htimers, hsince, htimer.2.1]
      · rw [htimers, hself, htimer.2.2.1]
      · rw [htimers, hself, htimer.2.2.2]
      · rw [hself]
    · have hfilled := h.filled i hold
      exact hfilled.congr (scheduled_timers hne) (scheduled_holder hne) (Nat.le_succ _) (hfilled.scheduled_ticketAt hne)
        (scheduled_since hne)
  · -- The new ticket is none of the old ones.
    rcases hother hi with rfl | ⟨hine, hi'⟩ <;> rcases hother hj with rfl | ⟨hjne, hj'⟩
    · rfl
    · rw [scheduled_holder_self, scheduled_holder hjne] at heq
      exact absurd heq.symm (Nat.ne_of_lt (h.filled j hj').issued)
    · rw [scheduled_holder_self, scheduled_holder hine] at heq
      exact absurd heq (Nat.ne_of_lt (h.filled i hi').issued)
    · rw [scheduled_holder hine, scheduled_holder hjne] at heq
      exact h.apart i j hi' hj' heq
  · -- The new timer waits its first interval from now.
    rcases hother hi with rfl | ⟨hne, hold⟩
    · constructor
      · intro _
        rw [hself, hsince]
        exact ⟨rfl, rfl⟩
      · intro _ _ hhead
        rw [hself] at hhead
        cases hhead
    · rw [scheduled_holder hne] at hhandled
      exact (h.waiting i hold hhandled).congr ((h.filled i hold).scheduled_ticketAt hne) (scheduled_since hne)
  · -- Scheduled from a handler: the ticket in hand is an older one.
    have hhand := h.handling now i before ticket hphase
    refine ⟨Nat.lt_succ_of_lt hhand.issued, ?_, fun j hj hne => ?_, fun hi hne => ?_⟩
    · rw [scheduled_tickets_old hhand.issued]
      exact hhand.invoked
    · rcases hother hj with rfl | ⟨hjne, hj⟩
      · rw [scheduled_holder_self]
        exact Nat.ne_of_gt hhand.issued
      · rw [scheduled_holder hjne]
        exact hhand.only j hj hne
    · rcases hother hi with rfl | ⟨hine, hi⟩
      · rw [hself]
      · rw [scheduled_holder hine] at hne
        rw [(h.filled i hi).scheduled_ticketAt hine]
        exact hhand.fresh hi hne
  · -- The update under way began before this ticket, so it owes it nothing.
    obtain ⟨hbefore, hdue⟩ := h.loop now i before hloop
    refine ⟨Nat.le_succ_of_le hbefore, fun ticket hlt hover => ?_⟩
    rw [scheduled_tickets_old (Nat.lt_of_lt_of_le hlt hbefore)] at hover
    obtain ⟨j, hj, hij, hholder⟩ := hdue ticket hlt hover
    have hne : j ≠ slot := fun heq => hfree (heq ▸ hj)
    exact ⟨j, (scheduled_active hne).2 hj, hij, (scheduled_holder hne).trans hholder⟩

end Issue

/-! ## Cancelling -/

section Cancel

/-- The agenda after the timer in a slot was cancelled. -/
def cancelled (slot : Fin maxTimers) (t : Nat) (a : Agenda) : Agenda :=
  { a.note (a.holder slot) .struck with
    manager := a.manager.put slot { a.manager.timers slot with active := false }, clock := t }

theorem cancelled_tickets_self : (a.cancelled slot t).tickets (a.holder slot) = (a.ticketAt slot).struck :=
  Function.update_self ..

theorem cancelled_tickets_other (h : ticket ≠ a.holder slot) : (a.cancelled slot t).tickets ticket = a.tickets ticket :=
  Function.update_of_ne h ..

theorem cancelled_invocations (ticket : Nat) :
    ((a.cancelled slot t).tickets ticket).invocations = (a.tickets ticket).invocations := by
  by_cases heq : ticket = a.holder slot
  · rw [heq, cancelled_tickets_self]
    rfl
  · rw [cancelled_tickets_other heq]

theorem cancelled_active : (a.cancelled slot t).Active i ↔ i ≠ slot ∧ a.Active i := by
  unfold Active
  change ((a.manager.put slot _).timers i).active = true ↔ _
  by_cases heq : i = slot
  · subst heq
    rw [TimerManager.put_timers_self]
    simp
  · rw [TimerManager.put_timers_of_ne heq]
    simp [heq]

theorem cancelled_timers (h : i ≠ slot) : (a.cancelled slot t).manager.timers i = a.manager.timers i :=
  TimerManager.put_timers_of_ne h ..

theorem Contract.cancelled (h : a.Contract) : (a.cancelled slot t).Contract where
  correct ticket hissued := by
    have hcorrect := h.correct ticket hissued
    by_cases heq : ticket = a.holder slot
    · subst heq
      rw [cancelled_tickets_self]
      exact hcorrect.struck
    · rw [cancelled_tickets_other heq]
      exact hcorrect
  served update hmem ticket hlt := by
    by_cases heq : ticket = a.holder slot
    · subst heq
      rw [cancelled_tickets_self]
      exact fun _ _ => .inr (Option.some_ne_none _)
    · rw [cancelled_tickets_other heq]
      exact h.served update hmem ticket hlt
  kept ticket hissued := by
    by_cases heq : ticket = a.holder slot
    · subst heq
      rw [cancelled_tickets_self]
      exact fun hnone => absurd hnone (Option.some_ne_none _)
    · rw [cancelled_tickets_other heq]
      intro hnone hrun
      obtain ⟨i, hi, hholder⟩ := h.kept ticket hissued hnone hrun
      have hne : i ≠ slot := fun he => heq (by rw [← hholder, he])
      exact ⟨i, cancelled_active.2 ⟨hne, hi⟩, hholder⟩

theorem Sound.cancelled (h : a.Sound) (hactive : a.Active slot) : (a.cancelled slot t).Sound := by
  have hsame : ∀ {i}, i ≠ slot → a.Active i → (a.cancelled slot t).ticketAt i = a.ticketAt i := fun {i} hne hi =>
    cancelled_tickets_other fun heq => hne (h.apart i slot hi hactive heq)
  refine ⟨fun i hi => ?_, fun i j hi hj heq => ?_, fun i hi hhandled => ?_, fun now i before ticket hphase => ?_,
    fun now i before hloop => ?_, h.finished, h.contract.cancelled⟩
  · obtain ⟨hne, hi⟩ := cancelled_active.1 hi
    exact (h.filled i hi).congr (cancelled_timers hne) rfl (Nat.le_refl _) (hsame hne hi) rfl
  · exact h.apart i j (cancelled_active.1 hi).2 (cancelled_active.1 hj).2 heq
  · obtain ⟨hne, hi⟩ := cancelled_active.1 hi
    exact (h.waiting i hi hhandled).congr (hsame hne hi) rfl
  · have hhand := h.handling now i before ticket hphase
    refine ⟨hhand.issued, ?_, fun j hj => hhand.only j (cancelled_active.1 hj).2, fun hi hne => ?_⟩
    · rw [cancelled_invocations]
      exact hhand.invoked
    · rw [ticketAt, cancelled_invocations]
      exact hhand.fresh (cancelled_active.1 hi).2 hne
  · obtain ⟨hbefore, hdue⟩ := h.loop now i before hloop
    refine ⟨hbefore, fun ticket hlt hover => ?_⟩
    by_cases heq : ticket = a.holder slot
    · subst heq
      have hlive := hover.live
      rw [cancelled_tickets_self] at hlive
      cases hlive
    · rw [cancelled_tickets_other heq] at hover
      obtain ⟨j, hj, hij, hholder⟩ := hdue ticket hlt hover
      have hne : j ≠ slot := fun he => heq (by rw [← hholder, he])
      exact ⟨j, cancelled_active.2 ⟨hne, hj⟩, hij, hholder⟩

end Cancel

/-! ## Visiting -/

/-- A one-shot timer that is visited was not stamped after the time of the update
or a whole turn of the counter before, and a repeating one was not invoked by
an update with a later time; or it does not read as due. -/
structure Readable (now : Nat) (i : Fin maxTimers) (a : Agenda) : Prop where
  oneShot : (a.manager.timers i).repeats = false →
    a.since i ≤ now ∧ now < a.since i + 2 ^ 32 ∨ now < a.since i ∧ a.manager.due (stamp now) i = false
  repeating : (a.manager.timers i).repeats = true → (a.ticketAt i).invocations ≠ [] →
    a.since i ≤ now ∨ a.manager.due (stamp now) i = false

theorem due_iff : a.manager.due (stamp now) i = true ↔
    a.Active i ∧ timeoutElapsed (a.manager.timers i).startedAt (a.manager.timers i).interval (stamp now) = true := by
  unfold TimerManager.due Active
  rw [Bool.and_eq_true]

/-- A one-shot timer is invoked when it is due, and only then. -/
theorem Sound.due_of_invoked (h : a.Sound) (hnone : a.phase.handled = none) (hread : a.Active i → a.Readable now i)
    (hdue : a.manager.due (stamp now) i = true) (hone : (a.ticketAt i).repeats = false) : (a.ticketAt i).due now := by
  obtain ⟨hactive, helapsed⟩ := due_iff.1 hdue
  have hfilled := h.filled i hactive
  obtain ⟨-, hstart⟩ := (h.waiting i hactive (by simp [hnone])).oneShot hone
  rcases (hread hactive).oneShot (hfilled.repeats.trans hone) with ⟨hpast, -⟩ | ⟨-, hnot⟩
  · rw [hfilled.startedAt, hfilled.interval] at helapsed
    have := le_of_timeoutElapsed hpast helapsed
    unfold Ticket.due
    omega
  · rw [hnot] at hdue
    cases hdue

theorem Sound.due_of_overdue (h : a.Sound) (hnone : a.phase.handled = none) (hactive : a.Active i)
    (hread : a.Readable now i) (hover : (a.ticketAt i).Overdue now) : a.manager.due (stamp now) i = true := by
  have hfilled := h.filled i hactive
  obtain ⟨-, hstart⟩ := (h.waiting i hactive (by simp [hnone])).oneShot hover.oneShot
  have hdue := hover.due
  unfold Ticket.due at hdue
  rcases hread.oneShot (hfilled.repeats.trans hover.oneShot) with ⟨hpast, hturn⟩ | ⟨hahead, -⟩
  · refine due_iff.2 ⟨hactive, ?_⟩
    rw [hfilled.startedAt, hfilled.interval]
    exact timeoutElapsed_of_le (by omega) (by omega)
  · omega

theorem note_tickets_self (f : Ticket → Ticket) : (a.note ticket f).tickets ticket = f (a.tickets ticket) :=
  Function.update_self ..

theorem note_tickets_other {other : Nat} (h : other ≠ ticket) (f : Ticket → Ticket) :
    (a.note ticket f).tickets other = a.tickets other := Function.update_of_ne h ..

/-- Everything but the invocations stays in a ticket. -/
theorem invoked_eq (a : Agenda) (ticket now other : Nat) : ((a.note ticket (.invoked now)).tickets other).interval = (a.tickets other).interval ∧
    ((a.note ticket (.invoked now)).tickets other).repeats = (a.tickets other).repeats ∧
    ((a.note ticket (.invoked now)).tickets other).cancelled = (a.tickets other).cancelled := by
  by_cases heq : other = ticket
  · subst heq
    rw [note_tickets_self]
    exact ⟨rfl, rfl, rfl⟩
  · rw [note_tickets_other heq]
    exact ⟨rfl, rfl, rfl⟩

theorem Sound.invoked_correct (h : a.Sound) (hnone : a.phase.handled = none) (hread : a.Active i → a.Readable now i)
    (hdue : a.manager.due (stamp now) i = true) : ((a.ticketAt i).invoked now).Correct := by
  obtain ⟨hactive, helapsed⟩ := due_iff.1 hdue
  have hfilled := h.filled i hactive
  have hwait := h.waiting i hactive (by simp [hnone])
  constructor
  · intro hone
    change ((now :: (a.ticketAt i).invocations)).length ≤ 1
    rw [(hwait.oneShot hone).1]
    exact Nat.le_refl 1
  · intro hone n hn
    change n ∈ now :: (a.ticketAt i).invocations at hn
    rw [(hwait.oneShot hone).1, List.mem_singleton] at hn
    subst hn
    exact h.due_of_invoked hnone hread hdue hone
  · intro hrep
    have hrep : (a.ticketAt i).repeats = true := hrep
    change List.IsChain _ (now :: (a.ticketAt i).invocations)
    have hold := (h.contract.correct _ hfilled.issued).spaced hrep
    cases hinv : (a.ticketAt i).invocations with
    | nil => exact .singleton now
    | cons last rest =>
      -- The timer was stamped with the time of the last invocation.
      have hlast : a.since i = last := hwait.repeating last hrep (by rw [hinv]; rfl)
      have hpast := ((hread hactive).repeating (hfilled.repeats.trans hrep) (by rw [hinv]; simp)).resolve_right (by simp [hdue])
      rw [hfilled.startedAt, hfilled.interval, hlast] at helapsed
      rw [hlast] at hpast
      refine List.isChain_cons_cons.2 ⟨le_of_timeoutElapsed hpast helapsed, ?_⟩
      rw [← hinv]
      exact hold
  · intro n hcancelled
    cases hfilled.live.symm.trans hcancelled

/-- The timer in the slot is invoked. -/
theorem Sound.invoke (h : a.Sound) {i : Fin maxTimers} (hphase : a.phase = .visiting now i before)
    (hread : a.Active i → a.Readable now i) (hdue : a.manager.due (stamp now) i = true) :
    Sound { a.note (a.holder i) (.invoked now) with phase := .handling now i before (a.holder i) } := by
  have hactive := (due_iff.1 hdue).1
  have hnone : a.phase.handled = none := by rw [hphase]; rfl
  have hother : ∀ {other}, other ≠ a.holder i → (a.note (a.holder i) (.invoked now)).tickets other = a.tickets other :=
    fun hne => note_tickets_other hne _
  refine ⟨fun j hj => ?_, h.apart, fun j hj hhandled => ?_, fun n k b ticket hp => ?_, fun n k b hloop => ?_, h.finished,
    fun ticket hissued => ?_, fun update hmem ticket hlt => ?_, fun ticket hissued => ?_⟩
  · have hfilled := h.filled j hj
    obtain ⟨hinterval, hrepeats, hcancelled⟩ := invoked_eq a (a.holder i) now (a.holder j)
    exact ⟨hfilled.issued, hfilled.startedAt, hfilled.interval.trans hinterval.symm, hfilled.repeats.trans hrepeats.symm,
      hcancelled.trans hfilled.live⟩
  · have hne : a.holder j ≠ a.holder i := fun heq => hhandled (congrArg some heq.symm)
    exact (h.waiting j hj (by simp [hnone])).congr (hother hne) rfl
  · cases hp
    refine ⟨(h.filled i hactive).issued, ?_, fun j hj hne heq => hne (h.apart j i hj hactive heq), fun _ hne => absurd rfl hne⟩
    rw [note_tickets_self]
    rfl
  · -- The update has now served this ticket; the others it owes lie further on.
    cases hloop
    obtain ⟨hbefore, hwaits⟩ := h.loop now i before (by rw [hphase]; rfl)
    refine ⟨hbefore, fun ticket hlt hover => ?_⟩
    by_cases heq : ticket = a.holder i
    · subst heq
      have hnot := hover.notInvoked
      rw [note_tickets_self] at hnot
      cases hnot
    · rw [hother heq] at hover
      obtain ⟨j, hj, hij, hholder⟩ := hwaits ticket hlt hover
      have hne : (i : Nat) ≠ j := fun he => heq (by rw [← hholder, Fin.ext he])
      exact ⟨j, hj, by omega, hholder⟩
  · by_cases heq : ticket = a.holder i
    · subst heq
      rw [note_tickets_self]
      exact h.invoked_correct hnone hread hdue
    · rw [hother heq]
      exact h.contract.correct ticket hissued
  · by_cases heq : ticket = a.holder i
    · subst heq
      rw [note_tickets_self]
      exact fun _ _ => .inl (List.cons_ne_nil _ _)
    · rw [hother heq]
      exact h.contract.served update hmem ticket hlt
  · by_cases heq : ticket = a.holder i
    · exact fun _ _ => ⟨i, hactive, heq.symm⟩
    · rw [hother heq]
      exact h.contract.kept ticket hissued

/-- An update goes on, begins or ends. -/
theorem Sound.rephase (h : a.Sound) {phase : TimerPhase} {finished : List (Nat × Nat)} (hold : a.phase.handled = none)
    (hnew : phase.handled = none) (hloop : ∀ now i before, phase.loop = some (now, i, before) → before ≤ a.issued ∧
      ∀ ticket < before, (a.tickets ticket).Overdue now → ∃ j, a.Active j ∧ i ≤ j.val ∧ a.holder j = ticket)
    (hfinished : ∀ update ∈ finished, update.2 ≤ a.issued ∧ ∀ ticket < update.2, ¬(a.tickets ticket).Overdue update.1) :
    Sound { a with phase := phase, clock := t, finished := finished } where
  filled i hi := (h.filled i hi).congr rfl rfl (Nat.le_refl _) rfl rfl
  apart := h.apart
  waiting i hi _ := (h.waiting i hi (by simp [hold])).congr rfl rfl
  handling now i before ticket hp := by
    change phase = _ at hp
    rw [hp] at hnew
    cases hnew
  loop := hloop
  finished update hmem := (hfinished update hmem).1
  contract :=
    { correct := h.contract.correct
      served := fun update hmem ticket hlt hone hdue => by
        by_contra hnot
        push Not at hnot
        exact (hfinished update hmem).2 ticket hlt ⟨hone, hdue, hnot.1, hnot.2⟩
      kept := h.contract.kept }

/-- The updates that have returned have left nothing. -/
theorem Sound.cleared (h : a.Sound) {update : Nat × Nat} (hmem : update ∈ a.finished) :
    update.2 ≤ a.issued ∧ ∀ ticket < update.2, ¬(a.tickets ticket).Overdue update.1 := by
  refine ⟨h.finished update hmem, fun ticket hlt hover => ?_⟩
  rcases h.contract.served update hmem ticket hlt hover.oneShot hover.due with hinvoked | hcancelled
  · exact hinvoked hover.notInvoked
  · exact hcancelled hover.live

/-- A slot is passed over. -/
theorem Sound.skip (h : a.Sound) {i : Fin maxTimers} (hphase : a.phase = .visiting now i before)
    (hread : a.Active i → a.Readable now i) (hdue : a.manager.due (stamp now) i = false) :
    Sound { a with phase := .visiting now (i + 1) before } := by
  have hnone : a.phase.handled = none := by rw [hphase]; rfl
  refine h.rephase hnone rfl (fun n k b hloop => ?_) fun update => h.cleared
  cases hloop
  obtain ⟨hbefore, hwaits⟩ := h.loop now i before (by rw [hphase]; rfl)
  refine ⟨hbefore, fun ticket hlt hover => ?_⟩
  obtain ⟨j, hj, hij, rfl⟩ := hwaits ticket hlt hover
  have hne : (i : Nat) ≠ j := fun he => by
    obtain rfl := Fin.ext he
    rw [h.due_of_overdue hnone hj (hread hj) hover] at hdue
    cases hdue
  exact ⟨j, hj, by omega, rfl⟩

/-! ## The end of an update -/

theorem finish_active (now : UInt32) (i j : Fin maxTimers) (tm : TimerManager) : ((tm.finish now i).timers j).active = true ↔
    (tm.timers j).active = true ∧ (j = i → (tm.timers i).repeats = true) := by
  by_cases heq : j = i
  · subst heq
    unfold TimerManager.finish
    split
    · rename_i hrep
      simp [hrep]
    · rename_i hrep
      simp [hrep]
  · rw [TimerManager.finish_keeps heq]
    simp [heq]

/-- A repeating timer starts over. -/
theorem finish_repeats {tm : TimerManager} {i : Fin maxTimers} (h : (tm.timers i).repeats = true) (now : UInt32) :
    (tm.finish now i).timers i = { tm.timers i with startedAt := now } := by
  unfold TimerManager.finish
  rw [if_pos h, TimerManager.put_timers_self]

theorem since_other {i j : Fin maxTimers} (hne : j ≠ i) (repeats : Bool) (since : Fin maxTimers → Nat) (now : Nat) :
    (if repeats then Function.update since i now else since) j = since j := by
  split
  · exact Function.update_of_ne hne ..
  · rfl

/-- The handler returns. -/
theorem Sound.handled (h : a.Sound) {i : Fin maxTimers} (hphase : a.phase = .handling now i before ticket)
    (hslot : a.Active i → a.holder i = ticket ∨ (a.manager.timers i).repeats = true) :
    Sound
      { a with
        manager := a.manager.finish (stamp now) i
        since := if (a.manager.timers i).repeats then Function.update a.since i now else a.since
        phase := .visiting now (i + 1) before } := by
  have hhand := h.handling now i before ticket hphase
  refine ⟨fun j hj => ?_, fun j k hj hk heq => ?_, fun j hj _ => ?_, nofun, fun n k b hloop => ?_,
    h.finished, h.contract.correct, h.contract.served, fun other hissued hlive hrun => ?_⟩
  · obtain ⟨hj, hself⟩ := (finish_active ..).1 hj
    have hfilled := h.filled j hj
    by_cases heq : j = i
    · have hrep := hself heq
      subst heq
      refine ⟨hfilled.issued, ?_, ?_, ?_, hfilled.live⟩
      · rw [finish_repeats hrep]
        simp only [hrep, if_true, Function.update_self]
      · rw [finish_repeats hrep]
        exact hfilled.interval
      · rw [finish_repeats hrep]
        exact hfilled.repeats
    · refine ⟨hfilled.issued, ?_, ?_, ?_, hfilled.live⟩
      · rw [TimerManager.finish_keeps heq, hfilled.startedAt]
        exact congrArg stamp (since_other heq _ _ _).symm
      · rw [TimerManager.finish_keeps heq]
        exact hfilled.interval
      · rw [TimerManager.finish_keeps heq]
        exact hfilled.repeats
  · exact h.apart j k ((finish_active ..).1 hj).1 ((finish_active ..).1 hk).1 heq
  · obtain ⟨hactive, hself⟩ := (finish_active ..).1 hj
    by_cases heq : j = i
    · have hrep := hself heq
      subst heq
      constructor
      · intro hone
        cases hone.symm.trans ((h.filled j hactive).repeats.symm.trans hrep)
      · intro n _ hhead
        simp only [hrep, if_true, Function.update_self]
        by_cases hsame : a.holder j = ticket
        · unfold ticketAt at hhead
          rw [hsame, hhand.invoked] at hhead
          exact Option.some.inj hhead
        · -- A timer the handler has put there was not invoked yet.
          have hnil := hhand.fresh hactive hsame
          change (a.ticketAt j).invocations.head? = _ at hhead
          rw [hnil] at hhead
          cases hhead
    · have hwait := h.waiting j hactive (by
        rw [hphase]
        exact fun he => hhand.only j hactive heq (Option.some.inj he).symm)
      exact hwait.congr rfl (since_other heq _ _ _)
  · cases hloop
    obtain ⟨hbefore, hwaits⟩ := h.loop now (i + 1) before (by rw [hphase]; rfl)
    refine ⟨hbefore, fun other hlt hover => ?_⟩
    obtain ⟨j, hj, hij, hholder⟩ := hwaits other hlt hover
    exact ⟨j, (finish_active ..).2 ⟨hj, fun he => by subst he; omega⟩, hij, hholder⟩
  · obtain ⟨j, hj, hholder⟩ := h.contract.kept other hissued hlive hrun
    refine ⟨j, (finish_active ..).2 ⟨hj, fun he => ?_⟩, hholder⟩
    subst he
    -- A one-shot timer in the slot is the one that was invoked.
    refine (hslot hj).elim (fun hsame => ?_) id
    rw [(h.filled j hj).repeats]
    have hticket : other = ticket := hholder.symm.trans hsame
    have hcalled : (a.tickets other).invocations ≠ [] := fun hnil => by
      have hhead := hhand.invoked
      rw [← hticket, hnil] at hhead
      cases hhead
    unfold ticketAt
    rw [hholder]
    exact hrun.resolve_right hcalled

/-- An update begins. -/
theorem Sound.begin (h : a.Sound) (hphase : a.phase = .outside) (now t : Nat) :
    Sound { a with phase := .visiting now 0 a.issued, clock := t } := by
  refine h.rephase (by rw [hphase]; rfl) rfl (fun n k b hloop => ?_) fun update => h.cleared
  cases hloop
  refine ⟨Nat.le_refl _, fun ticket hlt hover => ?_⟩
  obtain ⟨j, hj, hholder⟩ := h.contract.kept ticket hlt hover.live (.inr hover.notInvoked)
  exact ⟨j, hj, Nat.zero_le _, hholder⟩

/-- An update has visited all slots. -/
theorem Sound.done (h : a.Sound) {i : Nat} (hphase : a.phase = .visiting now i before) (hall : maxTimers ≤ i) :
    Sound { a with phase := .outside, finished := (now, before) :: a.finished } := by
  obtain ⟨hbefore, hwaits⟩ := h.loop now i before (by rw [hphase]; rfl)
  refine h.rephase (by rw [hphase]; rfl) rfl nofun fun update hmem => ?_
  rcases List.mem_cons.1 hmem with rfl | hmem
  · refine ⟨hbefore, fun ticket hlt hover => ?_⟩
    obtain ⟨j, -, hij, -⟩ := hwaits ticket hlt hover
    have := j.isLt
    omega
  · exact h.cleared hmem

/-! ## Runs -/

/-- Visited timers are readable, and a handler that returns leaves no other
one-shot timer in its slot. -/
structure Undisturbed (a : Agenda) (deed : TimerDeed) (_ : Agenda) : Prop where
  readable : ∀ now (i : Fin maxTimers) before, deed = .visit → a.phase = .visiting now i before → a.Active i → a.Readable now i
  slot : ∀ now i before ticket, deed = .handled → a.phase = .handling now i before ticket → a.Active i →
    a.holder i = ticket ∨ (a.manager.timers i).repeats = true

/-- Time passes. -/
theorem Sound.tick (h : a.Sound) (t : Nat) : Sound { a with clock := t } where
  filled i hi := (h.filled i hi).congr rfl rfl (Nat.le_refl _) rfl rfl
  apart := h.apart
  waiting i hi hhandled := (h.waiting i hi hhandled).congr rfl rfl
  handling now i before ticket hphase := by
    obtain ⟨hissued, hinvoked, honly, hfresh⟩ := h.handling now i before ticket hphase
    exact ⟨hissued, hinvoked, honly, hfresh⟩
  loop := h.loop
  finished := h.finished
  contract := ⟨h.contract.correct, h.contract.served, h.contract.kept⟩

theorem Sound.schedule (h : a.Sound) {action : UInt8} {arg : List UInt8}
    (hs : a.step (.schedule repeats interval action arg t) = some a') : a'.Sound := by
  simp only [step] at hs
  split at hs
  · rcases TimerManager.schedule_cases repeats interval action arg (stamp t) a.manager with hnone | ⟨slot, hfree, hsome⟩
    · rw [hnone] at hs
      exact Option.some.inj hs ▸ h.tick t
    · rw [hsome] at hs
      exact Option.some.inj hs ▸ h.scheduled (by unfold Active; simp [hfree]) ⟨rfl, rfl, rfl, rfl⟩
  · cases hs

theorem Sound.cancel (h : a.Sound) {timerId : Int} (hs : a.step (.cancel timerId t) = some a') : a'.Sound := by
  simp only [step] at hs
  split at hs
  · cases hslot : TimerManager.slotOf timerId with
    | none =>
      have hfalse : a.manager.cancel timerId = (false, a.manager) := by
        unfold TimerManager.cancel
        rw [hslot]
      rw [hfalse, hslot] at hs
      exact Option.some.inj hs ▸ h.tick t
    | some slot =>
      by_cases hactive : a.Active slot
      · have htrue : a.manager.cancel timerId =
            (true, a.manager.put slot { a.manager.timers slot with active := false }) := by
          unfold TimerManager.cancel
          rw [hslot]
          exact if_pos hactive
        rw [htrue, hslot] at hs
        exact Option.some.inj hs ▸ h.cancelled hactive
      · have hfalse : a.manager.cancel timerId = (false, a.manager) := by
          unfold TimerManager.cancel
          rw [hslot]
          exact if_neg hactive
        rw [hfalse, hslot] at hs
        exact Option.some.inj hs ▸ h.tick t
  · cases hs

theorem Sound.step (h : a.Sound) (hs : Step a deed a') (hu : Undisturbed a deed a') : a'.Sound := by
  unfold Step at hs
  cases deed with
  | schedule repeats interval action arg t => exact h.schedule hs
  | cancel timerId t => exact h.cancel hs
  | update now t =>
    simp only [Agenda.step] at hs
    split at hs
    · rename_i hphase
      split at hs
      · exact Option.some.inj hs ▸ h.begin hphase now t
      · cases hs
    · cases hs
  | visit =>
    simp only [Agenda.step] at hs
    split at hs
    · rename_i now i before hphase
      split at hs
      · rename_i hlt
        have hread := hu.readable now ⟨i, hlt⟩ before rfl hphase
        split at hs
        · rename_i hdue
          exact Option.some.inj hs ▸ h.invoke hphase hread hdue
        · rename_i hdue
          exact Option.some.inj hs ▸ h.skip hphase hread (Bool.eq_false_iff.2 hdue)
      · cases hs
    · cases hs
  | handled =>
    simp only [Agenda.step] at hs
    split at hs
    · rename_i now i before ticket hphase
      exact Option.some.inj hs ▸ h.handled hphase (hu.slot now i before ticket rfl hphase)
    · cases hs
  | done =>
    simp only [Agenda.step] at hs
    split at hs
    · rename_i now i before hphase
      split at hs
      · rename_i hall
        exact Option.some.inj hs ▸ h.done hphase hall
      · cases hs
    · cases hs

/-- In every undisturbed run the contract of the timers holds. -/
theorem contract_holds (hrun : Run (Within Step Undisturbed) (started t) deeds a) : a.Contract :=
  (Run.inv Sound (.started t) (fun _ _ _ h hs => h.step hs.1 hs.2) hrun).contract

/-- A timer runs out. -/
theorem contract_holds_once : ∃ a, Run Step (started 0)
    [.schedule false 10 1 [] 0, .update 10 10, .visit, .handled] a ∧ (a.tickets 0).invocations = [10] ∧ a.Contract := by
  have hvisit : ∀ {a a' : Agenda}, a.phase = .visiting 10 0 1 → a.since 0 = 0 → (a.manager.timers 0).repeats = false →
      Undisturbed a .visit a' := fun {a a'} hphase hsince hone => by
    refine ⟨fun now i before _ hp hactive => ?_, nofun⟩
    obtain ⟨rfl, hi, rfl⟩ := TimerPhase.visiting.inj (hphase.symm.trans hp)
    obtain rfl : i = 0 := Fin.ext hi.symm
    refine ⟨fun _ => .inl ?_, fun hrep => ?_⟩
    · rw [hsince]
      decide
    · rw [hone] at hrep
      cases hrep
  have hhandled : ∀ {a a' : Agenda}, a.phase = .handling 10 0 1 0 → a.holder 0 = 0 → Undisturbed a .handled a' :=
    fun {a a'} hphase hholder => by
      refine ⟨nofun, fun now i before ticket _ hp hactive => .inl ?_⟩
      obtain ⟨rfl, rfl, rfl, rfl⟩ := TimerPhase.handling.inj (hphase.symm.trans hp)
      exact hholder
  have hrun : ∃ a, Run (Within Step Undisturbed) (started 0)
      [.schedule false 10 1 [] 0, .update 10 10, .visit, .handled] a ∧ (a.tickets 0).invocations = [10] :=
    ⟨_, Run.cons ⟨rfl, nofun, nofun⟩ (Run.cons ⟨rfl, nofun, nofun⟩ (Run.cons ⟨rfl, hvisit rfl rfl rfl⟩
      (Run.single ⟨rfl, hhandled rfl rfl⟩))), rfl⟩
  obtain ⟨a, hrun, hinvoked⟩ := hrun
  exact ⟨a, hrun.mono fun _ _ _ hs => hs.1, hinvoked, contract_holds hrun⟩

/-- The handler schedules a timer for 100 ms later. It is in a slot that is still
to be visited, and stamped after the time of the update. -/
def early : List TimerDeed :=
  [.schedule false 10 1 [] 0, .update 10 10, .visit, .schedule false 100 2 [] 11, .handled, .visit]

/-- The handler cancels its own timer and schedules another, which gets its slot. -/
def lost : List TimerDeed :=
  [.schedule false 10 1 [] 0, .update 10 10, .visit, .cancel 0 11, .schedule false 100 2 [] 11, .handled]

theorem contract_broken : (∃ a, Run Step (started 0) early a ∧ ¬a.Contract) ∧ ∃ a, Run Step (started 0) lost a ∧ ¬a.Contract := by
  constructor
  · obtain ⟨a, hrun, hseen⟩ := Run.of_foldlM_map (fun a : Agenda => (a.issued, a.tickets 1))
      (show (early.foldlM (fun a deed => step deed a) (started 0)).map _ = some (2, ⟨11, 100, false, [10], none⟩) from rfl)
    obtain ⟨hissued, hticket⟩ := Prod.mk.inj hseen
    refine ⟨a, hrun, fun hc => ?_⟩
    have hcorrect := hc.correct 1 (by omega)
    rw [hticket] at hcorrect
    have hdue : 11 + 100 ≤ 10 := hcorrect.notEarly rfl 10 (by simp)
    omega
  · obtain ⟨a, hrun, hseen⟩ := Run.of_foldlM_map
      (fun a : Agenda => (a.issued, a.tickets 1, decide (∃ i, (a.manager.timers i).active = true)))
      (show (lost.foldlM (fun a deed => step deed a) (started 0)).map _ = some (2, ⟨11, 100, false, [], none⟩, false) from rfl)
    simp only [Prod.mk.injEq, decide_eq_false_iff_not] at hseen
    obtain ⟨hissued, hticket, hnone⟩ := hseen
    refine ⟨a, hrun, fun hc => ?_⟩
    obtain ⟨i, hactive, -⟩ := hc.kept 1 (by omega) (by rw [hticket]) (.inr (by rw [hticket]))
    exact hnone ⟨i, hactive⟩

end Agenda

end OrangeBox.Hal
