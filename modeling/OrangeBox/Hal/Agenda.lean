import OrangeBox.Lib.Run
import OrangeBox.Hal.Timer
/-!
# Timers over time

`TimerManager` with a clock, step by step: `update` visits one slot after the
other, and while the action handler runs timers are scheduled and cancelled.
Beside the slots every scheduled timer has a ticket of its own, with what has
become of it; `Contract` says what must have.
-/
open Clock Runs

namespace OrangeBox.Hal

/-- A timer that was scheduled at `start`. -/
structure Ticket where
  start : Nat
  interval : UInt32
  repeats : Bool
  /-- The times of the updates that invoked it, latest first. -/
  invocations : List Nat
  /-- How often it had been invoked when it was cancelled. -/
  cancelled : Option Nat

/-- The timer is cancelled. -/
def Ticket.struck (x : Ticket) : Ticket := { x with cancelled := some x.invocations.length }

/-- The timer is invoked. -/
def Ticket.invoked (now : Nat) (x : Ticket) : Ticket := { x with invocations := now :: x.invocations }

def Ticket.due (now : Nat) (x : Ticket) : Prop := x.start + x.interval.toNat ≤ now

/-- What may have become of a timer. A one-shot timer is invoked once at most,
and not early; between two invocations of a repeating timer its interval
passes; no invocation comes after the cancel. -/
structure Ticket.Correct (x : Ticket) : Prop where
  once : x.repeats = false → x.invocations.length ≤ 1
  notEarly : x.repeats = false → ∀ now ∈ x.invocations, x.due now
  spaced : x.repeats = true → x.invocations.IsChain fun later earlier => earlier + x.interval.toNat ≤ later
  cancelled : ∀ n, x.cancelled = some n → x.invocations.length = n

/-- What goes on. An update that was given `now` has visited the slots below
`i`; `before` is the number of tickets when it began. -/
inductive TimerPhase where
  | outside
  | visiting (now : Nat) (i : Nat) (before : Nat)
  /-- The action handler runs for the ticket in the slot. -/
  | handling (now : Nat) (i : Fin maxTimers) (before : Nat) (ticket : Nat)

/-- Timers are scheduled and cancelled between updates and by the action handler. -/
def TimerPhase.calls : TimerPhase → Bool
  | .visiting _ _ _ => false
  | _ => true

structure Agenda where
  manager : TimerManager
  tickets : Nat → Ticket
  issued : Nat
  /-- The ticket of the timer in a slot, and when it was stamped. -/
  holder : Fin maxTimers → Nat
  since : Fin maxTimers → Nat
  phase : TimerPhase
  clock : Nat
  /-- The times of the updates that have returned, with the number of tickets
  when they began. -/
  finished : List (Nat × Nat)

inductive TimerDeed where
  | schedule (repeats : Bool) (interval : UInt32) (action : UInt8) (arg : List UInt8) (t : Nat)
  | cancel (timerId : Int) (t : Nat)
  /-- `update` is called, with a time sampled before. -/
  | update (now t : Nat)
  | visit
  /-- The action handler returns. -/
  | handled
  /-- `update` returns. -/
  | done

namespace Agenda

def started (t : Nat) : Agenda :=
  { manager := .constructed
    tickets := fun _ => ⟨0, 0, false, [], none⟩
    issued := 0
    holder := fun _ => 0
    since := fun _ => 0
    phase := .outside
    clock := t
    finished := [] }

/-- A ticket for a timer that was put in a slot. -/
def issue (slot : Fin maxTimers) (interval : UInt32) (repeats : Bool) (t : Nat) (a : Agenda) : Agenda :=
  { a with
    tickets := Function.update a.tickets a.issued ⟨t, interval, repeats, [], none⟩
    issued := a.issued + 1
    holder := Function.update a.holder slot a.issued
    since := Function.update a.since slot t }

/-- Note something in a ticket. -/
def note (ticket : Nat) (f : Ticket → Ticket) (a : Agenda) : Agenda :=
  { a with tickets := Function.update a.tickets ticket (f (a.tickets ticket)) }

def step (deed : TimerDeed) (a : Agenda) : Option Agenda :=
  match deed with
  | .schedule repeats interval action arg t =>
    if a.clock ≤ t ∧ a.phase.calls then
      match a.manager.schedule repeats interval action arg (stamp t) with
      | (none, manager) => some { a with manager := manager, clock := t }
      | (some slot, manager) => some { a.issue slot interval repeats t with manager := manager, clock := t }
    else none
  | .cancel timerId t =>
    if a.clock ≤ t ∧ a.phase.calls then
      match a.manager.cancel timerId, TimerManager.slotOf timerId with
      | (true, manager), some slot => some { a.note (a.holder slot) .struck with manager := manager, clock := t }
      | (_, manager), _ => some { a with manager := manager, clock := t }
    else none
  | .update now t =>
    match a.phase with
    | .outside => if a.clock ≤ t ∧ now ≤ t then some { a with phase := .visiting now 0 a.issued, clock := t } else none
    | _ => none
  | .visit =>
    match a.phase with
    | .visiting now i before =>
      if h : i < maxTimers then
        if a.manager.due (stamp now) ⟨i, h⟩ then
          some { a.note (a.holder ⟨i, h⟩) (.invoked now) with phase := .handling now ⟨i, h⟩ before (a.holder ⟨i, h⟩) }
        else some { a with phase := .visiting now (i + 1) before }
      else none
    | _ => none
  | .handled =>
    match a.phase with
    | .handling now i before _ =>
      some { a with
             manager := a.manager.finish (stamp now) i
             since := if (a.manager.timers i).repeats then Function.update a.since i now else a.since
             phase := .visiting now (i + 1) before }
    | _ => none
  | .done =>
    match a.phase with
    | .visiting now i before =>
      if maxTimers ≤ i then some { a with phase := .outside, finished := (now, before) :: a.finished } else none
    | _ => none

def Step (a : Agenda) (deed : TimerDeed) (a' : Agenda) : Prop := a.step deed = some a'

/-- A ticket's timer is in a slot, and runs. -/
def Running (ticket : Nat) (a : Agenda) : Prop := ∃ i, (a.manager.timers i).active = true ∧ a.holder i = ticket

/-- What must have become of the tickets: an update leaves no one-shot timer
waiting that was due, and no timer is lost. -/
structure Contract (a : Agenda) : Prop where
  correct : ∀ ticket < a.issued, (a.tickets ticket).Correct
  served : ∀ update ∈ a.finished, ∀ ticket < update.2, (a.tickets ticket).repeats = false →
    (a.tickets ticket).due update.1 → (a.tickets ticket).invocations ≠ [] ∨ (a.tickets ticket).cancelled ≠ none
  kept : ∀ ticket < a.issued, (a.tickets ticket).cancelled = none →
    (a.tickets ticket).repeats = true ∨ (a.tickets ticket).invocations = [] → a.Running ticket

end Agenda

end OrangeBox.Hal
