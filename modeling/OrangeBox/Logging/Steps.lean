import OrangeBox.Lib.Run
import OrangeBox.Logging.Transport
/-!
# What a step does

`Effect` sums up the steps of `Act.step`; the lemmas about the queue say what
each locked section leaves in it.
-/
open CircularBuffer

namespace OrangeBox.Logging

/-! ## Steps -/

/-- The record that was copied and not yet popped. -/
def Sender.record : Sender → Option QueuedLogRecord
  | .sending _ record | .popping _ record => some record
  | _ => none

/-- The count in a notice that was sent and not yet taken off the counter. -/
def Sender.pending : Sender → UInt32
  | .forgetting lost => lost
  | _ => 0

/-- What a step may do. -/
inductive Effect (w : LogState) : LogState → Prop
  | accepts (queued : QueuedLogRecord) : Effect w (w.accepting queued)
  /-- The sending task goes on, or gives up. -/
  | moves (transport : BufferedLogTransport) (sender : Sender) (hq : transport.queue = w.transport.queue)
      (hd : transport.dropped = w.transport.dropped) (hn : transport.nextSequence = w.transport.nextSequence)
      (hr : sender.record = none) (hpop : ∀ budget record, w.sender ≠ .popping budget record)
      (hp : sender.pending = 0) (hp' : w.sender.pending = 0) : Effect w ⟨transport, sender, w.history⟩
  | notices (lost : UInt32) (hr : w.sender.record = none) (hp : w.sender.pending = 0) :
      Effect w { w with sender := .forgetting lost, history := { w.history with noticed := w.history.noticed ++ [lost] } }
  | forgets (lost : UInt32) (hs : w.sender = .forgetting lost) :
      Effect w { w with transport := w.transport.forgetDropped lost, sender := .flushing 0 }
  | copies (budget : Nat) (record : QueuedLogRecord) (hs : w.sender = .flushing budget)
      (hpeek : w.transport.queue.peek = some record) :
      Effect w { w with sender := .sending budget record, history := { w.history with copied := w.oldest, meanwhile := 0 } }
  | sends (budget : Nat) (record : QueuedLogRecord) (hs : w.sender = .sending budget record) :
      Effect w { w with
                 sender := .popping budget record
                 history := { w.history with sent := w.history.sent ++ [(w.history.copied, record)] } }
  | pops (budget : Nat) (record : QueuedLogRecord) (hs : w.sender = .popping budget record) :
      Effect w { w with transport := w.transport.popSent record, sender := .flushing (budget + 1) }

variable {w w' : LogState} {act : Act}

/-- A move that leaves the transport alone. -/
theorem Effect.stays (sender : Sender) (hr : sender.record = none) (hpop : ∀ budget record, w.sender ≠ .popping budget record)
    (hp : sender.pending = 0) (hp' : w.sender.pending = 0) : Effect w { w with sender := sender } :=
  .moves w.transport sender rfl rfl rfl hr hpop hp hp'

theorem LogStep.effect (h : LogStep w act w') : Effect w w' ∨ w' = w := by
  obtain ⟨transport, sender, history⟩ := w
  unfold LogStep Act.step at h
  cases act with
  | log event =>
    cases hq : event.queued with
    | none =>
      simp only [hq, Option.some.injEq] at h
      exact .inr h.symm
    | some queued =>
      simp only [hq, Option.some.injEq] at h
      exact .inl (h ▸ .accepts queued)
  | update now =>
    cases sender <;> simp only [Option.some.injEq, reduceCtorEq] at h
    subst h
    exact .inl (.stays _ (by split <;> rfl) (by simp) (by split <;> rfl) rfl)
  | connect before after =>
    -- The reconnect timer may start, the queue and the counters stay.
    cases sender <;> simp only [Option.some.injEq, reduceCtorEq] at h
    subst h
    refine .inl (.moves _ _ ?_ ?_ ?_ (by split <;> rfl) (by simp) (by split <;> rfl) rfl)
    all_goals (unfold BufferedLogTransport.tryReconnect; split <;> rfl)
  | readDropped time =>
    cases sender <;> simp only [Option.some.injEq, reduceCtorEq] at h
    subst h
    refine .inl (.stays _ ?_ (by simp) ?_ rfl)
    all_goals
      split
      · rfl
      · split <;> rfl
  | noticeSent ok =>
    cases sender <;> cases ok <;> simp only [Option.some.injEq, reduceCtorEq] at h
    · subst h
      exact .inl (.stays _ rfl (by simp) rfl rfl)
    · subst h
      exact .inl (.notices _ rfl rfl)
  | forget =>
    cases sender <;> simp only [Option.some.injEq, reduceCtorEq] at h
    subst h
    exact .inl (.forgets _ rfl)
  | copy connected =>
    cases sender <;> simp only [reduceCtorEq] at h
    -- Only a connected sender looks at the head, if there is one.
    split at h
    · split at h
      · obtain rfl := Option.some.inj h
        exact .inl (.stays _ rfl (by simp) rfl rfl)
      · rename_i hpeek
        obtain rfl := Option.some.inj h
        exact .inl (.copies _ _ rfl hpeek)
    · obtain rfl := Option.some.inj h
      exact .inl (.stays _ rfl (by simp) rfl rfl)
  | recordSent ok =>
    cases sender <;> cases ok <;> simp only [Option.some.injEq, reduceCtorEq] at h
    · subst h
      exact .inl (.stays _ rfl (by simp) rfl rfl)
    · subst h
      exact .inl (.sends _ _ rfl)
  | pop =>
    cases sender <;> simp only [Option.some.injEq, reduceCtorEq] at h
    subst h
    exact .inl (.pops _ _ rfl)

/-! ## The queue -/

namespace BufferedLogTransport
variable {transport : BufferedLogTransport} {queued : QueuedLogRecord}

theorem count_makeRoom : transport.makeRoom.queue.count < logQueueSize := by
  unfold makeRoom isFull
  split
  · rename_i hfull
    have hcount : transport.queue.count = logQueueSize := of_decide_eq_true hfull
    simp only [count_pop, hcount]
    decide
  · rename_i hne
    exact Nat.lt_of_le_of_ne transport.queue.bounded fun hcount => hne (decide_eq_true hcount)

theorem contents_enqueue :
    (transport.enqueue queued).queue.contents =
      (if transport.queue.isFull then transport.queue.contents.tail else transport.queue.contents) ++
        [{ queued with sequence := transport.nextSequence }] := by
  have hn : transport.makeRoom.nextSequence = transport.nextSequence := by
    unfold makeRoom
    split <;> rfl
  unfold enqueue
  dsimp only
  rw [contents_put _ count_makeRoom, hn]
  congr 1
  unfold makeRoom
  split
  · exact contents_pop
  · rfl

@[simp] theorem dropped_enqueue :
    (transport.enqueue queued).dropped = if transport.queue.isFull then transport.dropped + 1 else transport.dropped := by
  unfold enqueue makeRoom
  split <;> rfl

@[simp] theorem nextSequence_enqueue : (transport.enqueue queued).nextSequence = transport.nextSequence + 1 := by
  unfold enqueue makeRoom
  split <;> rfl

theorem count_enqueue :
    (transport.enqueue queued).queue.count = if transport.queue.isFull then transport.queue.count else transport.queue.count + 1 := by
  rw [← length_contents, contents_enqueue]
  split
  · rename_i hfull
    have hcount : transport.queue.count = logQueueSize := of_decide_eq_true hfull
    simp [hcount]
  · simp

@[simp] theorem dropped_popSent (record : QueuedLogRecord) : (transport.popSent record).dropped = transport.dropped := by
  unfold popSent
  split
  · rfl
  · split <;> rfl

@[simp] theorem nextSequence_popSent (record : QueuedLogRecord) :
    (transport.popSent record).nextSequence = transport.nextSequence := by
  unfold popSent
  split
  · rfl
  · split <;> rfl

end BufferedLogTransport

end OrangeBox.Logging
