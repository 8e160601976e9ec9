import OrangeBox.Logging.Steps
/-!
# What is sent

Events leave the queue in the order in which they were accepted, and none is
sent twice, whenever other tasks log. `Kept` is what every step keeps: the queue
holds the last of the accepted events, the sequence numbers are their places
modulo `2 ^ 32`, and what was sent lies before the record in hand.
`delivered_in_order` follows. The record in hand is recognised by its sequence
number only, so a queue that was refilled until the number came round again
while one record was being sent loses an unsent event (`sequence_wraps`).
-/
open Runs Clock CircularBuffer

namespace OrangeBox.Logging

variable {w w' : LogState} {act : Act}

/-! ## Order -/

/-- The events that were sent lie before this place. -/
def LogState.reached (w : LogState) : Nat :=
  match w.sender with
  | .sending _ _ => w.history.copied
  | .popping _ _ => w.history.copied + 1
  | _ => w.oldest

/-- The places of the events that were sent. -/
def History.places (history : History) : List Nat := history.sent.map Prod.fst

structure Kept (w : LogState) : Prop where
  queued : w.transport.queue.contents <:+ w.history.accepted
  numbered : ∀ k record, w.history.accepted[k]? = some record → record.sequence = stamp k
  next : w.transport.nextSequence = stamp w.history.accepted.length
  found : ∀ p ∈ w.history.sent, w.history.accepted[p.1]? = some p.2
  ordered : w.history.places.Pairwise (· < ·)
  behind : ∀ k ∈ w.history.places, k < w.reached
  inHand : ∀ record, w.sender.record = some record →
    w.history.accepted[w.history.copied]? = some record ∧ w.history.copied ≤ w.oldest ∧
      w.oldest ≤ w.history.copied + w.history.meanwhile
  gone : ∀ k ∈ w.history.overwritten, k < w.oldest
  once : w.history.overwritten.Pairwise (· < ·)

theorem Kept.count_le (hk : Kept w) : w.transport.queue.count ≤ w.history.accepted.length := by
  rw [← length_contents]
  exact hk.queued.length_le

/-- The queue holds the events from the oldest on. -/
theorem Kept.contents (hk : Kept w) : w.transport.queue.contents = w.history.accepted.drop w.oldest := by
  have h := List.suffix_iff_eq_drop.1 hk.queued
  rwa [length_contents] at h

theorem Kept.peek (hk : Kept w) : w.transport.queue.peek = w.history.accepted[w.oldest]? := by
  rw [peek_eq, hk.contents, List.head?_drop]

theorem Kept.oldest_accepting (hk : Kept w) (queued : QueuedLogRecord) :
    (w.accepting queued).oldest = if w.transport.queue.isFull then w.oldest + 1 else w.oldest := by
  have hle := hk.count_le
  unfold LogState.oldest LogState.accepting
  simp only [List.length_append, List.length_singleton, BufferedLogTransport.count_enqueue]
  split <;> omega

theorem started_kept : Kept .started where
  queued := List.nil_suffix
  numbered := by simp [LogState.started]
  next := rfl
  found := by simp [LogState.started]
  ordered := List.Pairwise.nil
  behind := by simp [LogState.started, History.places]
  inHand := by simp [LogState.started, Sender.record]
  gone := by simp [LogState.started]
  once := List.Pairwise.nil

/-- A record keeps its place when others are accepted. -/
theorem getElem?_accepted {accepted : List QueuedLogRecord} {k : Nat} {record : QueuedLogRecord}
    (h : accepted[k]? = some record) (later : QueuedLogRecord) : (accepted ++ [later])[k]? = some record := by
  obtain ⟨hlt, -⟩ := List.getElem?_eq_some_iff.1 h
  rwa [List.getElem?_append_left hlt]

theorem Kept.oldest_mono (hk : Kept w) (queued : QueuedLogRecord) :
    w.oldest ≤ (w.accepting queued).oldest ∧ (w.accepting queued).oldest ≤ w.oldest + 1 := by
  rw [hk.oldest_accepting]
  split <;> omega

theorem Kept.accepting (hk : Kept w) (queued : QueuedLogRecord) : Kept (w.accepting queued) := by
  have hmono := hk.oldest_mono queued
  constructor
  case queued =>
    change (w.transport.enqueue queued).queue.contents <:+ w.history.accepted ++ [_]
    rw [BufferedLogTransport.contents_enqueue]
    apply List.suffix_append_self_iff.2
    split
    · exact (List.tail_suffix _).trans hk.queued
    · exact hk.queued
  case numbered =>
    intro k record hat
    change (w.history.accepted ++ [_])[k]? = some record at hat
    rw [List.getElem?_append] at hat
    split at hat
    · exact hk.numbered k record hat
    · rename_i hge
      rw [List.getElem?_singleton, Option.ite_none_right_eq_some, Option.some.injEq] at hat
      obtain ⟨hzero, rfl⟩ := hat
      have hat : k = w.history.accepted.length := by omega
      exact hat ▸ hk.next
  case next =>
    change _ = stamp (w.history.accepted ++ [_]).length
    rw [List.length_append, List.length_singleton, stamp_add, ← hk.next]
    exact BufferedLogTransport.nextSequence_enqueue
  case found =>
    intro p hp
    exact getElem?_accepted (hk.found p hp) _
  case ordered => exact hk.ordered
  case behind =>
    intro k hsent
    have hlt := hk.behind k hsent
    -- How far the sender has come depends on the queue only while it has no record in hand.
    have hreach : w.reached ≤ (w.accepting queued).reached := by
      change w.reached ≤ match w.sender with | .sending _ _ => _ | .popping _ _ => _ | _ => _
      unfold LogState.reached
      split
      · exact Nat.le_refl _
      · exact Nat.le_refl _
      · exact hmono.1
    omega
  case inHand =>
    intro record hr
    obtain ⟨hat, hlo, hhi⟩ := hk.inHand record hr
    refine ⟨getElem?_accepted hat _, Nat.le_trans hlo hmono.1, ?_⟩
    change _ ≤ w.history.copied + (w.history.meanwhile + 1)
    omega
  case gone =>
    intro k hover
    -- A full queue loses its oldest event, which is then the last that gave way.
    rw [hk.oldest_accepting]
    change k ∈ (if _ then _ else _) at hover
    split at hover
    · rename_i hfull
      rw [if_pos hfull]
      rcases List.mem_append.1 hover with hover | hover
      · have := hk.gone k hover
        omega
      · obtain rfl := List.mem_singleton.1 hover
        exact Nat.lt_succ_self _
    · rename_i hnot
      rw [if_neg hnot]
      exact hk.gone k hover
  case once =>
    change List.Pairwise _ (if _ then _ else _)
    split
    · refine List.pairwise_append.2 ⟨hk.once, List.pairwise_singleton _ _, fun k hover j hj => ?_⟩
      obtain rfl := List.mem_singleton.1 hj
      exact hk.gone k hover
    · exact hk.once

theorem Kept.peek_some (hk : Kept w) {record : QueuedLogRecord} (hpeek : w.transport.queue.peek = some record) :
    w.history.accepted[w.oldest]? = some record ∧ w.transport.queue.count ≠ 0 := by
  refine ⟨hk.peek ▸ hpeek, fun hzero => ?_⟩
  rw [peek_eq, List.eq_nil_of_length_eq_zero (length_contents.trans hzero)] at hpeek
  cases hpeek

/-- The sent events lie before the queue when no record is in hand, before the record in hand otherwise. -/
theorem Kept.reached_le (hk : Kept w) (hpop : ∀ budget record, w.sender ≠ .popping budget record) : w.reached ≤ w.oldest := by
  unfold LogState.reached
  split
  · rename_i budget record hs
    exact (hk.inHand record (by rw [hs]; rfl)).2.1
  · rename_i budget record hs
    exact absurd hs (hpop budget record)
  · exact Nat.le_refl _

theorem LogState.reached_of_none (h : w.sender.record = none) : w.reached = w.oldest := by
  unfold LogState.reached
  split
  · rename_i hs
    rw [hs] at h
    cases h
  · rename_i hs
    rw [hs] at h
    cases h
  · rfl

/-- With no record in hand, the sent events lie before the queue. -/
theorem Kept.behind_of_none (hk : Kept w) (hr : w.sender.record = none) {k : Nat} (hsent : k ∈ w.history.places) : k < w.oldest := by
  have hlt := hk.behind k hsent
  rwa [LogState.reached_of_none hr] at hlt

/-- What popping the record in hand leaves in the queue. -/
theorem Kept.popping (hk : Kept w) {budget : Nat} {record : QueuedLogRecord} (hs : w.sender = .popping budget record) :
    (w.transport.popSent record).queue.contents <:+ w.history.accepted ∧
      w.history.copied < w.history.accepted.length - (w.transport.popSent record).queue.count ∧
      w.oldest ≤ w.history.accepted.length - (w.transport.popSent record).queue.count := by
  obtain ⟨hat, hlo, hhi⟩ := hk.inHand record (by rw [hs]; rfl)
  obtain ⟨hlt, -⟩ := List.getElem?_eq_some_iff.1 hat
  have hle := hk.count_le
  unfold BufferedLogTransport.popSent
  split
  · rename_i hpeek
    have hge : w.history.accepted.length ≤ w.oldest := List.getElem?_eq_none_iff.1 (hk.peek ▸ hpeek)
    exact ⟨hk.queued, Nat.lt_of_lt_of_le hlt hge, Nat.le_refl _⟩
  · rename_i oldest hpeek
    obtain ⟨hold, hne⟩ := hk.peek_some hpeek
    split
    · have hcount : w.transport.queue.pop.count = w.transport.queue.count - 1 := count_pop
      refine ⟨?_, ?_, ?_⟩
      · rw [contents_pop]
        exact (List.tail_suffix _).trans hk.queued
      all_goals
        dsimp only
        rw [hcount]
        have hdef : w.oldest = w.history.accepted.length - w.transport.queue.count := rfl
        omega
    · -- Another number: the record in hand has left the queue already.
      rename_i hseq
      refine ⟨hk.queued, Nat.lt_of_le_of_ne hlo fun heq => hseq ?_, Nat.le_refl _⟩
      rw [hk.numbered _ _ hold, hk.numbered _ _ hat, heq]
      rfl

theorem Effect.kept (h : Effect w w') (hk : Kept w) : Kept w' := by
  cases h with
  | accepts queued => exact hk.accepting queued
  | moves transport sender hq hd hn hr hpop hp hp' =>
    obtain ⟨queue, dropped, nextSequence, reconnectStartedAt, reconnectStarted⟩ := transport
    obtain rfl : queue = _ := hq
    have hle := hk.reached_le hpop
    refine { hk with next := hn.trans hk.next, behind := fun k hsent => ?_, inHand := fun record hrec => ?_ }
    · rw [LogState.reached_of_none hr]
      exact Nat.lt_of_lt_of_le (hk.behind k hsent) hle
    · cases hr.symm.trans hrec
  | notices lost hr hp =>
    refine { hk with behind := fun k hsent => ?_, inHand := fun record hrec => ?_ }
    · exact hk.behind_of_none hr hsent
    · cases hrec
  | forgets lost hs =>
    refine { hk with behind := fun k hsent => ?_, inHand := fun record hrec => ?_ }
    · exact hk.behind_of_none (by rw [hs]; rfl) hsent
    · cases hrec
  | copies budget record hs hpeek =>
    refine { hk with behind := fun k hsent => ?_, inHand := fun r hrec => ?_ }
    · exact hk.behind_of_none (by rw [hs]; rfl) hsent
    · obtain rfl := Option.some.inj hrec
      exact ⟨(hk.peek_some hpeek).1, Nat.le_refl _, Nat.le_refl _⟩
  | sends budget record hs =>
    -- The record in hand becomes the last that was sent: all before it lie before its place.
    have hreach : w.reached = w.history.copied := by
      unfold LogState.reached
      rw [hs]
    obtain ⟨hat, hlo, hhi⟩ := hk.inHand record (by rw [hs]; rfl)
    have hplaces : (w.history.sent ++ [(w.history.copied, record)]).map Prod.fst = w.history.places ++ [w.history.copied] :=
      List.map_append ..
    refine { hk with
      found := fun p hsent => ?_, ordered := ?_, behind := fun k hsent => ?_, inHand := fun r hrec => ?_ }
    · rcases List.mem_append.1 hsent with hsent | hsent
      · exact hk.found p hsent
      · obtain rfl := List.mem_singleton.1 hsent
        exact hat
    · unfold History.places
      rw [hplaces]
      refine List.pairwise_append.2 ⟨hk.ordered, List.pairwise_singleton _ _, fun j hj k hmem => ?_⟩
      obtain rfl := List.mem_singleton.1 hmem
      exact hreach ▸ hk.behind j hj
    · change k < w.history.copied + 1
      unfold History.places at hsent
      rw [hplaces] at hsent
      rcases List.mem_append.1 hsent with hsent | hsent
      · have := hreach ▸ hk.behind k hsent
        omega
      · obtain rfl := List.mem_singleton.1 hsent
        exact Nat.lt_succ_self _
    · obtain rfl := Option.some.inj hrec
      exact ⟨hat, hlo, hhi⟩
  | pops budget record hs =>
    -- What was sent lies up to the record in hand, which is now out of the queue.
    obtain ⟨hsuffix, hlt, hle⟩ := hk.popping hs
    refine { hk with
      queued := hsuffix, next := ?_, behind := fun k hsent => ?_, inHand := fun r hrec => ?_, gone := fun k hover => ?_ }
    · exact (BufferedLogTransport.nextSequence_popSent record).trans hk.next
    · have hbehind := hk.behind k hsent
      have hreach : w.reached = w.history.copied + 1 := by
        unfold LogState.reached
        rw [hs]
      change k < w.history.accepted.length - (w.transport.popSent record).queue.count
      omega
    · cases hrec
    · exact Nat.lt_of_lt_of_le (hk.gone k hover) hle

theorem LogStep.kept (h : LogStep w act w') (hk : Kept w) : Kept w' := by
  rcases h.effect with heffect | rfl
  · exact heffect.kept hk
  · exact hk

/-! ## Nothing is forgotten -/

/-- The event is still in the queue. -/
def LogState.Queued (w : LogState) (k : Nat) : Prop :=
  w.oldest ≤ k ∧ k < w.history.accepted.length ∧ w.transport.queue.contents[k - w.oldest]? = w.history.accepted[k]?

theorem Kept.queued_of_le (hk : Kept w) {k : Nat} (hle : w.oldest ≤ k) (hlt : k < w.history.accepted.length) : w.Queued k := by
  refine ⟨hle, hlt, ?_⟩
  rw [hk.contents, List.getElem?_drop, Nat.add_sub_of_le hle]

/-- The record that is about to be popped is the one in hand. -/
def LogState.Exact (w : LogState) : Prop :=
  ∀ budget record oldest, w.sender = .popping budget record → w.transport.queue.peek = some oldest →
    oldest.sequence = record.sequence → w.oldest = w.history.copied

/-- Every event that has left the queue was sent or has given way. -/
structure Accounted (w : LogState) : Prop where
  kept : Kept w
  left : ∀ k < w.oldest, k ∈ w.history.places ∨ k ∈ w.history.overwritten
  sent : ∀ budget record, w.sender = .popping budget record → w.history.copied ∈ w.history.places
  inHand : w.sender.record ≠ none → w.history.copied < w.oldest → w.history.copied ∈ w.history.overwritten

theorem started_accounted : Accounted .started where
  kept := started_kept
  left := fun _ hlt => absurd hlt (Nat.not_lt_zero _)
  sent := nofun
  inHand := fun h => absurd rfl h

theorem Kept.popping_exact (hk : Kept w) (hx : w.Exact) {budget : Nat} {record : QueuedLogRecord}
    (hs : w.sender = .popping budget record) {k : Nat}
    (hlt : k < w.history.accepted.length - (w.transport.popSent record).queue.count) : k < w.oldest ∨ k = w.history.copied := by
  unfold BufferedLogTransport.popSent at hlt
  split at hlt
  · exact .inl hlt
  · rename_i oldest hpeek
    split at hlt
    · rename_i hseq
      have heq := hx budget record oldest hs hpeek hseq
      have hne := (hk.peek_some hpeek).2
      have hle := hk.count_le
      have hdef : w.oldest = w.history.accepted.length - w.transport.queue.count := rfl
      dsimp only at hlt
      rw [count_pop] at hlt
      omega
    · exact .inl hlt

theorem mem_accepting_overwritten {k : Nat} {queued : QueuedLogRecord} :
    k ∈ (w.accepting queued).history.overwritten ↔
      k ∈ w.history.overwritten ∨ w.transport.queue.isFull = true ∧ k = w.oldest := by
  change k ∈ (if _ then _ else _) ↔ _
  split
  · rename_i hfull
    simp [hfull]
  · rename_i hnot
    simp [hnot]

theorem mem_places_sends {k : Nat} {record : QueuedLogRecord} :
    k ∈ (w.history.sent ++ [(w.history.copied, record)]).map Prod.fst ↔ k ∈ w.history.places ∨ k = w.history.copied := by
  rw [List.map_append, List.mem_append, List.map_singleton, List.mem_singleton]
  rfl

/-- An event that leaves the queue when another is accepted has given way. -/
theorem Accounted.accepting (ha : Accounted w) (queued : QueuedLogRecord) : Accounted (w.accepting queued) := by
  have hold := ha.kept.oldest_accepting queued
  refine ⟨ha.kept.accepting queued, fun k hlt => ?_, ha.sent, fun hhand hlt => ?_⟩
  · rw [mem_accepting_overwritten]
    by_cases hbefore : k < w.oldest
    · exact (ha.left k hbefore).imp_right .inl
    · rw [hold] at hlt
      split at hlt
      · exact .inr (.inr ⟨by assumption, by omega⟩)
      · omega
  · rw [mem_accepting_overwritten]
    by_cases hbefore : w.history.copied < w.oldest
    · exact .inl (ha.inHand hhand hbefore)
    · have hlt : w.history.copied < (w.accepting queued).oldest := hlt
      rw [hold] at hlt
      split at hlt
      · exact .inr ⟨by assumption, by change w.history.copied = _; omega⟩
      · omega

theorem Effect.accounted (h : Effect w w') (hx : w.Exact) (ha : Accounted w) : Accounted w' := by
  have hkept := h.kept ha.kept
  cases h with
  | accepts queued => exact ha.accepting queued
  | moves transport sender hq hd hn hr =>
    refine ⟨hkept, fun k hlt => ?_, fun budget record hs => ?_, fun hhand => absurd hr hhand⟩
    · unfold LogState.oldest at hlt
      rw [hq] at hlt
      exact ha.left k hlt
    · change sender = _ at hs
      rw [hs] at hr
      cases hr
  | notices => exact ⟨hkept, ha.left, nofun, fun hhand => absurd rfl hhand⟩
  | forgets => exact ⟨hkept, ha.left, nofun, fun hhand => absurd rfl hhand⟩
  | copies => exact ⟨hkept, ha.left, nofun, fun _ hlt => absurd hlt (Nat.lt_irrefl _)⟩
  | sends budget record hs =>
    refine ⟨hkept, fun k hlt => ?_, fun _ _ _ => mem_places_sends.2 (.inr rfl), fun _ hlt => ?_⟩
    · exact (ha.left k hlt).imp_left fun hsent => mem_places_sends.2 (.inl hsent)
    · exact ha.inHand (by rw [hs]; nofun) hlt
  | pops budget record hs =>
    refine ⟨hkept, fun k hlt => ?_, nofun, fun hhand => absurd rfl hhand⟩
    rcases ha.kept.popping_exact hx hs hlt with hlt | rfl
    · exact ha.left k hlt
    · exact .inl (ha.sent budget record hs)

/-- Each step starts where the right record is about to be popped. -/
def FromExact (w : LogState) (_ : Act) (_ : LogState) : Prop := w.Exact

theorem Run.accounted {acts : List Act} (h : Run (Within LogStep FromExact) .started acts w) : Accounted w := by
  refine h.inv Accounted started_accounted fun w act w' ha ⟨hstep, hx⟩ => ?_
  rcases hstep.effect with heffect | rfl
  · exact heffect.accounted hx ha
  · exact ha

theorem Run.kept {acts : List Act} (h : Run LogStep .started acts w) : Kept w :=
  h.inv Kept started_kept fun _ _ _ hk hstep => hstep.kept hk

/-- Fewer than `2 ^ 32` events are accepted while a record is in hand. -/
def Brief (_ : LogState) (_ : Act) (w' : LogState) : Prop := w'.sender.record ≠ none → w'.history.meanwhile < 2 ^ 32

theorem Kept.exact (hk : Kept w) (hb : w.sender.record ≠ none → w.history.meanwhile < 2 ^ 32) : w.Exact := by
  intro budget record oldest hs hpeek hseq
  obtain ⟨hat, hlo, hhi⟩ := hk.inHand record (by rw [hs]; rfl)
  have hbrief := hb (by rw [hs]; nofun)
  rw [hk.numbered _ _ (hk.peek_some hpeek).1, hk.numbered _ _ hat] at hseq
  have hmod := congrArg UInt32.toNat hseq
  rw [toNat_stamp, toNat_stamp] at hmod
  omega

theorem Run.exact {acts : List Act} (h : Run (Within LogStep Brief) .started acts w) :
    Run (Within LogStep FromExact) .started acts w := by
  refine (Run.within (fun w => Kept w ∧ (w.sender.record ≠ none → w.history.meanwhile < 2 ^ 32))
    ⟨started_kept, fun h => absurd rfl h⟩ h ?_).1.mono fun w act w' hs => ⟨hs.1.1, hs.2⟩
  rintro w act w' - ⟨hk, hb⟩ ⟨hstep, hb'⟩
  exact ⟨hk.exact hb, hstep.kept hk, hb'⟩

theorem Effect.accepted_le (h : Effect w w') : w.history.accepted.length ≤ w'.history.accepted.length := by
  cases h with
  | accepts queued =>
    change _ ≤ (w.history.accepted ++ [_]).length
    simp
  | _ => exact Nat.le_refl _

theorem Effect.meanwhile_le (h : Effect w w') (hle : w.history.meanwhile ≤ w.history.accepted.length) :
    w'.history.meanwhile ≤ w'.history.accepted.length := by
  cases h with
  | accepts queued =>
    change w.history.meanwhile + 1 ≤ (w.history.accepted ++ [_]).length
    simpa using hle
  | copies => exact Nat.zero_le _
  | _ => exact hle

/-- A run with fewer than `2 ^ 32` events in all is brief. -/
theorem Run.brief {acts : List Act} (h : Run LogStep .started acts w) (hfew : w.history.accepted.length < 2 ^ 32) :
    Run (Within LogStep Brief) .started acts w := by
  have hmean : ∀ {acts w}, Run LogStep .started acts w → w.history.meanwhile ≤ w.history.accepted.length := fun hrun =>
    hrun.inv (fun w => w.history.meanwhile ≤ w.history.accepted.length) (Nat.le_refl _) fun _ _ _ hle hs => by
      rcases hs.effect with heffect | rfl
      · exact heffect.meanwhile_le hle
      · exact hle
  induction h with
  | nil => exact .nil
  | @snoc acts w w' act hrun hs ih =>
    -- Events are only added, so there were few before this step as well.
    have hle : w.history.accepted.length ≤ w'.history.accepted.length := by
      rcases hs.effect with heffect | rfl
      · exact heffect.accepted_le
      · exact Nat.le_refl _
    have hlate := hmean (hrun.snoc hs)
    exact (ih (by omega)).snoc ⟨hs, fun _ => by omega⟩

/-- Records at increasing places form a subsequence. -/
theorem sublist_of_places {accepted : List QueuedLogRecord} {sent : List (Nat × QueuedLogRecord)}
    (hfound : ∀ p ∈ sent, accepted[p.1]? = some p.2) (hordered : (sent.map Prod.fst).Pairwise (· < ·)) :
    (sent.map Prod.snd).Sublist accepted := by
  suffices hall : ∀ n, (∀ p ∈ sent, p.1 < n) → (sent.map Prod.snd).Sublist (accepted.take n) by
    refine (hall accepted.length fun p hp => ?_).trans (List.take_sublist _ _)
    exact (List.getElem?_eq_some_iff.1 (hfound p hp)).1
  induction sent using List.reverseRecOn with
  | nil => exact fun n _ => List.nil_sublist _
  | append_singleton sent p ih =>
    intro n hlt
    rw [List.map_append, List.map_singleton] at hordered ⊢
    obtain ⟨hrest, -, hbefore⟩ := List.pairwise_append.1 hordered
    -- The earlier ones lie in front of the last one's place.
    have hfront := ih (fun q hq => hfound q (List.mem_append_left _ hq)) hrest p.1 fun q hq =>
      hbefore q.1 (List.mem_map_of_mem hq) p.1 (List.mem_singleton_self _)
    have hlast := hfound p (List.mem_append_right _ (List.mem_singleton_self _))
    have hpn := hlt p (List.mem_append_right _ (List.mem_singleton_self _))
    have hext : (sent.map Prod.snd ++ [p.2]).Sublist (accepted.take (p.1 + 1)) := by
      rw [List.take_add_one, hlast]
      exact hfront.append (List.Sublist.refl _)
    exact hext.trans (List.take_sublist_take_left hpn)

/-- What was sent is a subsequence of what was accepted. -/
theorem Kept.sublist (hk : Kept w) : (w.history.sent.map Prod.snd).Sublist w.history.accepted :=
  sublist_of_places hk.found hk.ordered

/-- Events are sent in the order of their acceptance and none twice, and an event that is not sent is still in the queue
or gave way in a full queue, unless `2 ^ 32` events were accepted while one was in hand. -/
theorem delivered_in_order {acts : List Act} (h : Run LogStep .started acts w) :
    (w.history.sent.map Prod.snd).Sublist w.history.accepted ∧
      (∀ p ∈ w.history.sent, w.history.accepted[p.1]? = some p.2) ∧ w.history.places.Pairwise (· < ·) ∧
      (Run (Within LogStep Brief) .started acts w → ∀ k < w.history.accepted.length,
        k ∈ w.history.places ∨ w.Queued k ∨ k ∈ w.history.overwritten) := by
  have hk := Run.kept h
  refine ⟨hk.sublist, hk.found, hk.ordered, fun hbrief k hlt => ?_⟩
  by_cases hle : w.oldest ≤ k
  · exact .inr (.inl (hk.queued_of_le hle hlt))
  · exact ((Run.accounted (Run.exact hbrief)).left k (Nat.lt_of_not_le hle)).imp_right .inr

def doorOpened : LogEvent :=
  { record := { severity := 2, logArea := 6, source := none, message := 171, timestamp := 0 }
    params := none
    paramCount := 0 }

/-- What a run of steps leads to. -/
theorem replay {O : Type} {acts : List Act} (observe : LogState → O) {seen : O}
    (h : (acts.foldlM (fun w act => Act.step act w) LogState.started).map observe = some seen) :
    ∃ w, Run LogStep .started acts w ∧ observe w = seen := Run.of_foldlM_map observe h

/-- The oldest event of a full queue gives way while it is sent. -/
def overtaken : List Act :=
  List.replicate logQueueSize (.log doorOpened) ++
    [.update 0, .connect true true, .readDropped 0, .copy true, .log doorOpened, .recordSent true, .pop]

theorem overtaken_in_order :
    ∃ w, Run LogStep .started overtaken w ∧ w.history.overwritten = [0] ∧ w.history.places = [0] ∧
      w.history.accepted.length = 33 ∧ (w.history.sent.map Prod.snd).Sublist w.history.accepted ∧
      ∀ k < w.history.accepted.length, k ∈ w.history.places ∨ w.Queued k ∨ k ∈ w.history.overwritten := by
  obtain ⟨w, hrun, hseen⟩ : ∃ w, Run LogStep .started overtaken w ∧
      (w.history.overwritten, w.history.places, w.history.accepted.length) = ([0], [0], 33) := replay _ (by decide +kernel)
  obtain ⟨hover, hseen⟩ := Prod.mk.inj hseen
  obtain ⟨hplaces, hlen⟩ := Prod.mk.inj hseen
  obtain ⟨hsub, -, -, hleft⟩ := delivered_in_order hrun
  exact ⟨w, hrun, hover, hplaces, hlen, hsub, hleft (Run.brief hrun (by omega))⟩

/-! ## When the sequence numbers wrap -/

/-- Many events in a row, while the sending task is where it is. -/
theorem logs_run {event : LogEvent} {queued : QueuedLogRecord} (hq : event.queued = some queued) (w : LogState) (n : Nat) :
    ∃ w', Run LogStep w (List.replicate n (.log event)) w' ∧ w'.sender = w.sender ∧ w'.history.sent = w.history.sent ∧
      w'.history.copied = w.history.copied ∧ w'.history.accepted.length = w.history.accepted.length + n ∧
      w'.transport.queue.count = min logQueueSize (w.transport.queue.count + n) ∧
      (w.transport.queue.count + n ≤ logQueueSize → w'.transport.dropped = w.transport.dropped) := by
  induction n with
  | zero =>
    refine ⟨w, .nil, rfl, rfl, rfl, rfl, ?_, fun _ => rfl⟩
    exact (Nat.min_eq_right w.transport.queue.bounded).symm
  | succ n ih =>
    obtain ⟨w', hrun, hsender, hsent, hcopied, hlen, hcount, hdropped⟩ := ih
    have hstep : LogStep w' (.log event) (w'.accepting queued) := by
      unfold LogStep Act.step
      simp only [hq]
    refine ⟨w'.accepting queued, ?_, hsender, hsent, hcopied, ?_, ?_, fun hroom => ?_⟩
    · rw [List.replicate_succ']
      exact hrun.snoc hstep
    · change (w'.history.accepted ++ [_]).length = _
      rw [List.length_append, hlen]
      rfl
    · change (w'.transport.enqueue queued).queue.count = _
      rw [BufferedLogTransport.count_enqueue]
      unfold CircularBuffer.isFull
      split
      · rename_i hfull
        have hfull : w'.transport.queue.count = logQueueSize := of_decide_eq_true hfull
        omega
      · rename_i hnot
        have hnot : w'.transport.queue.count ≠ logQueueSize := fun h => hnot (decide_eq_true h)
        omega
    · change (w'.transport.enqueue queued).dropped = _
      rw [BufferedLogTransport.dropped_enqueue, if_neg, hdropped (by omega)]
      intro hfull
      have hfull : w'.transport.queue.count = logQueueSize := of_decide_eq_true hfull
      omega

/-- The queue is filled, its first record is copied, and `n` more events are accepted before it is popped. -/
def refill (n : Nat) : List Act :=
  List.replicate logQueueSize (.log doorOpened) ++ ([.update 0, .connect true true, .readDropped 0, .copy true] ++
    (List.replicate n (.log doorOpened) ++ [.recordSent true, .pop]))

/-- The sending task takes the first record of a full queue. -/
theorem refill_copied {w : LogState} {record : QueuedLogRecord} (hs : w.sender = .idle) (hd : w.transport.dropped = 0)
    (hfull : w.transport.queue.count = logQueueSize) (hpeek : w.transport.queue.peek = some record) :
    Run LogStep w [.update 0, .connect true true, .readDropped 0, .copy true]
      { w with sender := .sending 0 record, history := { w.history with copied := w.oldest, meanwhile := 0 } } := by
  obtain ⟨transport, sender, history⟩ := w
  obtain rfl : sender = .idle := hs
  have hpending : transport.hasPendingOutput = true := by
    unfold BufferedLogTransport.hasPendingOutput
    simp [show transport.queue.count = logQueueSize from hfull]
  have hwoken : LogStep ⟨transport, .idle, history⟩ (.update 0) ⟨transport, .woken 0, history⟩ := by
    simp [LogStep, Act.step, hpending]
  have hconnected : LogStep ⟨transport, .woken 0, history⟩ (.connect true true) ⟨transport, .noticing, history⟩ := rfl
  have hnothing : LogStep ⟨transport, .noticing, history⟩ (.readDropped 0) ⟨transport, .flushing 0, history⟩ := by
    have hd : transport.dropped = 0 := hd
    simp [LogStep, Act.step, hd]
  refine Run.cons hwoken (Run.cons hconnected (Run.cons hnothing (Run.single ?_)))
  have hpeek : transport.queue.peek = some record := hpeek
  simp [LogStep, Act.step, hpeek, LogState.oldest]

/-- When the number of the oldest record has wrapped around to that of the record in hand, the oldest is popped. -/
theorem pop_wrapped (hk : Kept w) {budget : Nat} {record : QueuedLogRecord} (hs : w.sender = .sending budget record)
    (hwrap : w.oldest = w.history.copied + 2 ^ 32) (hlt : w.oldest < w.history.accepted.length) :
    ∃ w', Run LogStep w [.recordSent true, .pop] w' ∧ w'.oldest = w.oldest + 1 ∧
      w'.history = { w.history with sent := w.history.sent ++ [(w.history.copied, record)] } := by
  obtain ⟨oldest, hpeek⟩ : ∃ oldest, w.transport.queue.peek = some oldest := by
    rw [hk.peek]
    exact ⟨_, List.getElem?_eq_getElem hlt⟩
  obtain ⟨hold, hne⟩ := hk.peek_some hpeek
  have hseq : oldest.sequence = record.sequence := by
    have hhand := (hk.inHand record (by rw [hs]; rfl)).1
    rw [hk.numbered _ _ hold, hk.numbered _ _ hhand, hwrap, stamp_add]
    exact UInt32.add_zero _
  have hpop : w.transport.popSent record = { w.transport with queue := w.transport.queue.pop } := by
    unfold BufferedLogTransport.popSent
    rw [hpeek]
    exact if_pos hseq
  have hdef : w.oldest = w.history.accepted.length - w.transport.queue.count := rfl
  have hsends : LogStep w (.recordSent true) { w with
      sender := .popping budget record
      history := { w.history with sent := w.history.sent ++ [(w.history.copied, record)] } } := by
    simp [LogStep, Act.step, hs]
  refine ⟨_, Run.cons hsends (Run.single rfl), ?_, rfl⟩
  unfold LogState.oldest
  dsimp only
  rw [hpop, count_pop]
  omega

/-- The pop takes an event that was never sent. -/
theorem sequence_wraps :
    ∃ w, Run LogStep .started (refill (2 ^ 32)) w ∧ 2 ^ 32 < w.history.accepted.length ∧
      2 ^ 32 ∉ w.history.places ∧ ¬w.Queued (2 ^ 32) ∧ 2 ^ 32 ∉ w.history.overwritten := by
  obtain ⟨queued, hq⟩ : ∃ queued, doorOpened.queued = some queued := ⟨_, rfl⟩
  obtain ⟨w₁, hrun₁, hs₁, hsent₁, -, hlen₁, hcount₁, hdrop₁⟩ := logs_run hq .started logQueueSize
  have hk₁ := Run.kept hrun₁
  have hfull₁ : w₁.transport.queue.count = 32 := hcount₁
  have hlen₁ : w₁.history.accepted.length = 32 := hlen₁
  have hold₁ : w₁.oldest = 0 := by
    unfold LogState.oldest
    omega
  obtain ⟨record, hpeek⟩ : ∃ record, w₁.transport.queue.peek = some record := by
    rw [hk₁.peek, hold₁]
    exact ⟨_, List.getElem?_eq_getElem (by omega)⟩
  have hrun₂ := hrun₁.append (refill_copied hs₁ (hdrop₁ (Nat.le_refl _)) hfull₁ hpeek)
  obtain ⟨w₂, hrun₃, hs₂, hsent₂, hcopied₂, hlen₂, hcount₂, -⟩ := logs_run hq
    { w₁ with sender := .sending 0 record, history := { w₁.history with copied := w₁.oldest, meanwhile := 0 } } (2 ^ 32)
  have hk₂ := Run.kept (hrun₂.append hrun₃)
  dsimp only at hs₂ hsent₂ hcopied₂ hlen₂ hcount₂
  have hold₂ : w₂.oldest = 2 ^ 32 := by
    unfold LogState.oldest
    omega
  obtain ⟨w₃, hrun₄, hold₃, hhist⟩ := pop_wrapped hk₂ hs₂ (by omega) (by omega)
  have hsent₃ : w₃.history.sent = [(0, record)] := by
    rw [hhist, hcopied₂, hold₁]
    simp [hsent₂, hsent₁, LogState.started]
  refine ⟨w₃, ?_, ?_, ?_, ?_, ?_⟩
  · unfold refill
    rw [← List.append_assoc, ← List.append_assoc]
    exact (hrun₂.append hrun₃).append hrun₄
  · rw [hhist]
    dsimp only
    omega
  · simp [History.places, hsent₃]
  · rintro ⟨hle, -⟩
    omega
  · intro hover
    rw [hhist] at hover
    have := hk₂.gone _ hover
    omega

end OrangeBox.Logging
