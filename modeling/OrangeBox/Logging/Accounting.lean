import OrangeBox.Logging.Delivery
/-!
# Counting what is lost

`dropped` goes up when an event gives way in a full queue and down by the count
of a notice once that was sent. `Counted`: the notices and the counter together
tell how many events gave way, a notice being counted twice from its successful
send until it is taken off. An event that gives way while `sendNow` delivers it
is counted all the same; with the number of these the count is exact
(`dropped_accounted`).
-/
open Runs Clock CircularBuffer

namespace OrangeBox.Logging

variable {w w' : LogState} {act : Act} {acts : List Act}

/-! ## What the counter counts -/

/-- `UInt32` sums are modulo `2 ^ 32`. -/
def Counted (w : LogState) : Prop :=
  w.history.noticed.sum + w.transport.dropped = UInt32.ofNat w.history.overwritten.length + w.sender.pending

theorem Effect.counted (h : Effect w w') (hc : Counted w) : Counted w' := by
  unfold Counted at hc ⊢
  cases h with
  | accepts queued =>
    change w.history.noticed.sum + (w.transport.enqueue queued).dropped =
      UInt32.ofNat (List.length (if _ then _ else _)) + w.sender.pending
    rw [BufferedLogTransport.dropped_enqueue]
    split
    · rw [List.length_append, List.length_singleton, UInt32.ofNat_add]
      grind
    · exact hc
  | moves transport sender hq hd hn hr hpop hp hp' =>
    change w.history.noticed.sum + transport.dropped = _ + sender.pending
    rw [hd, hp]
    rwa [hp'] at hc
  | notices lost hr hp =>
    change (w.history.noticed ++ [lost]).sum + w.transport.dropped = UInt32.ofNat w.history.overwritten.length + lost
    rw [List.sum_append, List.sum_singleton]
    rw [hp] at hc
    grind
  | forgets lost hs =>
    change w.history.noticed.sum + (w.transport.dropped - lost) = UInt32.ofNat w.history.overwritten.length + 0
    have hp : w.sender.pending = lost := by rw [hs]; rfl
    rw [hp] at hc
    grind
  | copies budget record hs =>
    have hp : w.sender.pending = 0 := by rw [hs]; rfl
    rwa [hp] at hc
  | sends budget record hs =>
    have hp : w.sender.pending = 0 := by rw [hs]; rfl
    rwa [hp] at hc
  | pops budget record hs =>
    have hp : w.sender.pending = 0 := by rw [hs]; rfl
    rw [hp] at hc
    exact (congrArg _ (BufferedLogTransport.dropped_popSent record)).trans hc

theorem started_counted : Counted .started := rfl

theorem Run.counted (h : Run LogStep .started acts w) : Counted w := by
  refine h.inv Counted started_counted fun w act w' hc hstep => ?_
  rcases hstep.effect with heffect | rfl
  · exact heffect.counted hc
  · exact hc

/-! ## What was lost -/

/-- The accepted events that have left the queue without being sent. -/
def LogState.lost (w : LogState) : List Nat := (List.range w.oldest).filter fun k => k ∉ w.history.places

/-- The events that gave way and were sent all the same. -/
def LogState.doubled (w : LogState) : List Nat := w.history.overwritten.filter fun k => k ∈ w.history.places

/-- The events that were taken out of the queue in place of one that was sent. -/
def LogState.strays (w : LogState) : List Nat := w.lost.filter fun k => k ∉ w.history.overwritten

/-- No event gave way that was sent. -/
def LogState.Apart (w : LogState) : Prop := ∀ k ∈ w.history.overwritten, k ∉ w.history.places

theorem Effect.overwritten_subset (h : Effect w w') : w.history.overwritten ⊆ w'.history.overwritten := by
  cases h with
  | accepts queued => exact fun k hk => mem_accepting_overwritten.2 (.inl hk)
  | _ => exact List.Subset.refl _

theorem Effect.places_subset (h : Effect w w') : w.history.places ⊆ w'.history.places := by
  cases h with
  | sends budget record hs => exact fun k hk => mem_places_sends.2 (.inl hk)
  | _ => exact List.Subset.refl _

theorem LogStep.apart (h : LogStep w act w') (ha : w'.Apart) : w.Apart := by
  rcases h.effect with heffect | rfl
  · exact fun k hover hsent => ha k (heffect.overwritten_subset hover) (heffect.places_subset hsent)
  · exact ha

/-- Where no event was both sent and overwritten, the record in hand is still the oldest. -/
theorem Accounted.exact (ha : Accounted w) (hapart : w.Apart) : w.Exact := by
  intro budget record oldest hs hpeek hseq
  obtain ⟨hat, hlo, hhi⟩ := ha.kept.inHand record (by rw [hs]; rfl)
  refine Nat.le_antisymm (Nat.le_of_not_lt fun hlt => ?_) hlo
  exact hapart _ (ha.inHand (by rw [hs]; nofun) hlt) (ha.sent budget record hs)

theorem Run.accounted_of_apart (h : Run LogStep .started acts w) (hapart : w.Apart) : Accounted w := by
  induction h with
  | nil => exact started_accounted
  | snoc _ hs ih =>
    have ha := ih (hs.apart hapart)
    rcases hs.effect with heffect | rfl
    · exact heffect.accounted (ha.exact (hs.apart hapart)) ha
    · exact ha

/-- What was lost has given way, or was taken out in place of another. -/
theorem Kept.length_lost (hk : Kept w) :
    w.lost.length + w.doubled.length = w.history.overwritten.length + w.strays.length := by
  have honce : w.history.overwritten.Nodup := hk.once.imp Nat.ne_of_lt
  have hgone : (w.lost.filter fun k => k ∈ w.history.overwritten).length =
      (w.history.overwritten.filter fun k => k ∉ w.history.places).length := by
    refine ((List.perm_ext_iff_of_nodup ((List.nodup_range.filter _).filter _) (honce.filter _)).2 fun k => ?_).length_eq
    simp only [List.mem_filter, List.mem_range, decide_eq_true_eq]
    constructor
    · rintro ⟨⟨-, hnot⟩, hover⟩
      exact ⟨hover, hnot⟩
    · rintro ⟨hover, hnot⟩
      exact ⟨⟨hk.gone k hover, hnot⟩, hover⟩
  have hlost := List.length_eq_length_filter_add (l := w.lost) fun k => k ∈ w.history.overwritten
  have hover := List.length_eq_length_filter_add (l := w.history.overwritten) fun k => k ∈ w.history.places
  simp only [← decide_not] at hlost hover
  unfold LogState.doubled LogState.strays
  omega

theorem Accounted.strays (ha : Accounted w) : w.strays = [] := by
  refine List.filter_eq_nil_iff.2 fun k hk hnot => ?_
  obtain ⟨hlt, hunsent⟩ := List.mem_filter.1 hk
  rcases ha.left k (List.mem_range.1 hlt) with hsent | hover
  · exact of_decide_eq_true hunsent hsent
  · exact of_decide_eq_true hnot hover

/-- The counts of the notices that were sent and the counter make up what was lost, the events that were sent while they
gave way, and the notice that was sent and not yet taken off. Nothing is taken out in place of another unless `2 ^ 32`
events were accepted while one was in hand. -/
theorem dropped_accounted (h : Run LogStep .started acts w) :
    w.history.noticed.sum + w.transport.dropped + UInt32.ofNat w.strays.length =
        UInt32.ofNat (w.lost.length + w.doubled.length) + w.sender.pending ∧
      (Run (Within LogStep Brief) .started acts w → w.strays = []) ∧
      (w.Apart → w.strays = [] ∧ w.doubled = []) := by
  refine ⟨?_, fun hbrief => (Run.accounted (Run.exact hbrief)).strays, fun hapart => ⟨?_, ?_⟩⟩
  · -- The counter has one for each event that gave way.
    have hcounted := Run.counted h
    unfold Counted at hcounted
    rw [(Run.kept h).length_lost, UInt32.ofNat_add, hcounted]
    grind
  · exact (Run.accounted_of_apart h hapart).strays
  · exact List.filter_eq_nil_iff.2 fun k hover hsent => hapart k hover (of_decide_eq_true hsent)

/-- An event gives way while it is sent, and the next one is lost. -/
def outrun : List Act := overtaken ++ [.log doorOpened]

theorem outrun_accounted : ∃ w, Run LogStep .started outrun w ∧ w.lost = [1] ∧ w.doubled = [0] ∧
    w.history.noticed.sum + w.transport.dropped = UInt32.ofNat (w.lost.length + w.doubled.length) + w.sender.pending := by
  obtain ⟨w, hrun, hseen⟩ : ∃ w, Run LogStep .started outrun w ∧
      (w.lost, w.doubled, w.history.accepted.length) = ([1], [0], 34) := replay _ (by decide +kernel)
  obtain ⟨hlost, hseen⟩ := Prod.mk.inj hseen
  obtain ⟨hdoubled, hlen⟩ := Prod.mk.inj hseen
  obtain ⟨hcount, hbrief, -⟩ := dropped_accounted hrun
  rw [hbrief (Run.brief hrun (by omega))] at hcount
  exact ⟨w, hrun, hlost, hdoubled, (UInt32.add_zero _).symm.trans hcount⟩

/-- An event gives way, and the notice is sent. -/
def overflow : List Act :=
  List.replicate (logQueueSize + 1) (.log doorOpened) ++ [.update 0, .connect true true, .readDropped 0, .noticeSent true]

/-- What the notices and the counter make up, and how many events were lost. -/
def LogState.counts (w : LogState) : UInt32 × Nat := (w.history.noticed.sum + w.transport.dropped, w.lost.length)

theorem replay_counts {made : UInt32} {lost : Nat} (hne : made ≠ UInt32.ofNat lost)
    (h : (acts.foldlM (fun w act => Act.step act w) LogState.started).map LogState.counts = some (made, lost)) :
    ∃ w, Run LogStep .started acts w ∧ w.history.noticed.sum + w.transport.dropped ≠ UInt32.ofNat w.lost.length := by
  obtain ⟨w, hrun, hseen⟩ := replay LogState.counts h
  obtain ⟨hmade, hlost⟩ := Prod.mk.inj hseen
  refine ⟨w, hrun, ?_⟩
  rwa [hmade, hlost]

/-- Until it is taken off, a notice counts twice; and an event that is sent may count as dropped. -/
theorem dropped_miscounted :
    (∃ w, Run LogStep .started overflow w ∧ w.history.noticed.sum + w.transport.dropped ≠ UInt32.ofNat w.lost.length) ∧
      ∃ w, Run LogStep .started overtaken w ∧ w.history.noticed.sum + w.transport.dropped ≠ UInt32.ofNat w.lost.length := by
  constructor
  · exact replay_counts (show (2 : UInt32) ≠ UInt32.ofNat 1 by decide) (by decide +kernel)
  · exact replay_counts (show (1 : UInt32) ≠ UInt32.ofNat 0 by decide) (by decide +kernel)

end OrangeBox.Logging
