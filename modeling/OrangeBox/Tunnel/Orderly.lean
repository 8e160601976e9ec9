import OrangeBox.Tunnel.Carried
import OrangeBox.Tunnel.Handlers
/-!
# A tunnel in order

Every channel that was accepted is with a slot, in a queue or in hand, and the
handlers were told of the slots that have one. This holds between any two calls.
-/
open Ledger Runs

namespace OrangeBox.Tunnel

variable {R W : Type} {rb : Ringbuf R}

namespace SSHTunnel

open ChannelManager (Steady)

variable (session : Session W) (config : ConnectionConfig) {t t' : SSHTunnel rb (Recorded W)} {n : Nat} {hand : List Channel}
  {channel : Channel} {mapping : TunnelConfig}

/-- The slots with a channel. -/
def opens (t : SSHTunnel rb (Recorded W)) : Finset Nat := t.transport.channels.opens

/-- The channels that wait for a slot or for their close. -/
def waiting (t : SSHTunnel rb (Recorded W)) : List Channel := (t.pendingQueue ++ t.deferredCloseQueue).map (·.channel)

/-- The channels that are not with a slot are those in hand. Of the `n` slots the
handlers know, if there is room for an event of each. -/
def Orderly (n : Nat) (hand : List Channel) (t : SSHTunnel rb (Recorded W)) : Prop :=
  t.transport.Has hand ∧ (n ≤ maxCloseEvents → seen t.emitted = some ⟨decide (t.state = .connected), t.opens⟩) ∧
    t.transport.channels.slots.length = n ∧ t.transport.pendingCloseEvents = [] ∧ t.transport.sessionDegraded = false

/-- A tunnel without a session has no channels. -/
def Down (t : SSHTunnel rb (Recorded W)) : Prop := t.opens = ∅ ∧ t.pendingQueue = [] ∧ t.deferredCloseQueue = []

/-- What holds between two calls. -/
structure Settled (n : Nat) (t : SSHTunnel rb (Recorded W)) : Prop where
  orderly : Orderly n t.waiting t
  state : t.state ≠ .connecting
  down : t.state ≠ .connected → Down t

/-- The state and the queues are as before. -/
def Kept (t t' : SSHTunnel rb (Recorded W)) : Prop :=
  t'.state = t.state ∧ t'.pendingQueue = t.pendingQueue ∧ t'.deferredCloseQueue = t.deferredCloseQueue

theorem Kept.refl (t : SSHTunnel rb (Recorded W)) : Kept t t := ⟨rfl, rfl, rfl⟩

theorem Kept.trans {t'' : SSHTunnel rb (Recorded W)} (h : Kept t t') (h' : Kept t' t'') : Kept t t'' :=
  ⟨h'.1.trans h.1, h'.2.1.trans h.2.1, h'.2.2.trans h.2.2⟩

theorem Kept.waiting (h : Kept t t') : t'.waiting = t.waiting := by rw [SSHTunnel.waiting, SSHTunnel.waiting, h.2.1, h.2.2]

theorem Orderly.onChannels {A : Type} {f : ChannelManager rb (Recorded W) → A × ChannelManager rb (Recorded W)}
    {hand' : List Channel} (h : Orderly n hand t) (hf : t.transport.channels.Has hand → (f t.transport.channels).2.Has hand')
    (hs : Steady t.transport.channels (f t.transport.channels).2) : Orderly n hand' (t.onChannels f).2 := by
  obtain ⟨hhas, htold, hrest⟩ := h
  refine ⟨hf hhas, fun hsmall => ?_, hs.2.trans hrest.1, hrest.2⟩
  exact (htold hsmall).trans (congrArg (fun c => some (Seen.mk _ c)) hs.1.symm)

/-- A call that has nothing to do with channels. -/
theorem Orderly.onWorld {A : Type} {f : Recorded W → A × Recorded W} (h : Orderly n hand t) (hf : ∀ w, (f w).2.2 = w.2) :
    Orderly n hand (t.onWorld f).2 := by
  refine h.onChannels (fun hm => ⟨?_, hm.2⟩) (.refl _)
  exact (congrArg (Holds · _) (hf _)).mpr hm.1

theorem Orderly.changeWorld {f : Recorded W → Recorded W} (h : Orderly n hand t) (hf : ∀ w, (f w).2 = w.2) :
    Orderly n hand (t.changeWorld f) := h.onWorld hf

theorem Orderly.forget {hand' : List Channel} (h : Orderly n hand t) (hs : List.Subperm hand' hand) : Orderly n hand' t :=
  ⟨⟨h.1.1.forget ((List.subperm_append_left _).2 hs), h.1.2⟩, h.2⟩

/-! ## Channels in hand -/

theorem Orderly.dropChannel (h : Orderly n (channel :: hand) t) : Orderly n hand (t.dropChannel session.recorded channel) := by
  have hclose : Orderly n (channel :: hand) (t.onWorld (session.recorded.channelClose channel)).2 := by
    refine h.onChannels (fun hm => ⟨?_, hm.2⟩) (.refl _)
    exact hm.1.use (List.mem_append_right _ List.mem_cons_self)
  refine hclose.onChannels (fun hm => ⟨?_, hm.2⟩) (.refl _)
  exact (hm.1.forget List.perm_middle.symm.subperm).release _

theorem Orderly.closeAcceptedChannel (h : Orderly n (channel :: hand) t) (ticks : Nat) :
    ∃ closed t', t.closeAcceptedChannel session.recorded channel ticks = (closed, t') ∧ Kept t t' ∧
      Orderly n (if closed then hand else channel :: hand) t' := by
  have hlock := h.onWorld (f := session.recorded.lock ticks) fun _ => rfl
  unfold SSHTunnel.closeAcceptedChannel
  dsimp only
  split
  · exact ⟨true, _, rfl, .refl _, (hlock.dropChannel session).changeWorld fun _ => rfl⟩
  · exact ⟨false, _, rfl, .refl _, hlock⟩

/-- A bound channel is announced, another is still in hand. -/
theorem Orderly.bindChannel (h : Orderly n (channel :: hand) t) (hup : t.state = .connected) (slot : Nat)
    (mapping : TunnelConfig) :
    ∃ bound t', t.onChannels (ChannelManager.bindChannel session.recorded.toNet slot channel mapping) = (bound, t') ∧
      Kept t t' ∧ if bound then Orderly n hand (t'.emit (.channelOpened slot)) else Orderly n (channel :: hand) t' := by
  obtain ⟨hhas, htold, hrest⟩ := h
  obtain ⟨bound, m, heq, hhas'⟩ := ChannelManager.Has.bindChannel session.toNet slot hhas mapping
  obtain ⟨bound', m', heq', hlength, hopens⟩ :=
    ChannelManager.opens_bindChannel session.toNet t.transport.channels slot channel mapping
  obtain ⟨rfl, rfl⟩ := Prod.mk.inj (heq.symm.trans heq')
  refine ⟨bound, { t with transport := { t.transport with channels := m } }, ?_, .refl _, ?_⟩
  · simp only [SSHTunnel.onChannels, Session.recorded, heq]
  cases bound with
  | false =>
    refine ⟨hhas', fun hsmall => ?_, hlength.trans hrest.1, hrest.2⟩
    exact (htold hsmall).trans (congrArg (fun c => some (Seen.mk _ c)) hopens.symm)
  | true =>
    refine ⟨hhas', fun hsmall => ?_, hlength.trans hrest.1, hrest.2⟩
    refine (seen_snoc _ _).trans ?_
    rw [htold hsmall]
    simp only [if_true] at hopens
    simp [Seen.next, hup, SSHTunnel.emit, opens, hopens]

theorem Orderly.bindAcceptedChannel (h : Orderly n (channel :: hand) t) (hup : t.state = .connected) (slot ticks : Nat)
    (mapping : TunnelConfig) :
    ∃ r t', t.bindAcceptedChannel session.recorded slot channel mapping ticks = (r, t') ∧ Kept t t' ∧
      match r with
      | .bound => Orderly n hand (t'.emit (.channelOpened slot))
      | _ => Orderly n (channel :: hand) t' := by
  have hlock := h.onWorld (f := session.recorded.lock ticks) fun _ => rfl
  obtain ⟨bound, t', heq, hkept, hbound⟩ := hlock.bindChannel session hup slot mapping
  unfold SSHTunnel.bindAcceptedChannel
  dsimp only
  split
  · exact ⟨.lockUnavailable, _, rfl, .refl _, hlock⟩
  rw [heq]
  cases bound with
  | false => exact ⟨.failed, _, rfl, hkept, hbound.changeWorld fun _ => rfl⟩
  | true => exact ⟨.bound, _, rfl, hkept, hbound.changeWorld fun _ => rfl⟩

/-- A channel that cannot be closed is queued. -/
theorem Orderly.enqueueDeferredClose (h : Orderly n (channel :: t.waiting) t) (mapping : TunnelConfig) :
    ∃ queued t', t.enqueueDeferredClose session.recorded channel mapping = (queued, t') ∧ t'.state = t.state ∧
      Orderly n (if queued then t'.waiting else channel :: t'.waiting) t' := by
  obtain ⟨closed, t', heq, hkept, hclose⟩ := h.closeAcceptedChannel session 200
  unfold SSHTunnel.enqueueDeferredClose
  rw [heq]
  dsimp only
  cases closed with
  | true => exact ⟨true, _, rfl, hkept.1, hkept.waiting ▸ hclose⟩
  | false =>
    simp only [Bool.false_eq_true, if_false] at hclose ⊢
    rw [← hkept.waiting] at hclose
    split
    · exact ⟨false, _, rfl, hkept.1, hclose⟩
    · refine ⟨true, _, rfl, hkept.1, ?_⟩
      have hnow := hclose.onWorld (f := session.recorded.millis) fun _ => rfl
      refine Orderly.forget (t := (t'.onWorld session.recorded.millis).2) hnow ?_
      simp only [SSHTunnel.waiting, List.map_append, List.map_cons, List.map_nil, ← List.append_assoc]
      exact (List.perm_append_singleton channel _).subperm

theorem Orderly.enqueuePending (h : Orderly n (channel :: t.waiting) t) (mapping : TunnelConfig) :
    (t.enqueuePending session.recorded channel mapping).state = t.state ∧
      Orderly n (t.enqueuePending session.recorded channel mapping).waiting
        (t.enqueuePending session.recorded channel mapping) := by
  refine ⟨rfl, ?_⟩
  have hnow := h.onWorld (f := session.recorded.millis) fun _ => rfl
  refine Orderly.forget (t := (t.onWorld session.recorded.millis).2) hnow ?_
  simp only [SSHTunnel.enqueuePending, SSHTunnel.waiting, List.map_append, List.map_cons, List.append_assoc,
    List.singleton_append]
  exact List.perm_middle.subperm

/-- A whole queue is dropped. -/
theorem Orderly.dropAll {queue : List PendingChannel} (h : Orderly n (queue.map (·.channel) ++ hand) t) :
    Kept t (t.dropAll session.recorded queue) ∧ Orderly n hand (t.dropAll session.recorded queue) := by
  induction queue generalizing t with
  | nil => exact ⟨.refl t, h⟩
  | cons p queue ih =>
    obtain ⟨hkept, hdrop⟩ := ih (h.dropChannel session)
    exact ⟨hkept, hdrop⟩

theorem Orderly.clearPendingQueue (h : Orderly n t.waiting t) :
    (t.clearPendingQueue session.recorded).state = t.state ∧
      Orderly n (t.clearPendingQueue session.recorded).waiting (t.clearPendingQueue session.recorded) := by
  unfold SSHTunnel.clearPendingQueue
  split
  · exact ⟨rfl, h⟩
  have hlock := h.onWorld (f := session.recorded.lock 500) fun _ => rfl
  dsimp only
  split
  · rw [SSHTunnel.waiting, List.map_append] at hlock
    obtain ⟨hkept, hdrop⟩ := hlock.dropAll session
    refine ⟨hkept.1, ?_⟩
    have hcleared := hdrop.changeWorld (f := session.recorded.unlock) fun _ => rfl
    refine Orderly.forget (t := (SSHTunnel.dropAll _ _ _).changeWorld session.recorded.unlock) hcleared ?_
    exact (List.Perm.of_eq (congrArg (List.map PendingChannel.channel) hkept.2.2)).subperm
  · exact ⟨rfl, hlock⟩

theorem Orderly.clearDeferredCloseQueue (h : Orderly n t.waiting t) :
    (t.clearDeferredCloseQueue session.recorded).state = t.state ∧
      Orderly n (t.clearDeferredCloseQueue session.recorded).waiting (t.clearDeferredCloseQueue session.recorded) := by
  unfold SSHTunnel.clearDeferredCloseQueue
  split
  · exact ⟨rfl, h⟩
  have hlock := h.onWorld (f := session.recorded.lock 500) fun _ => rfl
  dsimp only
  split
  · have hswap : Orderly n (t.deferredCloseQueue.map (·.channel) ++ t.pendingQueue.map (·.channel))
        (t.onWorld (session.recorded.lock 500)).2 := by
      refine hlock.forget ?_
      rw [SSHTunnel.waiting, List.map_append]
      exact List.perm_append_comm.subperm
    obtain ⟨hkept, hdrop⟩ := hswap.dropAll session
    refine ⟨hkept.1, ?_⟩
    have hcleared := hdrop.changeWorld (f := session.recorded.unlock) fun _ => rfl
    refine Orderly.forget (t := (SSHTunnel.dropAll _ _ _).changeWorld session.recorded.unlock) hcleared ?_
    simp only [SSHTunnel.waiting, List.append_nil]
    exact (List.Perm.of_eq (congrArg (List.map PendingChannel.channel) hkept.2.1)).subperm
  · exact ⟨rfl, hlock⟩

theorem Orderly.clearQueues (h : Orderly n t.waiting t) :
    (t.clearQueues session.recorded).state = t.state ∧
      Orderly n (t.clearQueues session.recorded).waiting (t.clearQueues session.recorded) := by
  obtain ⟨hstate, hpending⟩ := h.clearPendingQueue session
  obtain ⟨hstate', hdeferred⟩ := hpending.clearDeferredCloseQueue session
  exact ⟨hstate'.trans hstate, hdeferred⟩

/-! ## Giving up -/

/-- The session is gone and nobody is told of slots that have a channel. -/
structure Torn (n : Nat) (t : SSHTunnel rb (Recorded W)) : Prop where
  none : Holds t.world.2 []
  fine : t.transport.channels.Fine
  told : n ≤ maxCloseEvents → seen t.emitted = some ⟨decide (t.state = .connected), ∅⟩
  length : t.transport.channels.slots.length = n
  events : t.transport.pendingCloseEvents = []
  good : t.transport.sessionDegraded = false

theorem Torn.abandonSlot (h : Torn n t) (i : Nat) :
    Torn n (t.changeChannels (.abandonSlot session.recorded.toNet i)) ∧
      (t.changeChannels (.abandonSlot session.recorded.toNet i)).opens = t.opens.erase i := by
  refine ⟨⟨?_, ?_, h.told, (ChannelManager.length_atSlotWith _ _).trans h.length, h.events, h.good⟩, ChannelManager.opens_abandonSlot _ _ _⟩
  · refine (congrArg (Holds · _) ?_).mpr h.none
    simp only [SSHTunnel.world, SSHTunnel.changeChannels, SSHTunnel.onChannels, ChannelManager.abandonSlot,
      ChannelManager.atSlot, ChannelManager.atSlotWith]
    split
    · rfl
    · exact Turn.abandonSlot_spec.2.2
  · exact h.fine.atSlotWith fun _ _ => Turn.abandonSlot_spec.1

theorem Torn.abandonAll (h : Torn n t) (slots : List Nat) :
    Torn n (slots.foldl (fun t i => t.changeChannels (.abandonSlot session.recorded.toNet i)) t) ∧
      (slots.foldl (fun t i => t.changeChannels (.abandonSlot session.recorded.toNet i)) t).state = t.state ∧
      (slots.foldl (fun t i => t.changeChannels (.abandonSlot session.recorded.toNet i)) t).opens = t.opens \ slots.toFinset := by
  induction slots generalizing t with
  | nil => exact ⟨h, rfl, by simp⟩
  | cons i slots ih =>
    obtain ⟨hone, hopens⟩ := h.abandonSlot session i
    obtain ⟨hall, hstate, hopens'⟩ := ih hone
    refine ⟨hall, hstate, hopens'.trans ?_⟩
    rw [hopens, List.toFinset_cons, Finset.sdiff_insert, Finset.erase_sdiff_comm]

/-- After that all slots are free and nothing is held. -/
theorem Torn.forgetAll (h : Torn n t) :
    (t.forgetAll session.recorded).state = t.state ∧ Orderly n [] (t.forgetAll session.recorded) ∧
      Down (t.forgetAll session.recorded) := by
  obtain ⟨hall, hstate, hopens⟩ := h.abandonAll session t.slotIndices
  unfold SSHTunnel.forgetAll
  dsimp only
  generalize t.slotIndices.foldl (fun t i => t.changeChannels (.abandonSlot session.recorded.toNet i)) t = t' at hall hstate hopens ⊢
  have hfree : t'.opens = ∅ := by
    rw [hopens]
    ext i
    simp only [Finset.mem_sdiff, List.mem_toFinset, slotIndices, List.mem_range, Finset.notMem_empty, iff_false, not_and_not_right]
    intro hi
    obtain ⟨s, hs, _⟩ := ChannelManager.mem_opens.1 hi
    exact (List.getElem?_eq_some_iff.1 hs).1
  have hnone : ChannelManager.channelsOf t'.transport.channels.slots = [] := by
    refine List.flatMap_eq_nil_iff.2 fun s hs => ?_
    obtain ⟨i, hi⟩ := List.getElem?_of_mem hs
    have hidle : s.ch.active = false := by
      by_contra ha
      have hm : i ∈ t'.opens := ChannelManager.mem_opens.2 ⟨s, hi, by simpa using ha⟩
      rw [hfree] at hm
      cases hm
    rw [hall.fine.1 s hs hidle]
    rfl
  refine ⟨hstate, ⟨⟨?_, hall.fine⟩, fun hsmall => ?_, hall.length, hall.events, hall.good⟩, hfree, rfl, rfl⟩
  · rw [hnone]
    exact hall.none
  · exact (hall.told hsmall).trans (congrArg (fun c => some (Seen.mk _ c)) hfree.symm)

/-- The session is closed when no slot has a channel. -/
theorem Orderly.disconnected (h : Orderly n hand t) (hf : t.opens = ∅) : Torn n (t.changeWorld session.recorded.disconnect) := by
  obtain ⟨hhas, htold, hlength, hevents, hgood⟩ := h
  refine ⟨hhas.1.close, hhas.2, fun hsmall => ?_, hlength, hevents, hgood⟩
  rw [hf] at htold
  exact htold hsmall

/-- Part of the slots are given up: the handlers know of the others. -/
structure GivingUp (n : Nat) (hand : List Channel) (start : Finset Nat) (k : Nat) (t : SSHTunnel rb (Recorded W)) : Prop where
  has : t.transport.Has hand
  told : n ≤ maxCloseEvents → seen t.emitted = some ⟨decide (t.state = .connected), start.filter (k ≤ ·)⟩
  rest : ∀ i, k ≤ i → (i ∈ t.opens ↔ i ∈ start)
  length : t.transport.channels.slots.length = n
  events : t.transport.pendingCloseEvents = []
  good : t.transport.sessionDegraded = false

theorem filter_le_succ (start : Finset Nat) (k : Nat) : start.filter (k + 1 ≤ ·) = (start.filter (k ≤ ·)).erase k := by
  ext i
  simp only [Finset.mem_filter, Finset.mem_erase]
  constructor
  · rintro ⟨hi, hle⟩
    exact ⟨by omega, hi, by omega⟩
  · rintro ⟨hke, hi, hle⟩
    exact ⟨hi, by omega⟩

variable {locked : Bool} {reason : ChannelSlot rb → ChannelCloseReason} {start : Finset Nat}

theorem GivingUp.step {k : Nat} (h : GivingUp n hand start k t) (hup : start.Nonempty → t.state = .connected) :
    (t.giveUpSlot session.recorded locked reason k).state = t.state ∧
      GivingUp n hand start (k + 1) (t.giveUpSlot session.recorded locked reason k) := by
  -- a slot that is not active was not announced
  have hskip : k ∉ t.opens → GivingUp n hand start (k + 1) t := by
    intro hk
    refine ⟨h.has, fun hsmall => ?_, fun i hi => h.rest i (by omega), h.length, h.events, h.good⟩
    rw [filter_le_succ, Finset.erase_eq_of_notMem]
    · exact h.told hsmall
    · exact fun hm => hk ((h.rest k le_rfl).2 (Finset.mem_filter.1 hm).1)
  have hclose : ∀ m : ChannelManager rb (Recorded W), m.Has hand → (∀ i, i ≠ k → (i ∈ m.opens ↔ i ∈ t.opens)) →
      m.slots.length = t.transport.channels.slots.length → k ∈ t.opens → ∀ why,
      GivingUp n hand start (k + 1)
        (emit (.channelClosed k why) { t with transport := { t.transport with channels := m } }) := by
    intro m hhas hothers hlength hk why
    have hin : k ∈ start := (h.rest k le_rfl).1 hk
    refine ⟨hhas, fun hsmall => ?_, fun i hi => (hothers i (by omega)).trans (h.rest i (by omega)), hlength.trans h.length,
      h.events, h.good⟩
    refine (seen_snoc _ _).trans ?_
    rw [h.told hsmall, filter_le_succ]
    simp [Seen.next, hup ⟨k, hin⟩, hin, SSHTunnel.emit]
  unfold SSHTunnel.giveUpSlot
  split
  · rename_i hnone
    refine ⟨rfl, hskip fun hk => ?_⟩
    obtain ⟨s, hs, _⟩ := ChannelManager.mem_opens.1 hk
    cases hnone.symm.trans hs
  rename_i s hs
  split
  · rename_i ha
    have hk : k ∈ t.opens := ChannelManager.mem_opens.2 ⟨s, hs, ha⟩
    cases locked with
    | true =>
      have hhas : (t.transport.channels.finalizeClose session.toNet.recorded k).2.Has hand :=
        ChannelManager.Has.finalizeClose h.has
      refine ⟨rfl, hclose _ hhas (fun i hi => ?_) (ChannelManager.length_atSlotWith _ _) hk _⟩
      refine (Finset.ext_iff.1 (ChannelManager.opens_finalizeClose _ _ _) i).trans ?_
      split
      · exact Finset.mem_erase.trans (and_iff_right hi)
      · rfl
    | false =>
      have hhas : (t.transport.channels.abandonSlot session.toNet.recorded k).Has hand :=
        ChannelManager.Has.abandonSlot h.has
      refine ⟨rfl, hclose _ hhas (fun i hi => ?_) (ChannelManager.length_atSlotWith _ _) hk _⟩
      exact (Finset.ext_iff.1 (ChannelManager.opens_abandonSlot _ _ _) i).trans (Finset.mem_erase.trans (and_iff_right hi))
  · rename_i hnot
    refine ⟨rfl, hskip fun hk => ?_⟩
    obtain ⟨s', hs', ha⟩ := ChannelManager.mem_opens.1 hk
    exact hnot (Option.some.inj (hs'.symm.trans hs) ▸ ha)

variable (locked reason) in
theorem GivingUp.all (h : GivingUp n hand start 0 t) (hup : start.Nonempty → t.state = .connected) (k : Nat) :
    ((List.range k).foldl (giveUpSlot session.recorded locked reason) t).state = t.state ∧
      GivingUp n hand start k ((List.range k).foldl (giveUpSlot session.recorded locked reason) t) := by
  induction k with
  | zero => exact ⟨rfl, h⟩
  | succ k ih =>
    rw [List.range_succ, List.foldl_append]
    obtain ⟨hstate, hall⟩ := ih
    obtain ⟨hstate', hstep⟩ := hall.step session fun hke => hstate.trans (hup hke)
    exact ⟨hstate'.trans hstate, hstep⟩

variable (locked reason) in
/-- Every channel is closed, and the handlers know it. -/
theorem Orderly.giveUp (h : Orderly n hand t) (hup : t.opens.Nonempty → t.state = .connected) :
    (t.giveUp session.recorded locked reason).state = t.state ∧ Orderly n [] (t.giveUp session.recorded locked reason) ∧
      Down (t.giveUp session.recorded locked reason) := by
  obtain ⟨hhas, htold, hrest⟩ := h
  have hstart : GivingUp n hand t.opens 0 t :=
    ⟨hhas, fun hsmall => by simpa using htold hsmall, fun _ _ => Iff.rfl, hrest.1, hrest.2.1, hrest.2.2⟩
  obtain ⟨hstate, hall⟩ := hstart.all session locked reason hup t.transport.channels.slots.length
  have hnobody : t.opens.filter (t.transport.channels.slots.length ≤ ·) = ∅ := by
    refine Finset.filter_eq_empty_iff.2 fun i hi => ?_
    obtain ⟨s, hs, _⟩ := ChannelManager.mem_opens.1 hi
    exact not_le.2 (List.getElem?_eq_some_iff.1 hs).1
  unfold SSHTunnel.giveUp SSHTunnel.slotIndices
  dsimp only
  generalize (List.range t.transport.channels.slots.length).foldl _ t = t' at hstate hall ⊢
  have htorn : Torn n ((if locked then t'.changeWorld session.recorded.unlock else t').changeWorld session.recorded.disconnect) := by
    have htold' : n ≤ maxCloseEvents → seen t'.emitted = some ⟨decide (t'.state = .connected), ∅⟩ := by
      rw [← hnobody]
      exact hall.told
    split
    · exact ⟨hall.has.1.close, hall.has.2, htold', hall.length, hall.events, hall.good⟩
    · exact ⟨hall.has.1.close, hall.has.2, htold', hall.length, hall.events, hall.good⟩
  obtain ⟨hstate', hforgot⟩ := htorn.forgetAll session
  refine ⟨hstate'.trans ?_, hforgot⟩
  split <;> exact hstate

/-- Without a session nothing is held. -/
theorem Settled.of_down (h : Orderly n [] t) (hd : Down t) (hs : t.state ≠ .connecting) : Settled n t := by
  refine ⟨?_, hs, fun _ => hd⟩
  rw [waiting, hd.2.1, hd.2.2]
  exact h

theorem Orderly.enterErrorState (h : Orderly n t.waiting t) (hup : t.state = .connected) :
    Settled n (t.enterErrorState session.recorded) ∧ (t.enterErrorState session.recorded).state = .error := by
  obtain ⟨hstate, hclear⟩ := h.clearQueues session
  have hlock := hclear.onWorld (f := session.recorded.lock 500) fun _ => rfl
  unfold SSHTunnel.enterErrorState
  dsimp only
  generalize hl : (t.clearQueues session.recorded).onWorld (session.recorded.lock 500) = locked at hlock ⊢
  have hconnected : locked.2.state = .connected := by
    rw [← hl]
    exact hstate.trans hup
  obtain ⟨hstate', hgiven, hdown⟩ := hlock.giveUp session locked.1
    (fun ch => if ch.closeReason = .unknown then .error else ch.closeReason) fun _ => hconnected
  generalize locked.2.giveUp session.recorded locked.1 _ = given at hstate' hgiven hdown ⊢
  refine ⟨Settled.of_down ?_ hdown (by simp [SSHTunnel.emit]), rfl⟩
  obtain ⟨hhas, htold, hrest⟩ := hgiven.onWorld (f := session.recorded.millis) fun _ => rfl
  refine ⟨hhas, fun hsmall => ?_, hrest⟩
  refine (seen_snoc _ _).trans (Eq.trans ?_ (congrArg (fun c => some (Seen.mk false c)) hdown.1.symm))
  have hnone : (given.onWorld session.recorded.millis).2.opens = ∅ := hdown.1
  have hconnected' : (given.onWorld session.recorded.millis).2.state = .connected := hstate'.trans hconnected
  rw [htold hsmall, hnone, hconnected']
  rfl

theorem clearQueues_of_down (h : Down t) : t.clearQueues session.recorded = t := by
  have hpending : t.clearPendingQueue session.recorded = t := by simp [SSHTunnel.clearPendingQueue, h.2.1]
  rw [SSHTunnel.clearQueues, hpending]
  simp [SSHTunnel.clearDeferredCloseQueue, h.2.2]

theorem Orderly.lockConnected (h : Orderly n hand t) :
    (t.lockConnected session.recorded).2.state = t.state ∧ (t.lockConnected session.recorded).2.opens = t.opens ∧
      Orderly n hand (t.lockConnected session.recorded).2 := by
  unfold SSHTunnel.lockConnected
  split
  · exact ⟨rfl, rfl, h.onWorld fun _ => rfl⟩
  · exact ⟨rfl, rfl, h⟩

theorem Settled.disconnect (h : Settled n t) : Settled n (t.disconnect session.recorded) := by
  obtain ⟨hstate, hclear⟩ := h.orderly.clearQueues session
  obtain ⟨hstate', hopens, hlock⟩ := hclear.lockConnected session
  have hup : ((t.clearQueues session.recorded).lockConnected session.recorded).2.opens.Nonempty →
      ((t.clearQueues session.recorded).lockConnected session.recorded).2.state = .connected := by
    intro hne
    by_cases hs : t.state = .connected
    · exact (hstate'.trans hstate).trans hs
    · rw [hopens, clearQueues_of_down session (h.down hs), (h.down hs).1] at hne
      cases Finset.not_nonempty_empty hne
  unfold SSHTunnel.disconnect
  dsimp only
  generalize (t.clearQueues session.recorded).lockConnected session.recorded = locked at hlock hup ⊢
  obtain ⟨_, ⟨hhas, htold, hrest⟩, hdown⟩ := hlock.giveUp session locked.1 (fun _ => .manual) hup
  generalize locked.2.giveUp session.recorded locked.1 _ = given at hhas htold hrest hdown ⊢
  have hnone : given.opens = ∅ := hdown.1
  split
  · rename_i hs
    refine Settled.of_down ⟨hhas, fun hsmall => ?_, hrest⟩ hdown (by simp)
    refine (seen_snoc _ _).trans (Eq.trans ?_ (congrArg (fun c => some (Seen.mk false c)) hnone.symm))
    rw [htold hsmall, hnone, hs]
    rfl
  · rename_i hs
    refine Settled.of_down ⟨hhas, fun hsmall => (htold hsmall).trans ?_, hrest⟩ hdown (by simp)
    simp only [hs]
    rfl

/-! ## Connecting -/

theorem Settled.connectSSH (h : Settled n t) : Settled n (t.connectSSH session.recorded).2 := by
  unfold SSHTunnel.connectSSH
  split
  · exact h
  rename_i hs
  obtain ⟨hdown, horderly⟩ : Down t ∧ Orderly n [] t := by
    have hdown := h.down hs
    have horderly := h.orderly
    rw [waiting, hdown.2.1, hdown.2.2] at horderly
    exact ⟨hdown, horderly⟩
  obtain ⟨hhas, htold, hrest⟩ := horderly.onWorld (f := session.recorded.millis) fun _ => rfl
  have hconnecting : Orderly n [] { (t.onWorld session.recorded.millis).2 with
      state := .connecting, lastConnectionAttempt := (t.onWorld session.recorded.millis).1 } := by
    refine ⟨hhas, fun hsmall => (htold hsmall).trans ?_, hrest⟩
    have hs' : (t.onWorld session.recorded.millis).2.state ≠ .connected := hs
    simp only [hs']
    rfl
  have hconnect := hconnecting.onWorld (f := session.recorded.connect) fun _ => rfl
  have hdown' : Down (onWorld session.recorded.connect { (t.onWorld session.recorded.millis).2 with
      state := .connecting, lastConnectionAttempt := (t.onWorld session.recorded.millis).1 }).2 := hdown
  dsimp only
  generalize hc : onWorld session.recorded.connect { (t.onWorld session.recorded.millis).2 with
      state := .connecting, lastConnectionAttempt := (t.onWorld session.recorded.millis).1 } = connected at hconnect hdown' ⊢
  -- While it connects no channel is open, so the session may be told up.
  have hnot : connected.2.state = .connecting := by rw [← hc]; rfl
  have hnone : connected.2.opens = ∅ := hdown'.1
  split
  · obtain ⟨hhas, htold, hrest⟩ := hconnect
    refine Settled.of_down ⟨hhas, fun hsmall => ?_, hrest⟩ hdown' (by simp [SSHTunnel.emit])
    refine (seen_snoc _ _).trans (Eq.trans ?_ (congrArg (fun c => some (Seen.mk false c)) hnone.symm))
    rw [htold hsmall, hnone, hnot]
    rfl
  · obtain ⟨hhas, htold, hrest⟩ := hconnect.onWorld (f := session.recorded.millis) fun _ => rfl
    have horderly : Orderly n [] (emit .sessionConnected { (connected.2.onWorld session.recorded.millis).2 with
        state := .connected, reconnectAttempts := 0, socketHealthFailures := 0
        lastKeepAlive := (connected.2.onWorld session.recorded.millis).1 }) := by
      refine ⟨hhas, fun hsmall => ?_, hrest⟩
      refine (seen_snoc _ _).trans (Eq.trans ?_ (congrArg (fun c => some (Seen.mk true c)) hnone.symm))
      have hnone' : (connected.2.onWorld session.recorded.millis).2.opens = ∅ := hnone
      have hnot' : (connected.2.onWorld session.recorded.millis).2.state = .connecting := hnot
      rw [htold hsmall, hnone', hnot']
      rfl
    exact Settled.of_down horderly hdown' (by simp [SSHTunnel.emit])

theorem Settled.cooldown (h : Settled n t) :
    Settled n (t.cooldown session.recorded config).2 ∧ (t.cooldown session.recorded config).2.state = t.state := by
  have hnow : Orderly n t.waiting (t.onWorld session.recorded.millis).2 := h.orderly.onWorld fun _ => rfl
  unfold SSHTunnel.cooldown
  split
  · dsimp only
    split
    · exact ⟨⟨hnow, h.state, h.down⟩, rfl⟩
    · exact ⟨⟨hnow, h.state, h.down⟩, rfl⟩
  · exact ⟨h, rfl⟩

theorem Settled.reconnect (h : Settled n t) (hs : t.state = .error) : Settled n (t.reconnect session.recorded) := by
  have hdown := h.down (by rw [hs]; simp)
  have htorn : Torn n ((t.clearQueues session.recorded).changeWorld session.recorded.disconnect) := by
    rw [clearQueues_of_down session hdown]
    exact h.orderly.disconnected session hdown.1
  obtain ⟨hstate, hforgot, hdown'⟩ := htorn.forgetAll session
  have hstate' : ((t.clearQueues session.recorded).changeWorld session.recorded.disconnect).state = .error := by
    rw [clearQueues_of_down session hdown]
    exact hs
  unfold SSHTunnel.reconnect
  generalize ((t.clearQueues session.recorded).changeWorld session.recorded.disconnect).forgetAll session.recorded = down
    at hstate hforgot hdown' ⊢
  have hagain : Settled n { down with reconnectAttempts := down.reconnectAttempts + 1 } :=
    Settled.of_down hforgot hdown' (by rw [hstate, hstate']; simp)
  have hconnect := hagain.connectSSH session
  dsimp only
  split
  · exact ⟨hconnect.orderly, hconnect.state, hconnect.down⟩
  · exact hconnect

theorem Settled.handleReconnection (h : Settled n t) (hs : t.state = .error) :
    Settled n (t.handleReconnection session.recorded config) := by
  obtain ⟨hcool, hstate⟩ := h.cooldown session config
  have hnow : Settled n ((t.cooldown session.recorded config).2.onWorld session.recorded.millis).2 :=
    ⟨hcool.orderly.onWorld fun _ => rfl, hcool.state, hcool.down⟩
  unfold SSHTunnel.handleReconnection
  dsimp only
  split
  · exact hcool
  · split
    · exact hnow
    · exact hnow.reconnect session (hstate.trans hs)

/-! ## Accepting and waiting -/

/-- The tunnel is connected and nothing is in hand. -/
def Up (n : Nat) (t : SSHTunnel rb (Recorded W)) : Prop := t.state = .connected ∧ Orderly n t.waiting t

theorem Orderly.allocateSlot (h : Orderly n hand t) :
    Orderly n hand (t.onChannels (ChannelManager.allocateSlot session.recorded.toNet)).2 :=
  h.onChannels ChannelManager.Has.allocateSlot ChannelManager.steady_allocateSlot

theorem Orderly.queueClose (h : Orderly n (channel :: t.waiting) t) (hup : t.state = .connected) (mapping : TunnelConfig) :
    Up n (t.enqueueDeferredClose session.recorded channel mapping).2 := by
  obtain ⟨queued, t', heq, hstate, hqueue⟩ := h.enqueueDeferredClose session mapping
  rw [heq]
  refine ⟨hstate.trans hup, ?_⟩
  cases queued with
  | true => exact hqueue
  | false => exact hqueue.forget (List.sublist_cons_self _ _).subperm

theorem Orderly.placeChannel (h : Orderly n (channel :: t.waiting) t) (hup : t.state = .connected) (mapping : TunnelConfig) :
    Up n (t.placeChannel session.recorded channel mapping).2 := by
  have hnow : Orderly n (channel :: t.waiting) (t.onWorld session.recorded.millis).2 := h.onWorld fun _ => rfl
  have hqueuePending : ∀ {t' : SSHTunnel rb (Recorded W)}, Orderly n (channel :: t'.waiting) t' → t'.state = .connected →
      Up n (t'.enqueuePending session.recorded channel mapping) := by
    intro t' h' hup'
    obtain ⟨hstate, hpending⟩ := h'.enqueuePending session mapping
    exact ⟨hstate.trans hup', hpending⟩
  unfold SSHTunnel.placeChannel
  dsimp only
  generalize hn : t.onWorld session.recorded.millis = now at hnow ⊢
  have hkept : Kept t now.2 := by rw [← hn]; exact .refl t
  rw [← hkept.waiting] at hnow
  have hup₁ : now.2.state = .connected := hkept.1.trans hup
  split
  · -- The circuit breaker is open: the channel is closed, or queued to be closed.
    obtain ⟨closed, t', heq, hkept', hclose⟩ := hnow.closeAcceptedChannel session 200
    rw [heq]
    rw [← hkept'.waiting] at hclose
    have hup' : t'.state = .connected := hkept'.1.trans hup₁
    cases closed with
    | true => exact ⟨hup', hclose⟩
    | false => exact hclose.queueClose session hup' mapping
  have hslot := hnow.allocateSlot session
  generalize ha : now.2.onChannels (ChannelManager.allocateSlot session.recorded.toNet) = alloc at hslot ⊢
  have hkept₂ : Kept now.2 alloc.2 := by rw [← ha]; exact .refl _
  rw [← hkept₂.waiting] at hslot
  have hup₂ : alloc.2.state = .connected := hkept₂.1.trans hup₁
  split
  · rename_i slot _
    obtain ⟨r, t', heq, hkept', hbind⟩ := hslot.bindAcceptedChannel session hup₂ slot 200 mapping
    have hup' : t'.state = .connected := hkept'.1.trans hup₂
    rw [← hkept'.waiting] at hbind
    rw [heq]
    cases r with
    | bound => exact ⟨hup', hbind⟩
    | failed => exact Orderly.queueClose session hbind hup' mapping
    | lockUnavailable =>
      dsimp only at hbind ⊢
      split
      · exact hqueuePending hbind hup'
      · exact hbind.queueClose session hup' mapping
  · split
    · exact hqueuePending hslot hup₂
    · obtain ⟨closed, t', heq, hkept', hclose⟩ := hslot.closeAcceptedChannel session 500
      have hup' : t'.state = .connected := hkept'.1.trans hup₂
      rw [← hkept'.waiting] at hclose
      rw [heq]
      cases closed with
      | true => exact ⟨hup', hclose⟩
      | false =>
        obtain ⟨queued, t'', heq', hstate, hqueue⟩ := Orderly.enqueueDeferredClose session hclose mapping
        simp only [Bool.false_eq_true, if_false, heq']
        have hup'' : t''.state = .connected := hstate.trans hup'
        cases queued with
        | true => exact ⟨hup'', hqueue⟩
        | false =>
          -- Both queues are full: a last try to close it, and then it is forgotten.
          obtain ⟨closed, t₃, heq₃, hkept₃, hlast⟩ := Orderly.closeAcceptedChannel session hqueue 1000
          simp only [Bool.false_eq_true, if_false, heq₃]
          refine ⟨hkept₃.1.trans hup'', hkept₃.waiting ▸ ?_⟩
          cases closed with
          | true => exact hlast
          | false => exact hlast.forget (List.sublist_cons_self _ _).subperm

theorem Up.settled (h : Up n t) : Settled n t := ⟨h.2, by rw [h.1]; simp, fun hs => absurd h.1 hs⟩

theorem onWorld_eq {A : Type} {f : Recorded W → A × Recorded W} {a : A} (w' : Recorded W) (h : f t.world = (a, w')) :
    t.onWorld f = (a, { t with transport := { t.transport with channels := { t.transport.channels with world := w' } } }) := by
  obtain ⟨rfl, rfl⟩ : (f t.world).1 = a ∧ (f t.world).2 = w' := ⟨congrArg Prod.fst h, congrArg Prod.snd h⟩
  rfl

/-- A channel that was accepted is in hand. -/
theorem Orderly.acceptChannel (h : Orderly n t.waiting t) :
    ∃ accepted t', t.onWorld session.recorded.acceptChannel = (accepted, t') ∧ Kept t t' ∧
      match accepted with
      | none => Orderly n t'.waiting t'
      | some (channel, _) => Orderly n (channel :: t'.waiting) t' := by
  obtain ⟨hhas, hrest⟩ := h
  rcases haccept : session.acceptChannel t.world.1 with ⟨accepted, w⟩
  cases accepted with
  | none =>
    refine ⟨none, _, onWorld_eq (w, t.world.2) ?_, .refl _, hhas, hrest⟩
    simp only [Session.recorded, haccept]
  | some found =>
    refine ⟨some found, _, onWorld_eq (w, t.world.2 ++ [.acquired found.1]) ?_, .refl _, ⟨?_, hhas.2⟩, hrest⟩
    · simp only [Session.recorded, haccept]
    · exact (hhas.1.acquire found.1).forget List.perm_middle.subperm

/-- Either the tunnel goes on or its session has failed. -/
theorem Up.handleNewConnection (h : Up n t) :
    Up n (t.handleNewConnection session.recorded).2 ∨
      (t.handleNewConnection session.recorded).1 = false ∧ Settled n (t.handleNewConnection session.recorded).2 ∧
        (t.handleNewConnection session.recorded).2.state = .error := by
  obtain ⟨accepted, t', heq, hkept, haccept⟩ := h.2.acceptChannel session
  have hup : t'.state = .connected := hkept.1.trans h.1
  unfold SSHTunnel.handleNewConnection
  rw [heq]
  rcases accepted with _ | ⟨channel, mapping⟩
  · dsimp only at haccept ⊢
    split
    · exact .inr ⟨rfl, haccept.enterErrorState session hup⟩
    · exact .inl ⟨hup, haccept⟩
  · exact .inl (haccept.placeChannel session hup mapping)

theorem Up.acceptAll (h : Up n t) (rounds : Nat) :
    Up n (t.acceptAll session.recorded rounds) ∨
      Settled n (t.acceptAll session.recorded rounds) ∧ (t.acceptAll session.recorded rounds).state = .error := by
  induction rounds generalizing t with
  | zero => exact .inl h
  | succ rounds ih =>
    unfold SSHTunnel.acceptAll
    dsimp only
    rcases h.handleNewConnection session with hup | ⟨hno, hdown⟩
    · split
      · exact ih hup
      · exact .inl hup
    · rw [if_neg (by simp [hno])]
      exact .inr hdown

/-! ### The accept loop ends -/

theorem opens_bindAcceptedChannel {slot ticks : Nat}
    (h : t.bindAcceptedChannel session.recorded slot channel mapping ticks = (.bound, t')) :
    slot ∉ t.opens ∧ t'.opens = insert slot t.opens := by
  unfold SSHTunnel.bindAcceptedChannel SSHTunnel.onChannels at h
  dsimp only at h
  split at h
  · cases h
  obtain ⟨bound, m, heq, _, hopens⟩ := ChannelManager.opens_bindChannel session.toNet
    (t.onWorld (session.recorded.lock ticks)).2.transport.channels slot channel mapping
  change ChannelManager.bindChannel session.recorded.toNet slot channel mapping _ = _ at heq
  rw [heq] at h
  cases bound with
  | false => cases h
  | true =>
    obtain ⟨-, rfl⟩ := Prod.mk.inj h
    exact hopens

/-- Only a channel that got a slot makes the tunnel accept another. -/
theorem opens_placeChannel (h : t.placeChannel session.recorded channel mapping = (true, t')) :
    ∃ slot ∉ t.opens, t'.opens = insert slot t.opens := by
  have hsteady : ((t.onWorld session.recorded.millis).2.onChannels
      (ChannelManager.allocateSlot session.recorded.toNet)).2.opens = t.opens :=
    (ChannelManager.steady_allocateSlot (m := (t.onWorld session.recorded.millis).2.transport.channels)).1
  unfold SSHTunnel.placeChannel at h
  dsimp only at h
  split at h
  · cases h
  split at h
  · split at h
    · rename_i heq
      obtain ⟨hnot, hopens⟩ := opens_bindAcceptedChannel session heq
      obtain ⟨-, rfl⟩ := Prod.mk.inj h
      rw [hsteady] at hnot hopens
      exact ⟨_, hnot, hopens⟩
    · split at h <;> cases h
    · cases h
  · repeat' split at h
    all_goals cases h

/-- Another round is asked for only when one more slot is taken. -/
theorem card_handleNewConnection (h : (t.handleNewConnection session.recorded).1 = true) :
    (t.handleNewConnection session.recorded).2.opens.card = t.opens.card + 1 := by
  unfold SSHTunnel.handleNewConnection at h ⊢
  dsimp only at h ⊢
  split at h
  · cases h
  · rename_i channel mapping _
    generalize hplaced : (t.onWorld session.recorded.acceptChannel).2.placeChannel session.recorded channel mapping = placed at h ⊢
    obtain ⟨slot, hnot, hopens⟩ := opens_placeChannel session (hplaced.trans (Prod.ext h rfl))
    rw [hopens]
    exact Finset.card_insert_of_notMem hnot

/-- There are never more rounds than free slots, and one that finds none. -/
theorem Up.acceptAll_enough {rounds : Nat} (h : Up n t) (hrounds : n < rounds + t.opens.card) (more : Nat) :
    t.acceptAll session.recorded (rounds + more) = t.acceptAll session.recorded rounds := by
  induction rounds generalizing t with
  | zero =>
    have hle : t.opens.card ≤ n := ChannelManager.opens_le.trans_eq h.2.2.2.1
    omega
  | succ rounds ih =>
    rw [Nat.succ_add]
    unfold SSHTunnel.acceptAll
    dsimp only
    split
    · rename_i hmore
      have hcard := card_handleNewConnection session hmore
      rcases h.handleNewConnection session with hup | ⟨hno, _⟩
      · exact ih hup (by omega)
      · rw [hno] at hmore
        cases hmore
    · rfl

/-- A round over a queue that has been taken out, with the channels it keeps. -/
theorem Orderly.drain {queue : List PendingChannel} (h : Orderly n (queue.map (·.channel) ++ hand) t)
    (step : PendingChannel → SSHTunnel rb (Recorded W) → Option PendingChannel × SSHTunnel rb (Recorded W)) (hup : t.state = .connected)
    (hstep : ∀ p (t : SSHTunnel rb (Recorded W)) hand, t.state = .connected → Orderly n (p.channel :: hand) t →
      Kept t (step p t).2 ∧ Orderly n ((step p t).1.toList.map (·.channel) ++ hand) (step p t).2) :
    Kept t (t.drain step queue).2 ∧ Orderly n ((t.drain step queue).1.map (·.channel) ++ hand) (t.drain step queue).2 := by
  induction queue generalizing t hand with
  | nil => exact ⟨.refl t, h⟩
  | cons p queue ih =>
    obtain ⟨hkept, hone⟩ := hstep p t _ hup h
    have hnext : Orderly n (queue.map (·.channel) ++ ((step p t).1.toList.map (·.channel) ++ hand)) (step p t).2 :=
      hone.forget (List.perm_append_comm_assoc _ _ _).subperm
    obtain ⟨hkept', hrest⟩ := ih hnext (hkept.1.trans hup)
    refine ⟨hkept.trans hkept', hrest.forget ?_⟩
    simp only [SSHTunnel.drain, List.map_append, List.append_assoc]
    exact (List.perm_append_comm_assoc _ _ _).subperm

theorem Orderly.closePending {p : PendingChannel} (h : Orderly n (p.channel :: hand) t) (ticks : Nat) :
    Kept t (t.closePending session.recorded ticks p).2 ∧
      Orderly n ((t.closePending session.recorded ticks p).1.toList.map (·.channel) ++ hand)
        (t.closePending session.recorded ticks p).2 := by
  obtain ⟨closed, t', heq, hkept, hclose⟩ := h.closeAcceptedChannel session ticks
  unfold SSHTunnel.closePending
  rw [heq]
  cases closed with
  | true => exact ⟨hkept, hclose⟩
  | false => exact ⟨hkept, hclose⟩

theorem Orderly.drainPendingStep {p : PendingChannel} (now : UInt32) (hup : t.state = .connected)
    (h : Orderly n (p.channel :: hand) t) :
    Kept t (t.drainPendingStep session.recorded now p).2 ∧
      Orderly n ((t.drainPendingStep session.recorded now p).1.toList.map (·.channel) ++ hand)
        (t.drainPendingStep session.recorded now p).2 := by
  have hslot := h.allocateSlot session
  unfold SSHTunnel.drainPendingStep
  split
  · exact h.closePending session _
  split
  · exact h.closePending session _
  dsimp only
  generalize ha : t.onChannels (ChannelManager.allocateSlot session.recorded.toNet) = alloc at hslot ⊢
  have hkept : Kept t alloc.2 := by rw [← ha]; exact .refl _
  split
  · exact ⟨hkept, hslot⟩
  · rename_i slot _
    obtain ⟨r, t', heq, hkept', hbind⟩ := hslot.bindAcceptedChannel session (hkept.1.trans hup) slot 200 p.mapping
    rw [heq]
    cases r with
    | bound => exact ⟨hkept.trans hkept', hbind⟩
    | lockUnavailable => exact ⟨hkept.trans hkept', hbind⟩
    | failed =>
      obtain ⟨hkept'', hclose⟩ := Orderly.closePending session hbind 200
      exact ⟨(hkept.trans hkept').trans hkept'', hclose⟩

theorem Orderly.cleanStep {p : PendingChannel} (now : UInt32) (h : Orderly n (p.channel :: hand) t) :
    Kept t (t.cleanStep session.recorded now p).2 ∧
      Orderly n ((t.cleanStep session.recorded now p).1.toList.map (·.channel) ++ hand)
        (t.cleanStep session.recorded now p).2 := by
  unfold SSHTunnel.cleanStep
  split
  · exact h.closePending session 200
  · exact ⟨.refl t, h⟩

/-- The pending queue is replaced by what a round keeps of it. -/
theorem Up.drainPending
    {step : PendingChannel → SSHTunnel rb (Recorded W) → Option PendingChannel × SSHTunnel rb (Recorded W)} (h : Up n t)
    (hstep : ∀ p (t : SSHTunnel rb (Recorded W)) hand, t.state = .connected → Orderly n (p.channel :: hand) t →
      Kept t (step p t).2 ∧ Orderly n ((step p t).1.toList.map (·.channel) ++ hand) (step p t).2) :
    Up n { (t.drain step t.pendingQueue).2 with pendingQueue := (t.drain step t.pendingQueue).1 } := by
  have hqueue := h.2
  rw [waiting, List.map_append] at hqueue
  obtain ⟨hkept, hdrain⟩ := hqueue.drain step h.1 hstep
  refine ⟨hkept.1.trans h.1, ?_⟩
  refine Orderly.forget (t := (t.drain step t.pendingQueue).2) hdrain ?_
  simp only [waiting, List.map_append, hkept.2.2]
  exact (List.Sublist.refl _).subperm

theorem Up.millis (h : Up n t) : Up n (t.onWorld session.recorded.millis).2 := ⟨h.1, h.2.onWorld fun _ => rfl⟩

theorem Up.drainPendingQueue (h : Up n t) : Up n (t.drainPendingQueue session.recorded) :=
  (h.millis session).drainPending fun _ _ _ hup hp => Orderly.drainPendingStep session _ hup hp

theorem Up.cleanExpiredPending (h : Up n t) : Up n (t.cleanExpiredPending session.recorded) :=
  (h.millis session).drainPending fun _ _ _ _ hp => Orderly.cleanStep session _ hp

theorem Up.drainDeferredCloseQueue (h : Up n t) : Up n (t.drainDeferredCloseQueue session.recorded) := by
  have hnow := h.millis session
  unfold SSHTunnel.drainDeferredCloseQueue
  dsimp only
  generalize hn : t.onWorld session.recorded.millis = now at hnow ⊢
  have hqueue : t.deferredCloseQueue = now.2.deferredCloseQueue := by rw [← hn]; rfl
  have hswap : Orderly n (now.2.deferredCloseQueue.map (·.channel) ++ now.2.pendingQueue.map (·.channel)) now.2 := by
    refine hnow.2.forget ?_
    rw [SSHTunnel.waiting, List.map_append]
    exact List.perm_append_comm.subperm
  obtain ⟨hkept, hdrain⟩ := hswap.drain (retryClose session.recorded now.1) hnow.1 fun _ _ _ _ hp =>
    Orderly.closePending session hp _
  refine ⟨hkept.1.trans hnow.1, ?_⟩
  refine Orderly.forget (t := (now.2.drain (retryClose session.recorded now.1) now.2.deferredCloseQueue).2) hdrain ?_
  simp only [waiting, List.map_append, hkept.2.1]
  exact List.perm_append_comm.subperm

/-! ## The loop -/

theorem Up.checkHealth (h : Up n t) :
    Up n (t.checkHealth session.recorded).2 ∨
      (t.checkHealth session.recorded).1 = false ∧ Settled n (t.checkHealth session.recorded).2 := by
  unfold SSHTunnel.checkHealth
  dsimp only
  split
  · exact .inl h
  · split
    · have hcount : Up n { t with socketHealthFailures := t.socketHealthFailures + 1 } := h
      exact .inr ⟨rfl, (hcount.2.enterErrorState session hcount.1).1⟩
    · exact .inl h

theorem Up.keepAlive (h : Up n t) :
    Up n (t.keepAlive session.recorded config).2 ∨
      (t.keepAlive session.recorded config).1 = false ∧ Settled n (t.keepAlive session.recorded config).2 := by
  have hnow := h.millis session
  have hsend : Up n ((t.onWorld session.recorded.millis).2.onWorld session.recorded.sendKeepalive).2 :=
    ⟨hnow.1, hnow.2.onWorld fun _ => rfl⟩
  unfold SSHTunnel.keepAlive
  dsimp only
  split
  · split
    · exact .inl hsend
    · exact .inr ⟨rfl, (hsend.2.enterErrorState session hsend.1).1⟩
  · exact .inl hnow

theorem emitAll_eq (es : List (Nat × ChannelCloseReason)) (t : SSHTunnel rb (Recorded W)) :
    es.foldl (fun t e => t.emit (.channelClosed e.1 e.2)) t =
      { t with emitted := t.emitted ++ es.map fun e => .channelClosed e.1 e.2 } := by
  induction es generalizing t with
  | nil => simp
  | cons e es ih =>
    rw [List.foldl_cons, ih]
    simp [emit]

/-- What the pump did is told, but for the state of the session. -/
theorem Orderly.pump (h : Orderly n hand t) (hup : t.opens.Nonempty → t.state = .connected) :
    Kept t (t.pump session.recorded) ∧
      Orderly n hand { t.pump session.recorded with
        transport := { (t.pump session.recorded).transport with sessionDegraded := false } } ∧
      (t.pump session.recorded).opens ⊆ t.opens ∧
      ((t.pump session.recorded).transport.sessionDegraded = true → t.opens.Nonempty) := by
  obtain ⟨hhas, htold, hlength, hevents, hgood⟩ := h
  have hpumped := TransportPump.Has.pumpAll session.toNet hhas
  have hclosing := TransportPump.closing_pumpAll session.toNet hevents hgood
  unfold SSHTunnel.pump
  dsimp only
  rw [emitAll_eq]
  change TransportPump.Has hand (t.transport.pumpAll session.recorded.toNet).2 at hpumped
  change TransportPump.Closing _ (t.transport.pumpAll session.recorded.toNet).2 at hclosing
  generalize t.transport.pumpAll session.recorded.toNet = pumped at hpumped hclosing ⊢
  have hlength' : pumped.2.channels.slots.length = n := hclosing.length.trans hlength
  refine ⟨.refl t, ⟨hpumped, fun hsmall => ?_, hlength', rfl, rfl⟩, hclosing.within, hclosing.degraded⟩
  obtain ⟨hnodup, hbefore, hnow⟩ := hclosing.told (hlength'.trans_le hsmall)
  have hroom : pumped.2.pendingCloseEvents.length ≤ maxCloseEvents := by
    have hcard : pumped.2.closedSlots.toFinset.card ≤ t.opens.card :=
      Finset.card_le_card fun i hi => hbefore i (List.mem_toFinset.1 hi)
    rw [List.toFinset_card_of_nodup hnodup, TransportPump.closedSlots, List.length_map] at hcard
    exact (hcard.trans (ChannelManager.opens_le.trans_eq hlength)).trans hsmall
  have hstart := htold hsmall
  have hseen : seen (t.emitted ++ pumped.2.pendingCloseEvents.map fun e => .channelClosed e.1 e.2) =
      some ⟨decide (t.state = .connected), t.opens \ pumped.2.closedSlots.toFinset⟩ := by
    by_cases hs : t.state = .connected
    · rw [hs] at hstart ⊢
      exact seen_closed _ hstart hnodup fun e he => hbefore e.1 (List.mem_map_of_mem he)
    · have hnone : t.opens = ∅ := Finset.not_nonempty_iff_eq_empty.1 fun hne => hs (hup hne)
      have hevents' : pumped.2.pendingCloseEvents = [] := by
        refine List.eq_nil_iff_forall_not_mem.2 fun e he => ?_
        have hm : e.1 ∈ t.opens := hbefore e.1 (List.mem_map_of_mem he)
        rw [hnone] at hm
        cases hm
      simpa [hevents', TransportPump.closedSlots] using hstart
  simp only [TransportPump.consumeCloseEvents, List.take_of_length_le hroom]
  exact hseen.trans (congrArg (fun c => some (Seen.mk _ c)) hnow.symm)

/-- A session that is as good as before leaves the tunnel as it was. -/
theorem Settled.pump (h : Settled n t) (hgood : (t.pump session.recorded).transport.sessionDegraded = false) :
    Settled n (t.pump session.recorded) := by
  have hup : t.opens.Nonempty → t.state = .connected := by
    intro hne
    by_contra hs
    rw [(h.down hs).1] at hne
    cases Finset.not_nonempty_empty hne
  obtain ⟨hkept, horderly, hopens, _⟩ := h.orderly.pump session hup
  generalize t.pump session.recorded = pumped at hgood hkept horderly hopens ⊢
  refine ⟨?_, hkept.1 ▸ h.state, fun hs => ?_⟩
  · rw [hkept.waiting]
    exact ⟨horderly.1, horderly.2.1, horderly.2.2.1, horderly.2.2.2.1, hgood⟩
  · obtain ⟨hnone, hpending, hdeferred⟩ := h.down (hkept.1 ▸ hs)
    exact ⟨Finset.subset_empty.1 (hnone ▸ hopens), hkept.2.1.trans hpending, hkept.2.2.trans hdeferred⟩

theorem Up.drainQueues (h : Up n t) : Up n (t.drainQueues session.recorded) := by
  have hpending : Up n (if t.pendingQueue.isEmpty then t
      else (t.cleanExpiredPending session.recorded).drainPendingQueue session.recorded) := by
    split
    · exact h
    · exact (h.cleanExpiredPending session).drainPendingQueue session
  unfold SSHTunnel.drainQueues
  dsimp only
  generalize (if t.pendingQueue.isEmpty then t
    else (t.cleanExpiredPending session.recorded).drainPendingQueue session.recorded) = t₁ at hpending ⊢
  split
  · exact hpending
  · exact hpending.drainDeferredCloseQueue session

theorem drainQueues_of_down (h : Down t) : t.drainQueues session.recorded = t := by
  simp [SSHTunnel.drainQueues, h.2.1, h.2.2]

theorem Up.loopConnected (h : Up n t) : Settled n (t.loopConnected session.recorded config) := by
  unfold SSHTunnel.loopConnected
  split
  · exact (h.2.enterErrorState session h.1).1
  dsimp only
  rcases h.checkHealth session with hhealth | ⟨hno, hdown⟩
  swap
  · rw [hno]
    exact hdown
  split
  · exact hhealth.settled
  rcases hhealth.keepAlive session config with halive | ⟨hno, hdown⟩
  swap
  · rw [hno]
    exact hdown
  split
  · exact halive.settled
  generalize ((t.checkHealth session.recorded).2.keepAlive session.recorded config).2 = t₁ at halive ⊢
  have hclose : Up n (if t₁.deferredCloseQueue.isEmpty then t₁ else t₁.drainDeferredCloseQueue session.recorded) := by
    split
    · exact halive
    · exact halive.drainDeferredCloseQueue session
  generalize (if t₁.deferredCloseQueue.isEmpty then t₁ else t₁.drainDeferredCloseQueue session.recorded) = t₂ at hclose ⊢
  rcases hclose.acceptAll session (t₂.transport.channels.slots.length + 1) with haccept | ⟨haccept, hs⟩
  · generalize t₂.acceptAll session.recorded (t₂.transport.channels.slots.length + 1) = t₃ at haccept ⊢
    obtain ⟨hkept, horderly, _⟩ := haccept.2.pump session fun _ => haccept.1
    have hpump := haccept.settled.pump session
    generalize t₃.pump session.recorded = pumped at hkept horderly hpump ⊢
    have hup : pumped.state = .connected := hkept.1.trans haccept.1
    rw [← hkept.waiting] at horderly
    have hclear : Up n { pumped with transport := { pumped.transport with sessionDegraded := false } } := ⟨hup, horderly⟩
    split
    · exact (hclear.2.enterErrorState session hclear.1).1
    · rename_i hgood
      exact (Up.drainQueues session ⟨hup, (hpump (by simpa using hgood)).orderly⟩).settled
  · generalize t₂.acceptAll session.recorded (t₂.transport.channels.slots.length + 1) = t₃ at haccept hs ⊢
    -- without a slot that is active the pump has nothing to do
    have hdown := haccept.down (by rw [hs]; simp)
    obtain ⟨hkept, _, _, hdegraded⟩ := haccept.orderly.pump session fun hne => by
      rw [hdown.1] at hne
      cases Finset.not_nonempty_empty hne
    have hpump := haccept.pump session
    generalize t₃.pump session.recorded = pumped at hkept hdegraded hpump ⊢
    have hgood : pumped.transport.sessionDegraded = false := by
      by_contra hbad
      have hne := hdegraded (by simpa using hbad)
      rw [hdown.1] at hne
      cases Finset.not_nonempty_empty hne
    rw [if_neg (by simp [hgood]), drainQueues_of_down session ((hpump hgood).down (by rw [hkept.1, hs]; simp))]
    exact hpump hgood

theorem Settled.loop (h : Settled n t) : Settled n (t.loop session.recorded config) := by
  unfold SSHTunnel.loop
  split
  · rename_i hs
    exact h.handleReconnection session config hs
  · exact h
  · rename_i hno hno'
    have hup : t.state = .connected := by
      rcases hs : t.state with _ | _ | _ | _
      · cases hno' hs
      · cases h.state hs
      · rfl
      · cases hno hs
    exact Up.loopConnected session config ⟨hup, h.orderly⟩

theorem settled_init (w : W) : Settled config.maxChannels (SSHTunnel.init rb config (w, ([] : List (Entry Channel)))) := by
  have hslot : ∀ s ∈ List.replicate config.maxChannels (⟨.new rb, .none⟩ : Slot rb), s.ch.active = false ∧ s.ch.sshChannel = none := by
    intro s hs
    obtain rfl := List.eq_of_mem_replicate hs
    exact ⟨rfl, rfl⟩
  have hopens : (SSHTunnel.init rb config (w, ([] : List (Entry Channel)))).opens = ∅ := by
    refine Finset.eq_empty_of_forall_notMem fun i hi => ?_
    obtain ⟨s, hs, ha⟩ := ChannelManager.mem_opens.1 hi
    rw [(hslot s (List.mem_of_getElem? hs)).1] at ha
    cases ha
  refine Settled.of_down ⟨⟨?_, fun s hs _ => (hslot s hs).2, ?_⟩, fun _ => ?_, List.length_replicate, rfl, rfl⟩
    ⟨hopens, rfl, rfl⟩ (by simp [SSHTunnel.init])
  · have hnone : ChannelManager.channelsOf (List.replicate config.maxChannels (⟨.new rb, .none⟩ : Slot rb)) = [] := by
      refine List.flatMap_eq_nil_iff.2 fun s hs => ?_
      rw [(hslot s hs).2]
      rfl
    simp only [SSHTunnel.init, ChannelManager.init, hnone]
    exact Holds.empty
  · have hcount : (List.replicate config.maxChannels (⟨.new rb, .none⟩ : Slot rb)).countP (·.ch.active) = 0 :=
      List.countP_eq_zero.2 fun s hs => by simp [(hslot s hs).1]
    exact (congrArg Int.ofNat hcount).symm
  · rw [hopens]
    rfl

/-! ## Every run -/

/-- A change elsewhere leaves the record alone. -/
def Call.recorded : Call W → Call (Recorded W)
  | .connectSSH => .connectSSH
  | .loop => .loop
  | .disconnect => .disconnect
  | .elsewhere change => .elsewhere fun w => (change w.1, w.2)

theorem Settled.call (h : Settled n t) (e : Call W) : Settled n (t.call session.recorded config e.recorded) := by
  cases e with
  | connectSSH => exact h.connectSSH session
  | loop => exact h.loop session config
  | disconnect => exact h.disconnect session
  | elsewhere change => exact ⟨h.orderly.changeWorld fun _ => rfl, h.state, h.down⟩

/-- A run that is recorded from `init` on. -/
abbrev RecordedRuns (w : W) (calls : List (Call W)) (t : SSHTunnel rb (Recorded W)) : Prop :=
  Run (fun t e t' => t' = t.call session.recorded config e.recorded) (.init rb config (w, [])) calls t

theorem settled_of_runs {w : W} {calls : List (Call W)} (h : RecordedRuns session config w calls t) :
    Settled config.maxChannels t := by
  refine h.inv (Settled config.maxChannels) (settled_init config w) ?_
  rintro t e t' ht rfl
  exact ht.call session config e

/-- In every run, if the library gives out a handle only when it is not in use,
only channels that were accepted and not yet given back are used and freed. Each
channel the tunnel has is live and has one place: a slot that is active, the
pending queue or the deferred closes. -/
theorem channels_have_one_place {w : W} {calls : List (Call W)} (h : RecordedRuns session config w calls t)
    (hfresh : (book t.world.2).fresh = true) :
    (book t.world.2).sound = true ∧
      (ChannelManager.channelsOf t.transport.channels.slots ++ t.waiting).Nodup ∧
      (∀ channel ∈ ChannelManager.channelsOf t.transport.channels.slots ++ t.waiting, channel ∈ (book t.world.2).live) ∧
      (∀ s ∈ t.transport.channels.slots, s.ch.active = false → s.ch.sshChannel = none) ∧
      t.transport.channels.activeCount = t.transport.channels.slots.countP (·.ch.active) := by
  obtain ⟨hholds, hfine⟩ := (settled_of_runs session config h).orderly.1
  obtain ⟨hsound, hnodup, hlive⟩ := hholds hfresh
  exact ⟨hsound, hnodup, hlive, hfine.1, hfine.2⟩

/-- A tunnel that accepted a channel, and that is recorded. -/
def recordedGreeting : SSHTunnel listRing (Recorded Script) :=
  call Script.session.recorded Script.config Call.loop.recorded
    (call Script.session.recorded Script.config Call.connectSSH.recorded
      (init listRing Script.config (Script.greeting, [])))

theorem runs_recordedGreeting :
    RecordedRuns Script.session Script.config Script.greeting [.connectSSH, .loop] recordedGreeting :=
  (Run.nil.snoc rfl).snoc rfl

theorem channels_have_one_place_greeting :
    (book recordedGreeting.world.2).live = [11] ∧ (book recordedGreeting.world.2).sound = true := by
  have hfresh : (book recordedGreeting.world.2).fresh = true := by decide +kernel
  exact ⟨by decide +kernel, (channels_have_one_place _ _ runs_recordedGreeting hfresh).1⟩

/-- In every run the handlers are told a story that makes sense, with the session
up when the tunnel is connected and a channel in the slots that are active. A
tunnel that is not connected has no channel. With more slots than close events
that can wait, closes would be dropped before they are told. -/
theorem handlers_see_a_session {w : W} {calls : List (Call W)} (hsmall : config.maxChannels ≤ maxCloseEvents)
    (h : RecordedRuns session config w calls t) :
    seen t.emitted = some ⟨decide (t.state = .connected), t.opens⟩ ∧
      (t.state ≠ .connected → t.opens = ∅ ∧ t.pendingQueue = [] ∧ t.deferredCloseQueue = []) := by
  have hsettled := settled_of_runs session config h
  exact ⟨hsettled.orderly.2.1 hsmall, hsettled.down⟩

theorem handlers_see_a_session_greeting :
    recordedGreeting.emitted = [.sessionConnected, .channelOpened 0] ∧
      seen recordedGreeting.emitted = some ⟨decide (recordedGreeting.state = .connected), recordedGreeting.opens⟩ :=
  ⟨by decide +kernel, (handlers_see_a_session _ _ (by decide) runs_recordedGreeting).1⟩

end SSHTunnel

end OrangeBox.Tunnel
