import OrangeBox.Tunnel.Ownership
/-!
# What the handlers are told

`Seen` is what a handler knows that counts the events it gets: whether the
session is up and which slots have a channel. `seen` refuses events in an order
that makes no sense. The events of the pump are those of the slots it frees.
-/
open Ledger

namespace OrangeBox.Tunnel

structure Seen where
  connected : Bool
  channels : Finset Nat
deriving DecidableEq

/-- A channel is opened in a session and closed in it; the session ends without channels. -/
def Seen.next (s : Seen) : TunnelEvent → Option Seen
  | .sessionConnected => if !s.connected ∧ s.channels = ∅ then some ⟨true, ∅⟩ else none
  | .sessionDisconnected => if s.connected ∧ s.channels = ∅ then some ⟨false, ∅⟩ else none
  | .channelOpened i => if s.connected ∧ i ∉ s.channels then some ⟨true, insert i s.channels⟩ else none
  | .channelClosed i _ => if s.connected ∧ i ∈ s.channels then some ⟨true, s.channels.erase i⟩ else none
  | .error _ => if s.connected then none else some s

def seen (events : List TunnelEvent) : Option Seen := events.foldlM Seen.next ⟨false, ∅⟩

theorem seen_snoc (events : List TunnelEvent) (e : TunnelEvent) : seen (events ++ [e]) = (seen events).bind (·.next e) := by
  simp only [seen, List.foldlM_append, List.foldlM_cons, List.foldlM_nil]
  cases List.foldlM Seen.next ⟨false, ∅⟩ events with
  | none => rfl
  | some s => simp

/-- The channels of some slots are closed one after the other. -/
theorem seen_closed {events : List TunnelEvent} {channels : Finset Nat} (closed : List (Nat × ChannelCloseReason))
    (hs : seen events = some ⟨true, channels⟩) (hn : (closed.map Prod.fst).Nodup) (hm : ∀ e ∈ closed, e.1 ∈ channels) :
    seen (events ++ closed.map fun e => .channelClosed e.1 e.2) =
      some ⟨true, channels \ (closed.map Prod.fst).toFinset⟩ := by
  induction closed generalizing events channels with
  | nil => simpa using hs
  | cons e closed ih =>
    rw [List.map_cons, List.nodup_cons] at hn
    have hfirst : seen (events ++ [.channelClosed e.1 e.2]) = some ⟨true, channels.erase e.1⟩ := by
      rw [seen_snoc, hs]
      simp [Seen.next, hm e]
    rw [List.map_cons, List.append_cons, ih hfirst hn.2]
    · simp only [List.map_cons, List.toFinset_cons, Finset.sdiff_insert, Finset.erase_sdiff_comm]
    · intro e' he'
      refine Finset.mem_erase.2 ⟨?_, hm e' (by simp [he'])⟩
      intro h
      exact hn.1 (h ▸ List.mem_map_of_mem he')

/-! ## Active slots -/

variable {R W : Type} {rb : Ringbuf R}

namespace ChannelManager

def opens (m : ChannelManager rb W) : Finset Nat :=
  (Finset.range m.slots.length).filter fun i => m.slots[i]?.any (·.ch.active)

theorem mem_opens {m : ChannelManager rb W} {i : Nat} : i ∈ m.opens ↔ ∃ s, m.slots[i]? = some s ∧ s.ch.active = true := by
  simp only [opens, Finset.mem_filter, Finset.mem_range, Option.any_eq_true]
  constructor
  · rintro ⟨_, s, hs, ha⟩
    exact ⟨s, hs, ha⟩
  · rintro ⟨s, hs, ha⟩
    exact ⟨(List.getElem?_eq_some_iff.1 hs).1, s, hs, ha⟩

theorem opens_le {m : ChannelManager rb W} : m.opens.card ≤ m.slots.length :=
  (Finset.card_filter_le _ _).trans_eq (Finset.card_range _)

theorem opens_of_slots {m m' : ChannelManager rb W} (h : m'.slots = m.slots) : m'.opens = m.opens := by
  rw [opens, opens, h]

/-- The slots after one was set. -/
theorem mem_opens_set {m m' : ChannelManager rb W} {i j : Nat} {s s' : Slot rb} (hs : m.slots[i]? = some s)
    (h : m'.slots = m.slots.set i s') : j ∈ m'.opens ↔ if j = i then s'.ch.active = true else j ∈ m.opens := by
  have hlt : i < m.slots.length := (List.getElem?_eq_some_iff.1 hs).1
  simp only [mem_opens, h, List.getElem?_set, hlt, if_true]
  by_cases hj : j = i
  · simp [hj]
  · simp [hj, Ne.symm hj]

variable {net : Net W} {m m' : ChannelManager rb (Recorded W)} {i : Nat}

/-- The same slots are active. -/
def Steady (m m' : ChannelManager rb (Recorded W)) : Prop := m'.opens = m.opens ∧ m'.slots.length = m.slots.length

theorem Steady.refl (m : ChannelManager rb (Recorded W)) : Steady m m := ⟨rfl, rfl⟩

theorem Steady.trans {m'' : ChannelManager rb (Recorded W)} (h : Steady m m') (h' : Steady m' m'') : Steady m m'' :=
  ⟨h'.1.trans h.1, h'.2.trans h.2⟩

theorem length_atSlotWith {A : Type} (other : A) (f : Turn rb (Recorded W) → A × Turn rb (Recorded W)) :
    (m.atSlotWith i other f).2.slots.length = m.slots.length := by
  unfold atSlotWith
  split
  · rfl
  · exact List.length_set

theorem steady_atSlotWith {A : Type} {other : A} {f : Turn rb (Recorded W) → A × Turn rb (Recorded W)}
    (hf : ∀ s, m.slots[i]? = some s → (f (m.turn s)).2.ch.active = s.ch.active) : Steady m (m.atSlotWith i other f).2 := by
  refine ⟨?_, length_atSlotWith other f⟩
  unfold atSlotWith
  split
  · rfl
  rename_i s hs
  ext j
  refine (mem_opens_set hs rfl).trans ?_
  split
  · rename_i hj
    rw [hf s hs, hj, mem_opens]
    exact ⟨fun ha => ⟨s, hs, ha⟩, fun ⟨s', hs', ha⟩ => by rwa [Option.some.inj (hs.symm.trans hs')]⟩
  · rfl

theorem steady_atSlot {f : Turn rb (Recorded W) → Turn rb (Recorded W)} (hf : ∀ t, Turn.Quiet t (f t)) :
    Steady m (m.atSlot i f) :=
  steady_atSlotWith fun _ _ => (hf _).active

theorem steady_turns {f : Turn rb (Recorded W) → Turn rb (Recorded W)} (slots : List Nat) (hf : ∀ t, Turn.Quiet t (f t)) :
    Steady m (TransportPump.turns f slots m) := by
  induction slots generalizing m with
  | nil => exact .refl m
  | cons i slots ih => exact (steady_atSlot hf).trans ih

/-- A slot that is active no longer. -/
theorem opens_erase {A : Type} {other : A} {f : Turn rb (Recorded W) → A × Turn rb (Recorded W)}
    (hf : ∀ s, m.slots[i]? = some s → (f (m.turn s)).2.ch.active = false) :
    (m.atSlotWith i other f).2.opens = m.opens.erase i := by
  unfold atSlotWith
  split
  · rename_i hnone
    refine (Finset.erase_eq_of_notMem fun hi => ?_).symm
    obtain ⟨s, hs, _⟩ := mem_opens.1 hi
    cases hs.symm.trans hnone
  rename_i s hs
  ext j
  refine (mem_opens_set hs rfl).trans ?_
  simp only [hf s hs, Bool.false_eq_true, Finset.mem_erase]
  split
  · simp [*]
  · simp [*]

variable (net m i) in
theorem opens_abandonSlot : (m.abandonSlot net.recorded i).opens = m.opens.erase i :=
  opens_erase fun _ _ => Turn.abandonSlot_spec.2.1

variable (net m i) in
/-- A slot whose close is finished is free, another is as it was. -/
theorem opens_finalizeClose :
    (m.finalizeClose net.recorded i).2.opens = if (m.finalizeClose net.recorded i).1 then m.opens.erase i else m.opens := by
  have hspec := fun s => Turn.finalizeClose_spec net (m.turn s)
  have hdone : ∀ s, m.slots[i]? = some s → (m.finalizeClose net.recorded i).1 = ((m.turn s).finalizeClose net.recorded).1 := by
    intro s hs
    unfold finalizeClose atSlotWith
    rw [hs]
  split
  · rename_i h
    refine opens_erase fun s hs => ?_
    rw [(hspec s).2, ← hdone s hs, h]
    simp
  · rename_i h
    refine (steady_atSlotWith fun s hs => ?_).1
    rw [(hspec s).2, ← hdone s hs]
    simp [h, turn]

theorem steady_allocateSlot : Steady m (m.allocateSlot net.recorded).2 := by
  unfold allocateSlot
  dsimp only
  split
  · exact .refl m
  · split
    · exact steady_atSlot (m := (m.millis net.recorded).2) fun _ => Turn.quiet_beginClose _
    · exact .refl m

variable (net m i) in
/-- A slot is taken when a channel is bound to it. -/
theorem opens_bindChannel (channel : Channel) (mapping : TunnelConfig) :
    ∃ bound m', m.bindChannel net.recorded i channel mapping = (bound, m') ∧ m'.slots.length = m.slots.length ∧
      if bound then i ∉ m.opens ∧ m'.opens = insert i m.opens else m'.opens = m.opens := by
  unfold bindChannel
  split
  · exact ⟨false, _, rfl, rfl, rfl⟩
  rename_i s hs
  split
  · exact ⟨false, _, rfl, rfl, rfl⟩
  rename_i hfree
  dsimp only
  split
  · exact ⟨false, _, rfl, rfl, rfl⟩
  split
  · exact ⟨false, _, rfl, rfl, rfl⟩
  split
  · exact ⟨false, _, rfl, rfl, rfl⟩
  have hnot : i ∉ m.opens := by
    intro hi
    obtain ⟨s', hs', ha⟩ := mem_opens.1 hi
    exact hfree (Option.some.inj (hs.symm.trans hs') ▸ ha)
  refine ⟨true, _, rfl, List.length_set, hnot, ?_⟩
  ext j
  refine (mem_opens_set hs rfl).trans ?_
  simp only [bound, Finset.mem_insert]
  split
  · simp [*]
  · simp [*]

end ChannelManager

/-! ## The close events -/

namespace TransportPump

open ChannelManager (Steady)

variable (net : Net W) {start p : TransportPump rb (Recorded W)}

/-- The slots with a close event. -/
def closedSlots (p : TransportPump rb (Recorded W)) : List Nat := p.pendingCloseEvents.map Prod.fst

/-- The slots that are active were so at the start. When there is room for all
close events, the ones with an event are the others. -/
structure Closing (start p : TransportPump rb (Recorded W)) : Prop where
  within : p.channels.opens ⊆ start.channels.opens
  length : p.channels.slots.length = start.channels.slots.length
  degraded : p.sessionDegraded = true → start.channels.opens.Nonempty
  told : p.channels.slots.length ≤ maxCloseEvents → p.closedSlots.Nodup ∧
    (∀ i ∈ p.closedSlots, i ∈ start.channels.opens) ∧ p.channels.opens = start.channels.opens \ p.closedSlots.toFinset

theorem Closing.of_steady {p' : TransportPump rb (Recorded W)} (h : Closing start p) (hs : Steady p.channels p'.channels)
    (he : p'.pendingCloseEvents = p.pendingCloseEvents) (hd : p'.sessionDegraded = p.sessionDegraded) : Closing start p' := by
  have hc : p'.closedSlots = p.closedSlots := by rw [closedSlots, closedSlots, he]
  refine ⟨hs.1 ▸ h.within, hs.2.trans h.length, fun hbad => h.degraded (hd ▸ hbad), fun hsmall => ?_⟩
  rw [hs.1, hc]
  exact h.told (hs.2 ▸ hsmall)

theorem addCloseEvent_channels (p : TransportPump rb (Recorded W)) (i : Nat) (reason : ChannelCloseReason) :
    (p.addCloseEvent i reason).channels = p.channels := by
  unfold addCloseEvent
  split <;> rfl

/-- There is room for the event of an active slot. -/
theorem Closing.close {p' : TransportPump rb (Recorded W)} {i : Nat} (h : Closing start p) (hi : i ∈ p.channels.opens)
    (hc : p'.channels.opens = p.channels.opens.erase i) (hl : p'.channels.slots.length = p.channels.slots.length)
    (he : p'.pendingCloseEvents = p.pendingCloseEvents) (reason : ChannelCloseReason) :
    Closing start (p'.addCloseEvent i reason) := by
  refine ⟨?_, ?_, fun _ => ⟨i, h.within hi⟩, fun hsmall => ?_⟩
  · rw [addCloseEvent_channels, hc]
    exact (Finset.erase_subset _ _).trans h.within
  · rw [addCloseEvent_channels, hl]
    exact h.length
  rw [addCloseEvent_channels, hl] at hsmall
  obtain ⟨hnodup, hbefore, hnow⟩ := h.told hsmall
  rw [hnow, Finset.mem_sdiff, List.mem_toFinset] at hi
  have hlt : p'.pendingCloseEvents.length < maxCloseEvents := by
    have hcard : (insert i p.closedSlots.toFinset).card ≤ start.channels.opens.card :=
      Finset.card_le_card (Finset.insert_subset hi.1 fun j hj => hbefore j (List.mem_toFinset.1 hj))
    rw [Finset.card_insert_of_notMem (by simpa using hi.2), List.toFinset_card_of_nodup hnodup, closedSlots,
      List.length_map] at hcard
    rw [he]
    exact (hcard.trans (ChannelManager.opens_le.trans_eq h.length.symm)).trans hsmall
  have hevents : (p'.addCloseEvent i reason).closedSlots = p.closedSlots ++ [i] := by
    rw [closedSlots, addCloseEvent, if_pos hlt]
    simp [closedSlots, he]
  rw [hevents, addCloseEvent_channels, hc, hnow]
  refine ⟨List.Nodup.append hnodup (List.nodup_singleton i) (by simpa using hi.2), ?_, ?_⟩
  · intro j hj
    rw [List.mem_append, List.mem_singleton] at hj
    rcases hj with hj | rfl
    · exact hbefore j hj
    · exact hi.1
  · ext j
    simp only [Finset.mem_erase, Finset.mem_sdiff, List.mem_toFinset, List.mem_append, List.mem_singleton]
    tauto

theorem steady_readAll {m : ChannelManager rb (Recorded W)} (size : Nat) (slots : List Nat) :
    Steady m (readAll net.recorded size slots m).2 := by
  induction slots generalizing m with
  | nil => exact .refl m
  | cons i slots ih => exact (ChannelManager.steady_atSlotWith fun _ _ => (Turn.quiet_pumpSsh size).active).trans ih

theorem steady_fallback {m : ChannelManager rb (Recorded W)} : Steady m (fallback net.recorded m) := by
  unfold fallback
  split
  · exact ChannelManager.steady_atSlot Turn.quiet_pumpOne
  · split
    · exact ChannelManager.steady_atSlot Turn.quiet_pumpOne
    · exact .refl m

/-- The work on the slots frees none. -/
theorem Closing.of_slots {m : ChannelManager rb (Recorded W)} (h : Closing start p) (hs : Steady p.channels m) :
    Closing start { p with channels := m } :=
  h.of_steady hs rfl rfl

theorem Closing.pumpSshTransport (h : Closing start p) : Closing start (p.pumpSshTransport net.recorded) := by
  have hread : Steady p.channels (readAll net.recorded p.bufSize p.order (p.channels.lock net.recorded 50).2).2 :=
    steady_readAll net (m := (p.channels.lock net.recorded 50).2) p.bufSize p.order
  unfold TransportPump.pumpSshTransport
  dsimp only
  split
  · exact h.of_slots (.refl _)
  · split
    · exact h.of_slots hread
    · exact h.of_slots (hread.trans (steady_fallback net))

theorem Closing.drainSshToLocal (h : Closing start p) : Closing start (p.drainSshToLocal net.recorded) :=
  h.of_slots (ChannelManager.steady_turns _ fun _ => Turn.quiet_drainToLocal _)

theorem Closing.drainLocalToSsh (h : Closing start p) : Closing start (p.drainLocalToSsh net.recorded) := by
  unfold TransportPump.drainLocalToSsh
  split
  · exact h
  · exact h.of_steady (ChannelManager.steady_turns _ fun _ => Turn.quiet_drainToSsh _) rfl rfl

theorem Closing.checkOpens (h : Closing start p) : Closing start (p.checkOpens net.recorded) :=
  h.of_slots (ChannelManager.steady_turns (m := (p.channels.millis net.recorded).2) _ fun _ => Turn.quiet_checkOpen _)

/-- Sending the end of file frees no slot either. -/
theorem steady_sendEofs (slots : List Nat) :
    ∃ m, p.sendEofs net.recorded slots = { p with channels := m } ∧ Steady p.channels m := by
  unfold sendEofs
  split
  · exact ⟨p.channels, rfl, .refl _⟩
  · refine ⟨_, rfl, ?_⟩
    split
    · exact ChannelManager.steady_turns (m := (p.channels.lock net.recorded 100).2) slots fun _ => Turn.quiet_sendEof
    · exact .refl _

/-- What has been found in the slots before `n`. -/
structure Collecting (start : TransportPump rb (Recorded W)) (n : Nat) (c : Collected) (p : TransportPump rb (Recorded W)) :
    Prop where
  closing : Closing start p
  nodup : c.toClose.Nodup
  below : ∀ i ∈ c.toClose, i < n
  active : ∀ i ∈ c.toClose, i ∈ p.channels.opens

theorem active_of_due {now : UInt32} {ch : ChannelSlot rb} (h : Turn.due now ch ≠ .nothing) : ch.active = true := by
  by_contra hnot
  simp [Turn.due, hnot] at h

theorem Collecting.collect {n : Nat} {c : Collected} (h : Collecting start n c p) (now : UInt32) :
    Collecting start (n + 1) (collect net.recorded now (c, p) n).1 (collect net.recorded now (c, p) n).2 := by
  have hmore : Collecting start (n + 1) c p :=
    ⟨h.closing, h.nodup, fun i hi => (h.below i hi).trans n.lt_succ_self, h.active⟩
  unfold TransportPump.collect
  dsimp only
  split
  · exact hmore
  rename_i s hs
  have hactive : Turn.due now s.ch ≠ .nothing → n ∈ p.channels.opens := fun hdue =>
    ChannelManager.mem_opens.2 ⟨s, hs, active_of_due hdue⟩
  have hnew : n ∉ c.toClose := fun hn => lt_irrefl n (h.below n hn)
  split
  · exact hmore
  · dsimp only
    split
    · exact ⟨hmore.closing, hmore.nodup, hmore.below, hmore.active⟩
    · exact hmore
  · rename_i hdue
    dsimp only
    split
    · refine ⟨h.closing, List.Nodup.append h.nodup (List.nodup_singleton n) (by simpa using hnew), ?_, ?_⟩
      · intro i hi
        rcases List.mem_append.1 hi with hi | hi
        · exact hmore.below i hi
        · rw [List.mem_singleton.1 hi]
          exact n.lt_succ_self
      · intro i hi
        rcases List.mem_append.1 hi with hi | hi
        · exact h.active i hi
        · rw [List.mem_singleton.1 hi]
          exact hactive (by rw [hdue]; simp)
    · exact hmore
  · rename_i hdue
    have hopens := ChannelManager.opens_abandonSlot net p.channels n
    refine ⟨h.closing.close (hactive (by rw [hdue]; simp)) hopens (ChannelManager.length_atSlotWith _ _) (by rfl) _,
      h.nodup, hmore.below, fun i hi => ?_⟩
    rw [addCloseEvent_channels, hopens]
    exact Finset.mem_erase.2 ⟨fun hin => hnew (hin ▸ hi), h.active i hi⟩

theorem Collecting.collectAll (h : Closing start p) (now : UInt32) (n : Nat) :
    Collecting start n ((List.range n).foldl (TransportPump.collect net.recorded now) (⟨[], []⟩, p)).1
      ((List.range n).foldl (TransportPump.collect net.recorded now) (⟨[], []⟩, p)).2 := by
  induction n with
  | zero => exact ⟨h, .nil, by simp, by simp⟩
  | succ n ih =>
    rw [List.range_succ, List.foldl_append]
    exact ih.collect net now

/-- A close that was finished is told. -/
theorem Closing.finalize {i : Nat} (h : Closing start p) (hi : i ∈ p.channels.opens) :
    Closing start (p.finalize net.recorded i) ∧
      ∀ j ∈ p.channels.opens, j ≠ i → j ∈ (p.finalize net.recorded i).channels.opens := by
  have hopens := ChannelManager.opens_finalizeClose net p.channels i
  unfold TransportPump.finalize
  split
  · exact ⟨h, fun j hj _ => hj⟩
  dsimp only
  split
  · rename_i hdone
    rw [if_pos hdone] at hopens
    refine ⟨h.close hi hopens (ChannelManager.length_atSlotWith _ _) (by rfl) _, fun j hj hne => ?_⟩
    rw [addCloseEvent_channels, hopens]
    exact Finset.mem_erase.2 ⟨hne, hj⟩
  · rename_i hnot
    rw [if_neg hnot] at hopens
    exact ⟨h.of_slots ⟨hopens, ChannelManager.length_atSlotWith _ _⟩, fun j hj _ => by rwa [hopens]⟩

theorem Closing.finalizeAll {slots : List Nat} (h : Closing start p) (hn : slots.Nodup) (hs : ∀ i ∈ slots, i ∈ p.channels.opens) :
    Closing start (slots.foldl (TransportPump.finalize net.recorded) p) := by
  induction slots generalizing p with
  | nil => exact h
  | cons i slots ih =>
    obtain ⟨hnot, hn⟩ := List.nodup_cons.1 hn
    obtain ⟨hclosing, hothers⟩ := h.finalize net (hs i (by simp))
    refine ih hclosing hn fun j hj => hothers j (hs j (by simp [hj])) ?_
    rintro rfl
    exact hnot hj

theorem Closing.checkCloses (h : Closing start p) : Closing start (p.checkCloses net.recorded) := by
  have hopen := h.checkOpens net
  unfold TransportPump.checkCloses
  generalize p.checkOpens net.recorded = opened at hopen ⊢
  have hcollect := Collecting.collectAll net (hopen.of_slots (m := (opened.channels.millis net.recorded).2) (.refl _))
    (opened.channels.millis net.recorded).1 opened.channels.slots.length
  change Collecting start _ (opened.collectAll net.recorded).1 (opened.collectAll net.recorded).2 at hcollect
  dsimp only
  generalize opened.collectAll net.recorded = found at hcollect ⊢
  obtain ⟨m, hsent, heof⟩ := steady_sendEofs net (p := found.2) found.1.toSendEof
  rw [hsent]
  have hclosing : Closing start { found.2 with channels := m } := hcollect.closing.of_slots heof
  unfold TransportPump.finalizes
  split
  · exact hclosing
  · dsimp only
    have hlock := hclosing.of_slots (m := (m.lock net.recorded 200).2) (.refl _)
    split
    · refine (hlock.finalizeAll net hcollect.nodup fun i hi => ?_).of_slots (.refl _)
      exact heof.1 ▸ hcollect.active i hi
    · exact hlock

/-- The pump tells of the slots that were active before and are not after it. -/
theorem closing_pumpAll (hnone : p.pendingCloseEvents = []) (hgood : p.sessionDegraded = false) :
    Closing p (p.pumpAll net.recorded).2 := by
  have hstart : Closing p p := by
    refine ⟨subset_rfl, rfl, fun hbad => ?_, fun _ => ?_⟩
    · rw [hgood] at hbad
      cases hbad
    · simp [closedSlots, hnone]
  have hzero := hstart.of_slots (m := { p.channels with lastBytesMoved := 0 }) ⟨ChannelManager.opens_of_slots rfl, rfl⟩
  dsimp only [pumpAll]
  exact (((hzero.pumpSshTransport net).drainSshToLocal net).drainLocalToSsh net).checkCloses net

end TransportPump

end OrangeBox.Tunnel
