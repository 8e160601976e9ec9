import OrangeBox.Lib.Run
import OrangeBox.Tunnel.SSHTunnel
import OrangeBox.Tunnel.Streams
/-!
# What the tunnel carries

Whatever happens to the tunnel, every slot goes on carrying its bytes as
`Outward` and `Inward` say: the invariant of one turn is lifted to the manager,
to the pump and to the calls of the tunnel.
-/
open Runs

namespace OrangeBox.Tunnel

variable {R W : Type} {rb : Ringbuf R} {bufSize : Nat}

structure Carried (bufSize : Nat) (v : View rb) : Prop where
  out : Outward bufSize v.out
  into : Inward bufSize v.into

/-! ## One slot -/

namespace Turn

variable {net : Net W} {t : Turn rb W}

theorem carried_pumpOnly (h : Carried bufSize t.view) (channel : Channel) (n : Nat) :
    Carried bufSize (t.pumpOnly net channel n).view :=
  ⟨by rw [out_pumpOnly]; exact h.out, into_pumpOnly h.into channel n⟩

theorem carried_pumpOne (h : Carried bufSize t.view) : Carried bufSize (t.pumpOne net).view := by
  unfold pumpOne
  split
  · exact carried_pumpOnly h _ _
  · exact h

theorem carried_pumpSsh (h : Carried bufSize t.view) (size : Nat) : Carried bufSize (t.pumpSsh net size).2.view :=
  ⟨by rw [out_pumpSsh]; exact h.out, into_pumpSsh h.into size⟩

theorem carried_drainToLocal (hpos : 0 < bufSize) (hcap : bufSize ≤ prependCap) (h : Carried bufSize t.view) :
    Carried bufSize (t.drainToLocal net bufSize).view :=
  ⟨by rw [out_drainToLocal]; exact h.out, into_drainToLocal hpos hcap h.into⟩

theorem carried_drainToSsh (hpos : 0 < bufSize) (hcap : bufSize ≤ prependCap) (h : Carried bufSize t.view) :
    Carried bufSize (t.drainToSsh net bufSize).view :=
  ⟨out_drainToSsh hpos hcap h.out, by rw [into_drainToSsh]; exact h.into⟩

theorem carried_sendEof (hd : t.Drained) (h : Carried bufSize t.view) : Carried bufSize (t.sendEof net).view :=
  ⟨out_sendEof hd h.out, into_sendEof hd h.into⟩

theorem carried_finalizeClose (h : Carried bufSize t.view) : Carried bufSize (t.finalizeClose net).2.view :=
  ⟨out_finalizeClose h.out, into_finalizeClose h.into⟩

theorem carried_abandonSlot (h : Carried bufSize t.view) : Carried bufSize (t.abandonSlot net).view :=
  ⟨out_abandonSlot h.out, into_abandonSlot h.into⟩

end Turn

/-! ## The manager -/

namespace ChannelManager

variable {net : Net W} {m : ChannelManager rb W} {i : Nat}

/-- The slots carry what they should, and new buffers will be large enough. -/
structure Sound (bufSize : Nat) (m : ChannelManager rb W) : Prop where
  slots : ∀ s ∈ m.slots, Carried bufSize s.view
  ring : flushBytes ≤ m.ringBufferSize

theorem Sound.atSlotWith {A : Type} {other : A} {f : Turn rb W → A × Turn rb W} (h : Sound bufSize m)
    (hf : ∀ s, m.slots[i]? = some s → Carried bufSize s.view → Carried bufSize (f (m.turn s)).2.view) :
    Sound bufSize (m.atSlotWith i other f).2 := by
  unfold ChannelManager.atSlotWith
  split
  · exact h
  · rename_i s hs
    refine ⟨fun s' hs' => ?_, h.ring⟩
    rcases List.mem_or_eq_of_mem_set hs' with hmem | rfl
    · exact h.slots s' hmem
    · exact hf s hs (h.slots s (List.mem_of_getElem? hs))

theorem Sound.atSlot {f : Turn rb W → Turn rb W} (h : Sound bufSize m)
    (hf : ∀ t : Turn rb W, Carried bufSize t.view → Carried bufSize (f t).view) : Sound bufSize (m.atSlot i f) :=
  h.atSlotWith fun _ _ hs => hf _ hs

theorem Sound.turns {f : Turn rb W → Turn rb W} (h : Sound bufSize m) (slots : List Nat)
    (hf : ∀ t : Turn rb W, Carried bufSize t.view → Carried bufSize (f t).view) :
    Sound bufSize (TransportPump.turns f slots m) := by
  induction slots generalizing m with
  | nil => exact h
  | cons i slots ih => exact ih (h.atSlot hf)

theorem Sound.beginClose (h : Sound bufSize m) (reason : ChannelCloseReason) : Sound bufSize (m.beginClose net i reason) :=
  h.atSlot fun t ht => by rwa [Turn.view_beginClose]

theorem Sound.finalizeClose (h : Sound bufSize m) : Sound bufSize (m.finalizeClose net i).2 :=
  h.atSlotWith fun _ _ hs => Turn.carried_finalizeClose hs

theorem Sound.abandonSlot (h : Sound bufSize m) : Sound bufSize (m.abandonSlot net i) :=
  h.atSlot fun _ ht => Turn.carried_abandonSlot ht

theorem Sound.allocateSlot (h : Sound bufSize m) : Sound bufSize (m.allocateSlot net).2 := by
  unfold ChannelManager.allocateSlot
  dsimp only
  split
  · exact ⟨h.slots, h.ring⟩
  · split
    · exact Sound.beginClose (m := (m.millis net).2) ⟨h.slots, h.ring⟩ _
    · exact ⟨h.slots, h.ring⟩

/-- A slot starts with nothing carried. -/
theorem carried_bound {ch : ChannelSlot rb} {channel : Channel} {socket : Socket} {now : UInt32} {size : Nat}
    {a b : Bool} (hsize : flushBytes ≤ size) :
    Carried bufSize (Slot.view ⟨bound channel socket (.new rb size a) (.new rb size b) now ch, .none⟩) := by
  have hheld : ∀ c : Bool, held (some (DataRingBuffer.new rb size c)) = [] := fun c => DataRingBuffer.bytes_new size c
  have hfront : ∀ c : Bool, (DataRingBuffer.new rb size c).prepend.bytes = [] := by
    intro c
    cases c <;> rfl
  have hcapacity : ∀ c : Bool, (DataRingBuffer.new rb size c).capacity = size := by
    intro c
    cases c <;> rfl
  constructor
  · refine ⟨List.prefix_rfl, fun _ => ?_, fun _ => rfl, ?_⟩
    · show Conduit.Carries [] [] (held (some (.new rb size b))) 0
      rw [hheld]
      exact .empty
    · rintro r ⟨⟩
      simp [hfront]
  · refine ⟨List.Sublist.refl _, fun _ => ?_, ?_, ?_, ?_⟩
    · show Conduit.Carries [] [] (held (some (.new rb size a))) 0
      rw [hheld]
      exact .empty
    · rintro r ⟨⟩
      simp [hfront]
    · intro _ _ _
      rfl
    · rintro r ⟨⟩
      rwa [hcapacity]

theorem Sound.bindChannel (h : Sound bufSize m) (channel : Channel) (mapping : TunnelConfig) :
    Sound bufSize (m.bindChannel net i channel mapping).2 := by
  unfold ChannelManager.bindChannel
  split
  · exact h
  split
  · exact h
  dsimp only
  split
  · exact ⟨h.slots, h.ring⟩
  split
  · exact ⟨h.slots, h.ring⟩
  split
  · exact ⟨h.slots, h.ring⟩
  refine ⟨fun s hs => ?_, h.ring⟩
  rcases List.mem_or_eq_of_mem_set hs with hmem | rfl
  · exact h.slots s hmem
  · exact carried_bound h.ring

/-! ## Slots that are drained -/

theorem slots_atSlotWith_of_ne {A : Type} {other : A} {f : Turn rb W → A × Turn rb W} {j : Nat} (h : i ≠ j) :
    (m.atSlotWith i other f).2.slots[j]? = m.slots[j]? := by
  unfold ChannelManager.atSlotWith
  split
  · rfl
  · exact List.getElem?_set_ne h

/-- Slot `j` is active and has nothing buffered. -/
def DrainedAt (m : ChannelManager rb W) (j : Nat) : Prop :=
  ∃ s, m.slots[j]? = some s ∧ s.ch.active = true ∧ held s.ch.toLocal = [] ∧ held s.ch.toRemote = []

theorem DrainedAt.atSlot {f : Turn rb W → Turn rb W} {j : Nat} (h : m.DrainedAt j) (hne : i ≠ j) :
    (m.atSlot i f).DrainedAt j := by
  obtain ⟨s, hs, hd⟩ := h
  exact ⟨s, (slots_atSlotWith_of_ne hne).trans hs, hd⟩

theorem Sound.sendEofs {slots : List Nat} (h : Sound bufSize m) (hn : slots.Nodup) (hd : ∀ j ∈ slots, m.DrainedAt j) :
    Sound bufSize (TransportPump.turns (Turn.sendEof net) slots m) := by
  induction slots generalizing m with
  | nil => exact h
  | cons i slots ih =>
    obtain ⟨hi, hn⟩ := List.nodup_cons.1 hn
    apply ih
    · refine h.atSlotWith fun s hs hc => Turn.carried_sendEof ?_ hc
      obtain ⟨s', hs', hdrained⟩ := hd i (by simp)
      obtain rfl := Option.some.inj (hs.symm.trans hs')
      exact hdrained
    · exact hn
    · intro j hj
      exact (hd j (by simp [hj])).atSlot (by rintro rfl; exact hi hj)

end ChannelManager

/-! ## The pump -/

namespace TransportPump

variable (net : Net W) {p : TransportPump rb W}

/-- `PREPEND_CAP` is as large as the buffer of the pump. -/
structure Sound (p : TransportPump rb W) : Prop where
  channels : p.channels.Sound p.bufSize
  pos : 0 < p.bufSize
  cap : p.bufSize ≤ prependCap

theorem Sound.of_channels {q : TransportPump rb W} (h : p.Sound) (hc : q.channels.Sound p.bufSize)
    (hb : q.bufSize = p.bufSize) : q.Sound :=
  ⟨hb ▸ hc, hb ▸ h.pos, hb ▸ h.cap⟩

/-- The pump with another state of the manager. -/
theorem Sound.set {m : ChannelManager rb W} (h : p.Sound) (hm : m.Sound p.bufSize) :
    ({ p with channels := m } : TransportPump rb W).Sound := h.of_channels hm rfl

theorem sound_fallback {m : ChannelManager rb W} (h : m.Sound bufSize) : (fallback net m).Sound bufSize := by
  unfold fallback
  split
  · exact h.atSlot fun _ ht => Turn.carried_pumpOne ht
  · split
    · exact h.atSlot fun _ ht => Turn.carried_pumpOne ht
    · exact h

theorem sound_readAll {m : ChannelManager rb W} (h : m.Sound bufSize) (size : Nat) (slots : List Nat) :
    (readAll net size slots m).2.Sound bufSize := by
  induction slots generalizing m with
  | nil => exact h
  | cons i slots ih => exact ih (h.atSlotWith fun _ _ hs => Turn.carried_pumpSsh hs size)

theorem Sound.pumpSshTransport (h : p.Sound) : (p.pumpSshTransport net).Sound := by
  have hlock : (p.channels.lock net 50).2.Sound p.bufSize := ⟨h.channels.slots, h.channels.ring⟩
  have hread : (readAll net p.bufSize p.order (p.channels.lock net 50).2).2.Sound p.bufSize :=
    sound_readAll net hlock p.bufSize p.order
  unfold TransportPump.pumpSshTransport
  dsimp only
  split
  · exact h.set hlock
  · apply h.set
    split
    · exact ⟨hread.slots, hread.ring⟩
    · exact ⟨(sound_fallback net hread).slots, (sound_fallback net hread).ring⟩

theorem Sound.drainSshToLocal (h : p.Sound) : (p.drainSshToLocal net).Sound :=
  h.set (h.channels.turns _ fun _ ht => Turn.carried_drainToLocal h.pos h.cap ht)

theorem Sound.drainLocalToSsh (h : p.Sound) : (p.drainLocalToSsh net).Sound := by
  unfold TransportPump.drainLocalToSsh
  split
  · exact h
  · exact h.of_channels (h.channels.turns _ fun _ ht => Turn.carried_drainToSsh h.pos h.cap ht) rfl

/-! ## Closing -/

theorem Sound.addCloseEvent (h : p.Sound) (i : Nat) (reason : ChannelCloseReason) : (p.addCloseEvent i reason).Sound := by
  unfold TransportPump.addCloseEvent
  split
  · exact h.of_channels h.channels rfl
  · exact h

theorem channels_addCloseEvent (i : Nat) (reason : ChannelCloseReason) : (p.addCloseEvent i reason).channels = p.channels := by
  unfold TransportPump.addCloseEvent
  split <;> rfl

theorem due_sendEof {now : UInt32} {ch : ChannelSlot rb} (h : Turn.due now ch = .sendEof) :
    ch.active = true ∧ held ch.toLocal = [] ∧ held ch.toRemote = [] := by
  unfold Turn.due at h
  split_ifs at h with ha _ _ _ hempty
  simp only [Bool.or_eq_true, not_or, Bool.not_eq_true', Bool.not_eq_false] at ha
  rw [Bool.and_eq_true, ringEmpty_iff, ringEmpty_iff] at hempty
  exact ⟨by simpa using ha.1, hempty⟩

/-- The slots that are to send their end of file. -/
structure Gathered (c : Collected) (p : TransportPump rb W) : Prop where
  sound : p.Sound
  nodup : c.toSendEof.Nodup
  drained : ∀ j ∈ c.toSendEof, p.channels.DrainedAt j

theorem Gathered.collect {c : Collected} {now : UInt32} {i : Nat} (h : Gathered c p) (hi : i ∉ c.toSendEof) :
    Gathered (TransportPump.collect net now (c, p) i).1 (TransportPump.collect net now (c, p) i).2 ∧
      ∀ j ∈ (TransportPump.collect net now (c, p) i).1.toSendEof, j = i ∨ j ∈ c.toSendEof := by
  have hsame : ∀ j ∈ c.toSendEof, j = i ∨ j ∈ c.toSendEof := fun _ => .inr
  unfold TransportPump.collect
  dsimp only
  split
  · exact ⟨h, hsame⟩
  rename_i s hs
  split
  · exact ⟨h, hsame⟩
  · rename_i hdue
    split
    · refine ⟨⟨h.sound, ?_, fun j hj => ?_⟩, fun j hj => ?_⟩
      · rw [List.nodup_append_comm]
        exact List.nodup_cons.2 ⟨hi, h.nodup⟩
      · rcases List.mem_append.1 hj with hj | hj
        · exact h.drained j hj
        · obtain rfl := List.mem_singleton.1 hj
          exact ⟨s, hs, due_sendEof hdue⟩
      · rcases List.mem_append.1 hj with hj | hj
        · exact .inr hj
        · exact .inl (List.mem_singleton.1 hj)
    · exact ⟨h, hsame⟩
  · split
    · exact ⟨⟨h.sound, h.nodup, h.drained⟩, hsame⟩
    · exact ⟨h, hsame⟩
  · refine ⟨⟨Sound.addCloseEvent (h.sound.of_channels h.sound.channels.abandonSlot (by rfl)) _ _, h.nodup, fun j hj => ?_⟩, hsame⟩
    rw [channels_addCloseEvent]
    exact (h.drained j hj).atSlot (by rintro rfl; exact hi hj)

theorem Gathered.collectAll {c : Collected} {now : UInt32} {slots : List Nat} (h : Gathered c p) (hn : slots.Nodup)
    (hd : ∀ j ∈ c.toSendEof, j ∉ slots) :
    Gathered (slots.foldl (TransportPump.collect net now) (c, p)).1 (slots.foldl (TransportPump.collect net now) (c, p)).2 := by
  induction slots generalizing c p with
  | nil => exact h
  | cons i slots ih =>
    obtain ⟨hi, hn⟩ := List.nodup_cons.1 hn
    obtain ⟨h', hmem⟩ := h.collect net (fun hj => hd i hj (by simp))
    refine ih h' hn fun j hj hin => ?_
    rcases hmem j hj with rfl | hold
    · exact hi hin
    · exact hd j hold (by simp [hin])

theorem Sound.finalize (h : p.Sound) (i : Nat) : (p.finalize net i).Sound := by
  unfold TransportPump.finalize
  split
  · exact h
  · dsimp only
    split
    · exact (h.set h.channels.finalizeClose).addCloseEvent _ _
    · exact h.set h.channels.finalizeClose

theorem Sound.finalizeAll (h : p.Sound) (slots : List Nat) : (slots.foldl (TransportPump.finalize net) p).Sound := by
  induction slots generalizing p with
  | nil => exact h
  | cons i slots ih => exact ih (h.finalize net i)

theorem Sound.checkOpens (h : p.Sound) : (p.checkOpens net).Sound := by
  have hm : (p.channels.millis net).2.Sound p.bufSize := ⟨h.channels.slots, h.channels.ring⟩
  exact h.set (hm.turns _ fun t ht => by rwa [Turn.view_checkOpen])

theorem Sound.collectAll (h : p.Sound) : Gathered (p.collectAll net).1 (p.collectAll net).2 := by
  have hm : (p.channels.millis net).2.Sound p.bufSize := ⟨h.channels.slots, h.channels.ring⟩
  have h0 : Gathered ⟨[], []⟩ { p with channels := (p.channels.millis net).2 } := ⟨h.set hm, .nil, by simp⟩
  exact h0.collectAll net List.nodup_range (by simp)

theorem Gathered.sendEofs {c : Collected} (h : Gathered c p) : (p.sendEofs net c.toSendEof).Sound := by
  unfold TransportPump.sendEofs
  split
  · exact h.sound
  · have hm : (p.channels.lock net 100).2.Sound p.bufSize := ⟨h.sound.channels.slots, h.sound.channels.ring⟩
    apply h.sound.set
    split
    · exact ⟨(hm.sendEofs h.nodup h.drained).slots, (hm.sendEofs h.nodup h.drained).ring⟩
    · exact hm

theorem Sound.finalizes (h : p.Sound) (slots : List Nat) : (p.finalizes net slots).Sound := by
  have hm : (p.channels.lock net 200).2.Sound p.bufSize := ⟨h.channels.slots, h.channels.ring⟩
  unfold TransportPump.finalizes
  split
  · exact h
  dsimp only
  split
  · have hall := (h.set hm).finalizeAll net slots
    exact hall.set ⟨hall.channels.slots, hall.channels.ring⟩
  · exact h.set hm

theorem Sound.checkCloses (h : p.Sound) : (p.checkCloses net).Sound := ((h.checkOpens net).collectAll net).sendEofs net |>.finalizes net _

theorem Sound.pumpAll (h : p.Sound) : (p.pumpAll net).2.Sound := by
  have h0 : ({ p with channels := { p.channels with lastBytesMoved := 0 } } : TransportPump rb W).Sound :=
    h.set ⟨h.channels.slots, h.channels.ring⟩
  dsimp only [TransportPump.pumpAll]
  exact (((h0.pumpSshTransport net).drainSshToLocal net).drainLocalToSsh net).checkCloses net

end TransportPump

/-! ## The tunnel -/

namespace SSHTunnel

variable (session : Session W) (config : ConnectionConfig) {t : SSHTunnel rb W}

def Sound (t : SSHTunnel rb W) : Prop := t.transport.Sound

theorem Sound.onChannels {A : Type} {f : ChannelManager rb W → A × ChannelManager rb W} (h : t.Sound)
    (hf : ∀ m : ChannelManager rb W, m.Sound t.transport.bufSize → (f m).2.Sound t.transport.bufSize) :
    (t.onChannels f).2.Sound :=
  TransportPump.Sound.set h (hf _ h.channels)

theorem Sound.onWorld {A : Type} (h : t.Sound) (f : W → A × W) : (t.onWorld f).2.Sound :=
  h.onChannels fun _ hm => ⟨hm.slots, hm.ring⟩

theorem Sound.changeWorld (h : t.Sound) (f : W → W) : (t.changeWorld f).Sound := h.onWorld _

theorem Sound.changeChannels {f : ChannelManager rb W → ChannelManager rb W} (h : t.Sound)
    (hf : ∀ m : ChannelManager rb W, m.Sound t.transport.bufSize → (f m).Sound t.transport.bufSize) :
    (t.changeChannels f).Sound :=
  h.onChannels hf

theorem Sound.dropChannel (h : t.Sound) (channel : Channel) : (t.dropChannel session channel).Sound :=
  (h.onWorld _).onWorld _

theorem Sound.closeAcceptedChannel (h : t.Sound) (channel : Channel) (ticks : Nat) :
    (t.closeAcceptedChannel session channel ticks).2.Sound := by
  unfold SSHTunnel.closeAcceptedChannel
  dsimp only
  split
  · exact ((h.onWorld _).dropChannel session channel).changeWorld _
  · exact h.onWorld _

theorem Sound.bindAcceptedChannel (h : t.Sound) (slot : Nat) (channel : Channel) (mapping : TunnelConfig) (ticks : Nat) :
    (t.bindAcceptedChannel session slot channel mapping ticks).2.Sound := by
  unfold SSHTunnel.bindAcceptedChannel
  dsimp only
  split
  · exact h.onWorld _
  · exact ((h.onWorld _).onChannels fun _ hm => hm.bindChannel channel mapping).changeWorld _

theorem Sound.enqueueDeferredClose (h : t.Sound) (channel : Channel) (mapping : TunnelConfig) :
    (t.enqueueDeferredClose session channel mapping).2.Sound := by
  have hclose := h.closeAcceptedChannel session channel 200
  unfold SSHTunnel.enqueueDeferredClose
  dsimp only
  split
  · exact hclose
  · split
    · exact hclose
    · exact hclose.onWorld _

theorem Sound.enqueuePending (h : t.Sound) (channel : Channel) (mapping : TunnelConfig) :
    (t.enqueuePending session channel mapping).Sound := h.onWorld _

theorem Sound.dropAll (h : t.Sound) (queue : List PendingChannel) : (t.dropAll session queue).Sound := by
  induction queue generalizing t with
  | nil => exact h
  | cons p queue ih => exact ih (h.dropChannel session p.channel)

theorem Sound.clearPendingQueue (h : t.Sound) : (t.clearPendingQueue session).Sound := by
  unfold SSHTunnel.clearPendingQueue
  split
  · exact h
  · dsimp only
    split
    · exact ((h.onWorld _).dropAll session _).changeWorld _
    · exact h.onWorld _

theorem Sound.clearDeferredCloseQueue (h : t.Sound) : (t.clearDeferredCloseQueue session).Sound := by
  unfold SSHTunnel.clearDeferredCloseQueue
  split
  · exact h
  · dsimp only
    split
    · exact ((h.onWorld _).dropAll session _).changeWorld _
    · exact h.onWorld _

theorem Sound.abandonAll (h : t.Sound) (slots : List Nat) :
    (slots.foldl (fun t i => t.changeChannels (.abandonSlot session.toNet i)) t).Sound := by
  induction slots generalizing t with
  | nil => exact h
  | cons i slots ih => exact ih (h.changeChannels fun _ hm => hm.abandonSlot)

theorem Sound.forgetAll (h : t.Sound) : (t.forgetAll session).Sound := h.abandonAll session _

theorem Sound.giveUpSlot (h : t.Sound) (locked : Bool) (reason : ChannelSlot rb → ChannelCloseReason) (i : Nat) :
    (t.giveUpSlot session locked reason i).Sound := by
  unfold SSHTunnel.giveUpSlot
  split
  · exact h
  · split
    · cases locked
      · exact h.changeChannels fun _ hm => hm.abandonSlot
      · exact h.onChannels fun _ hm => hm.finalizeClose
    · exact h

theorem Sound.giveUpAll (h : t.Sound) (locked : Bool) (reason : ChannelSlot rb → ChannelCloseReason) (slots : List Nat) :
    (slots.foldl (SSHTunnel.giveUpSlot session locked reason) t).Sound := by
  induction slots generalizing t with
  | nil => exact h
  | cons i slots ih => exact ih (h.giveUpSlot session locked reason i)

theorem Sound.giveUp (h : t.Sound) (locked : Bool) (reason : ChannelSlot rb → ChannelCloseReason) :
    (t.giveUp session locked reason).Sound := by
  have hall := h.giveUpAll session locked reason t.slotIndices
  unfold SSHTunnel.giveUp
  dsimp only
  split
  · exact ((hall.changeWorld _).changeWorld _).forgetAll session
  · exact (hall.changeWorld _).forgetAll session

theorem Sound.clearQueues (h : t.Sound) : (t.clearQueues session).Sound :=
  (h.clearPendingQueue session).clearDeferredCloseQueue session

theorem Sound.enterErrorState (h : t.Sound) : (t.enterErrorState session).Sound :=
  (((h.clearQueues session).onWorld _).giveUp session _ _).onWorld _

theorem Sound.disconnect (h : t.Sound) : (t.disconnect session).Sound := by
  have hlock : ((t.clearQueues session).lockConnected session).2.Sound := by
    unfold SSHTunnel.lockConnected
    split
    · exact (h.clearQueues session).onWorld _
    · exact h.clearQueues session
  have hdown := hlock.giveUp session ((t.clearQueues session).lockConnected session).1 fun _ => .manual
  unfold SSHTunnel.disconnect
  dsimp only
  split
  · exact hdown
  · exact hdown

theorem Sound.connectSSH (h : t.Sound) : (t.connectSSH session).2.Sound := by
  unfold SSHTunnel.connectSSH
  dsimp only
  split
  · exact h
  · have hconnect : (SSHTunnel.onWorld session.connect
        { (t.onWorld session.millis).2 with
          state := .connecting, lastConnectionAttempt := (t.onWorld session.millis).1 }).2.Sound :=
      Sound.onWorld (show Sound { (t.onWorld session.millis).2 with state := _, lastConnectionAttempt := _ } from
        h.onWorld session.millis) _
    split
    · exact hconnect
    · exact hconnect.onWorld _

theorem Sound.cooldown (h : t.Sound) : (t.cooldown session config).2.Sound := by
  unfold SSHTunnel.cooldown
  dsimp only
  split
  · split
    · exact h.onWorld _
    · exact h.onWorld _
  · exact h

theorem Sound.reconnect (h : t.Sound) : (t.reconnect session).Sound := by
  have hdown := ((h.clearQueues session).changeWorld session.disconnect).forgetAll session
  generalize hd : ((t.clearQueues session).changeWorld session.disconnect).forgetAll session = down at hdown
  have hconnect := Sound.connectSSH session (show Sound { down with reconnectAttempts := down.reconnectAttempts + 1 } from hdown)
  unfold SSHTunnel.reconnect
  rw [hd]
  dsimp only
  split
  · exact hconnect
  · exact hconnect

theorem Sound.handleReconnection (h : t.Sound) : (t.handleReconnection session config).Sound := by
  have hcool := h.cooldown session config
  unfold SSHTunnel.handleReconnection
  dsimp only
  split
  · exact hcool
  · split
    · exact hcool.onWorld _
    · exact (hcool.onWorld _).reconnect session

/-! ## Accepting and waiting -/

theorem Sound.placeChannel (h : t.Sound) (channel : Channel) (mapping : TunnelConfig) :
    (t.placeChannel session channel mapping).2.Sound := by
  have hnow := h.onWorld session.millis
  have hslot : ((t.onWorld session.millis).2.onChannels (ChannelManager.allocateSlot session.toNet)).2.Sound :=
    hnow.onChannels fun _ hm => hm.allocateSlot
  unfold SSHTunnel.placeChannel
  dsimp only
  split
  · have hclose := hnow.closeAcceptedChannel session channel 200
    split
    · exact hclose
    · exact hclose.enqueueDeferredClose session channel mapping
  · split
    · rename_i slot _
      have hbind := hslot.bindAcceptedChannel session slot channel mapping 200
      split
      · rename_i heq
        rw [heq] at hbind
        exact hbind
      · rename_i heq
        rw [heq] at hbind
        split
        · exact hbind.enqueuePending session channel mapping
        · exact hbind.enqueueDeferredClose session channel mapping
      · rename_i heq
        rw [heq] at hbind
        exact hbind.enqueueDeferredClose session channel mapping
    · split
      · exact hslot.enqueuePending session channel mapping
      · have hclose := hslot.closeAcceptedChannel session channel 500
        have hqueue := hclose.enqueueDeferredClose session channel mapping
        split
        · exact hclose
        · split
          · exact hqueue
          · exact hqueue.closeAcceptedChannel session channel 1000

theorem Sound.handleNewConnection (h : t.Sound) : (t.handleNewConnection session).2.Sound := by
  have haccept := h.onWorld session.acceptChannel
  unfold SSHTunnel.handleNewConnection
  dsimp only
  split
  · dsimp only
    split
    · exact haccept.enterErrorState session
    · exact haccept
  · exact haccept.placeChannel session _ _

theorem Sound.acceptAll (h : t.Sound) (rounds : Nat) : (t.acceptAll session rounds).Sound := by
  induction rounds generalizing t with
  | zero => exact h
  | succ rounds ih =>
    have hnew := h.handleNewConnection session
    unfold SSHTunnel.acceptAll
    dsimp only
    split
    · exact ih hnew
    · exact hnew

theorem Sound.drain {step : PendingChannel → SSHTunnel rb W → Option PendingChannel × SSHTunnel rb W} (h : t.Sound)
    (hstep : ∀ p (t : SSHTunnel rb W), t.Sound → (step p t).2.Sound) (queue : List PendingChannel) :
    (t.drain step queue).2.Sound := by
  induction queue generalizing t with
  | nil => exact h
  | cons p queue ih => exact ih (hstep p t h)

theorem Sound.closePending (h : t.Sound) (ticks : Nat) (p : PendingChannel) : (t.closePending session ticks p).2.Sound :=
  h.closeAcceptedChannel session p.channel ticks

theorem Sound.drainPendingStep (h : t.Sound) (now : UInt32) (p : PendingChannel) :
    (t.drainPendingStep session now p).2.Sound := by
  have hslot : (t.onChannels (ChannelManager.allocateSlot session.toNet)).2.Sound :=
    h.onChannels fun _ hm => hm.allocateSlot
  unfold SSHTunnel.drainPendingStep
  split
  · exact h.closePending session _ p
  split
  · exact h.closePending session _ p
  dsimp only
  split
  · exact hslot
  · rename_i slot _
    have hbind := hslot.bindAcceptedChannel session slot p.channel p.mapping 200
    split
    · rename_i heq
      rw [heq] at hbind
      exact hbind
    · rename_i heq
      rw [heq] at hbind
      exact hbind
    · rename_i heq
      rw [heq] at hbind
      exact hbind.closePending session 200 p

theorem Sound.cleanStep (h : t.Sound) (now : UInt32) (p : PendingChannel) : (t.cleanStep session now p).2.Sound := by
  unfold SSHTunnel.cleanStep
  split
  · exact h.closePending session 200 p
  · exact h

theorem Sound.drainPendingQueue (h : t.Sound) : (t.drainPendingQueue session).Sound :=
  (h.onWorld session.millis).drain (fun p _ ht => ht.drainPendingStep session _ p) _

theorem Sound.cleanExpiredPending (h : t.Sound) : (t.cleanExpiredPending session).Sound :=
  (h.onWorld session.millis).drain (fun p _ ht => ht.cleanStep session _ p) _

theorem Sound.drainDeferredCloseQueue (h : t.Sound) : (t.drainDeferredCloseQueue session).Sound :=
  (h.onWorld session.millis).drain (fun p _ ht => ht.closePending session _ p) _

/-! ## The loop -/

theorem Sound.checkHealth (h : t.Sound) : (t.checkHealth session).2.Sound := by
  unfold SSHTunnel.checkHealth
  dsimp only
  split
  · exact h
  · split
    · exact Sound.enterErrorState session (show Sound { t with socketHealthFailures := t.socketHealthFailures + 1 } from h)
    · exact h

theorem Sound.keepAlive (h : t.Sound) : (t.keepAlive session config).2.Sound := by
  unfold SSHTunnel.keepAlive
  dsimp only
  split
  · split
    · exact (h.onWorld _).onWorld _
    · exact ((h.onWorld _).onWorld _).enterErrorState session
  · exact h.onWorld _

theorem Sound.emitAll (h : t.Sound) (es : List (Nat × ChannelCloseReason)) :
    (es.foldl (fun t e => t.emit (.channelClosed e.1 e.2)) t).Sound := by
  induction es generalizing t with
  | nil => exact h
  | cons e es ih => exact ih (t := t.emit (.channelClosed e.1 e.2)) h

theorem Sound.pump (h : t.Sound) : (t.pump session).Sound := by
  have hp : (t.transport.pumpAll session.toNet).2.Sound := TransportPump.Sound.pumpAll session.toNet h
  unfold SSHTunnel.pump
  generalize t.transport.pumpAll session.toNet = pumped at hp ⊢
  have ht : Sound { t with transport := (pumped.2.consumeCloseEvents maxCloseEvents).2 } := hp.of_channels hp.channels rfl
  exact ht.emitAll _

theorem Sound.drainQueues (h : t.Sound) : (t.drainQueues session).Sound := by
  unfold SSHTunnel.drainQueues
  have hpending : (if t.pendingQueue.isEmpty then t else (t.cleanExpiredPending session).drainPendingQueue session).Sound := by
    split
    · exact h
    · exact (h.cleanExpiredPending session).drainPendingQueue session
  dsimp only
  generalize (if t.pendingQueue.isEmpty then t else (t.cleanExpiredPending session).drainPendingQueue session) = t₁ at hpending ⊢
  split
  · exact hpending
  · exact hpending.drainDeferredCloseQueue session

theorem Sound.loopConnected (h : t.Sound) : (t.loopConnected session config).Sound := by
  have hhealth := h.checkHealth session
  have halive := hhealth.keepAlive session config
  unfold SSHTunnel.loopConnected
  split
  · exact h.enterErrorState session
  dsimp only
  split
  · exact hhealth
  split
  · exact halive
  generalize ((t.checkHealth session).2.keepAlive session config).2 = t₁ at halive ⊢
  have hclose : (if t₁.deferredCloseQueue.isEmpty then t₁ else t₁.drainDeferredCloseQueue session).Sound := by
    split
    · exact halive
    · exact halive.drainDeferredCloseQueue session
  generalize (if t₁.deferredCloseQueue.isEmpty then t₁ else t₁.drainDeferredCloseQueue session) = t₂ at hclose ⊢
  have hpump := (hclose.acceptAll session (t₂.transport.channels.slots.length + 1)).pump session
  generalize (t₂.acceptAll session (t₂.transport.channels.slots.length + 1)).pump session = t₃ at hpump ⊢
  split
  · have hclear : Sound { t₃ with transport := { t₃.transport with sessionDegraded := false } } :=
      hpump.of_channels hpump.channels rfl
    exact hclear.enterErrorState session
  · exact hpump.drainQueues session

theorem Sound.loop (h : t.Sound) : (t.loop session config).Sound := by
  unfold SSHTunnel.loop
  split
  · exact h.handleReconnection session config
  · exact h
  · exact h.loopConnected session config

/-- What happens to a tunnel: its user calls it, or something happens elsewhere. -/
inductive Call (W : Type) where
  | connectSSH
  | loop
  | disconnect
  | elsewhere (change : W → W)

def call (e : Call W) (t : SSHTunnel rb W) : SSHTunnel rb W :=
  match e with
  | .connectSSH => (t.connectSSH session).2
  | .loop => t.loop session config
  | .disconnect => t.disconnect session
  | .elsewhere change => t.changeWorld change

theorem Sound.call (h : t.Sound) (e : Call W) : (t.call session config e).Sound := by
  cases e with
  | connectSSH => exact h.connectSSH session
  | loop => exact h.loop session config
  | disconnect => exact h.disconnect session
  | elsewhere change => exact h.changeWorld change

end SSHTunnel

end OrangeBox.Tunnel
