import OrangeBox.Lib.Conduit
import OrangeBox.Tunnel.Transport
/-!
# What the channels carry

In each direction of a slot the bytes that came in, that went out and that are
still buffered are related as for any buffer. Towards the channel nothing is
ever missing while the slot is active. Towards the socket bytes can be missing,
but those that arrive are in order.
-/
open Conduit

namespace OrangeBox.Tunnel

variable {R W : Type} {rb : Ringbuf R}

/-- The bytes in a buffer, if there is one. -/
def held (ring : Option (DataRingBuffer rb)) : List UInt8 := ring.elim [] (·.bytes)

@[simp] theorem held_some (ring : DataRingBuffer rb) : held (some ring) = ring.bytes := rfl

theorem ringEmpty_iff {ring : Option (DataRingBuffer rb)} : ChannelSlot.ringEmpty ring = true ↔ held ring = [] := by
  cases ring with
  | none => simp [ChannelSlot.ringEmpty, held]
  | some ring => simp [ChannelSlot.ringEmpty, held, DataRingBuffer.empty_iff]

/-! ## Towards the channel -/

/-- What a slot says about the direction from the socket to the channel. -/
structure OutView (rb : Ringbuf R) where
  active : Bool
  toRemote : Option (DataRingBuffer rb)
  eofSentMs : UInt32
  fromSocket : List UInt8
  toSsh : List UInt8

/-- While a slot is active, what came from its socket has been written to the
channel or is in the buffer. The end of file is sent after all of it. -/
structure Outward (bufSize : Nat) (v : OutView rb) : Prop where
  kept : v.toSsh <+: v.fromSocket
  carries : v.active = true → Carries v.fromSocket v.toSsh (held v.toRemote) 0
  finished : v.eofSentMs ≠ 0 → v.toSsh = v.fromSocket
  front : ∀ ring ∈ v.toRemote, ring.prepend.bytes.length ≤ bufSize

/-! ## Towards the socket -/

/-- What a slot says about the direction from the channel to the socket. -/
structure InView (rb : Ringbuf R) where
  active : Bool
  toLocal : Option (DataRingBuffer rb)
  fromSsh : List UInt8
  toSocket : List UInt8
  discarded : Nat
  overflowed : Nat
  refused : Nat

/-- As many bytes as the reads after the end of file can bring. -/
abbrev flushBytes : Nat := 4 * 512

/-- What arrives at the socket came from the channel in this order. What is
missing was read only to keep the session going or was refused by the socket. -/
structure Inward (bufSize : Nat) (v : InView rb) : Prop where
  kept : v.toSocket.Sublist v.fromSsh
  carries : v.active = true → Carries v.fromSsh v.toSocket (held v.toLocal) (v.discarded + v.overflowed + v.refused)
  front : ∀ ring ∈ v.toLocal, ring.prepend.bytes.length ≤ bufSize
  room : ∀ ring ∈ v.toLocal, ring.Allocated → v.overflowed = 0
  large : ∀ ring ∈ v.toLocal, flushBytes ≤ ring.capacity

theorem Inward.of_carries {bufSize : Nat} {v : InView rb}
    (hc : Carries v.fromSsh v.toSocket (held v.toLocal) (v.discarded + v.overflowed + v.refused))
    (hf : ∀ ring ∈ v.toLocal, ring.prepend.bytes.length ≤ bufSize)
    (hr : ∀ ring ∈ v.toLocal, ring.Allocated → v.overflowed = 0) (hl : ∀ ring ∈ v.toLocal, flushBytes ≤ ring.capacity) :
    Inward bufSize v :=
  ⟨(List.sublist_append_left _ _).trans hc.order, fun _ => hc, hf, hr, hl⟩

/-- A slot without a buffer. -/
theorem Inward.idle {bufSize : Nat} {v : InView rb} (hk : v.toSocket.Sublist v.fromSsh) (ha : v.active = false)
    (hn : v.toLocal = none) : Inward bufSize v := by
  refine ⟨hk, fun h => ?_, ?_, ?_, ?_⟩
  · rw [ha] at h
    cases h
  all_goals
    rw [hn]
    rintro ring ⟨⟩

theorem Outward.idle {bufSize : Nat} {v : OutView rb} (hk : v.toSsh <+: v.fromSocket)
    (he : v.eofSentMs ≠ 0 → v.toSsh = v.fromSocket) (ha : v.active = false) (hn : v.toRemote = none) :
    Outward bufSize v := by
  refine ⟨hk, fun h => ?_, he, ?_⟩
  · rw [ha] at h
    cases h
  · rw [hn]
    rintro ring ⟨⟩

/-! ## What leaves both directions alone -/

structure View (rb : Ringbuf R) where
  out : OutView rb
  into : InView rb

def Slot.view (s : Slot rb) : View rb :=
  { out := ⟨s.ch.active, s.ch.toRemote, s.ch.eofSentMs, s.flow.fromSocket, s.flow.toSsh⟩
    into := ⟨s.ch.active, s.ch.toLocal, s.flow.fromSsh, s.flow.toSocket, s.flow.discarded, s.flow.overflowed, s.flow.refused⟩ }

namespace Turn

variable (net : Net W) (t : Turn rb W)

def view : View rb := Slot.view ⟨t.ch, t.flow⟩

@[simp] theorem view_beginClose (reason : ChannelCloseReason) : (t.beginClose net reason).view = t.view := by
  unfold beginClose
  split <;> rfl

@[simp] theorem view_erred : (t.erred net).view = t.view := by
  unfold erred
  dsimp only
  split
  · exact view_beginClose net _ _
  · rfl

@[simp] theorem view_checkEof (channel : Channel) : (t.checkEof net channel).view = t.view := by
  unfold checkEof
  split <;> rfl

/-- A slot that has stalled is closed if it is open. -/
theorem view_stalled : (if t.ch.state = .opened then t.beginClose net .error else t).view = t.view := by
  split
  · exact view_beginClose net _ _
  · rfl

@[simp] theorem view_checkSendStall : (t.checkSendStall net).view = t.view := by
  unfold checkSendStall
  dsimp only
  split
  · split
    · exact view_stalled net (t.millis net).2
    · rfl
  · rfl

@[simp] theorem view_checkWriteStall : (t.checkWriteStall net).view = t.view := by
  unfold checkWriteStall
  dsimp only
  split
  · split
    · exact view_stalled net (t.millis net).2
    · rfl
  · rfl

@[simp] theorem view_checkBackpressure : t.checkBackpressure.view = t.view := by
  unfold checkBackpressure
  split
  · rfl
  · split <;> split <;> rfl

@[simp] theorem view_forwardEof : (t.forwardEof net).view = t.view := by
  unfold forwardEof
  split
  · rfl
  · split <;> rfl

@[simp] theorem view_checkIdle (now : UInt32) : (t.checkIdle net now).view = t.view := by
  unfold checkIdle
  split_ifs <;> first | rfl | exact view_beginClose net _ _

@[simp] theorem view_checkOpen (now : UInt32) : (t.checkOpen net now).view = t.view := by
  unfold checkOpen
  split_ifs
  · rfl
  · exact view_beginClose net _ _
  · exact view_beginClose net _ _
  · exact view_beginClose net _ _
  · rw [view_checkIdle, view_forwardEof]

@[simp] theorem view_closeSocket : (t.closeSocket net).view = t.view := by
  unfold closeSocket
  split <;> rfl

@[simp] theorem view_closeChannel (channel : Channel) : (t.closeChannel net channel).2.view = t.view := by
  unfold closeChannel
  split <;> rfl

@[simp] theorem view_freeChannel (channel : Channel) : (t.freeChannel net channel).2.view = t.view := by
  unfold freeChannel
  split <;> rfl

/-! ## Reads of the channel -/

variable {net t} {bufSize : Nat}

/-- A turn that did nothing but take bytes from the channel. -/
theorem Inward.discard (h : Inward bufSize t.view.into) (bytes : List UInt8) :
    Inward bufSize { t.view.into with fromSsh := t.flow.fromSsh ++ bytes, discarded := t.flow.discarded + bytes.length } := by
  refine ⟨h.kept.trans (List.sublist_append_left _ _), fun ha => ?_, h.front, h.room, h.large⟩
  have hc := (h.carries ha).overflow bytes
  rwa [show ∀ a b c d : Nat, a + b + c + d = a + d + b + c by omega] at hc

theorem into_pumpOnly (h : Inward bufSize t.view.into) (channel : Channel) (n : Nat) :
    Inward bufSize (t.pumpOnly net channel n).view.into := by
  unfold pumpOnly
  split
  · exact Inward.discard h _
  · exact h

@[simp] theorem out_pumpOnly (channel : Channel) (n : Nat) : (t.pumpOnly net channel n).view.out = t.view.out := by
  unfold pumpOnly
  split <;> rfl

/-- Bytes go to the buffer as far as there is room. -/
theorem into_store (h : Inward bufSize t.view.into) {ring : DataRingBuffer rb} (hring : t.ch.toLocal = some ring)
    {bytes : List UInt8} (hfit : ring.Allocated → bytes.length ≤ ring.available) :
    Inward bufSize (t.store bytes ring).2.2.view.into ∧
      (t.store bytes ring).2.2.ch.toLocal = some (t.store bytes ring).2.1 ∧
      DataRingBuffer.Same ring (t.store bytes ring).2.1 := by
  obtain ⟨n, ring', heq, hn, hbytes, hroom, hprepend, hsame⟩ := ring.write_spec bytes
  simp only [store, heq]
  refine ⟨⟨h.kept.trans (List.sublist_append_left _ _), fun ha => ?_, ?_, ?_, ?_⟩, by first | rfl | trivial, hsame⟩
  · have hc := (h.carries ha).enter_take bytes n
    simp only [view, Slot.view, hring, held_some] at hc ⊢
    rw [hbytes]
    rwa [show ∀ a b c d : Nat, a + b + c + d = a + (b + d) + c by omega] at hc
  · rintro r ⟨⟩
    rw [hprepend]
    exact h.front ring hring
  · rintro r ⟨⟩ ha
    have ha' := hsame.allocated.1 ha
    have h0 : t.flow.overflowed = 0 := h.room ring hring ha'
    simp only [view, Slot.view, h0, hroom (hfit ha'), Nat.sub_self]
  · rintro r ⟨⟩
    rw [hsame.capacity]
    exact h.large ring hring

@[simp] theorem out_store (bytes : List UInt8) (ring : DataRingBuffer rb) :
    (t.store bytes ring).2.2.view.out = t.view.out := rfl

theorem into_received (h : Inward bufSize t.view.into) {ring : DataRingBuffer rb} (hring : t.ch.toLocal = some ring)
    {bytes : List UInt8} (hfit : bytes.length ≤ ring.available) :
    Inward bufSize (t.received net bytes ring).2.view.into ∧
      (t.received net bytes ring).2.ch.toLocal = some (t.received net bytes ring).1 :=
  have hs := into_store h hring fun _ => hfit
  ⟨hs.1, hs.2.1⟩

@[simp] theorem out_received (bytes : List UInt8) (ring : DataRingBuffer rb) :
    (t.received net bytes ring).2.view.out = t.view.out := rfl

theorem into_readPaused (h : Inward bufSize t.view.into) {ring : DataRingBuffer rb} (hring : t.ch.toLocal = some ring)
    (channel : Channel) : Inward bufSize (t.readPaused net channel ring).view.into := by
  unfold readPaused
  split
  · rename_i bytes hsome hfits w hread
    exact (into_received (t := { t with world := w }) h hring (hfits.trans (Nat.min_le_left _ _))).1
  · exact h
  · exact h
  · rw [view_erred]
    exact h

@[simp] theorem out_readPaused (channel : Channel) (ring : DataRingBuffer rb) :
    (t.readPaused net channel ring).view.out = t.view.out := by
  unfold readPaused
  split
  · rfl
  · rfl
  · rfl
  · rw [view_erred]
    rfl

theorem into_readChunks {channel : Channel} {attempts : Nat} {readDone : Bool} {ring : DataRingBuffer rb}
    (h : Inward bufSize t.view.into) (hring : t.ch.toLocal = some ring) (size : Nat) :
    Inward bufSize (t.readChunks net size channel attempts readDone ring).2.view.into := by
  induction attempts generalizing t ring readDone with
  | zero => exact h
  | succ attempts ih =>
    unfold readChunks
    split
    · exact h
    · split
      · rename_i bytes hsome hfits w hread
        obtain ⟨hi, hr⟩ := into_received (t := { t with world := w }) h hring (hfits.trans (Nat.min_le_left _ _))
        dsimp only
        split
        · exact hi
        · exact ih hi hr
      · exact h
      · exact h
      · rw [view_erred]
        exact h

@[simp] theorem out_readChunks (size : Nat) (channel : Channel) (attempts : Nat) (readDone : Bool) (ring : DataRingBuffer rb) :
    (t.readChunks net size channel attempts readDone ring).2.view.out = t.view.out := by
  induction attempts generalizing t ring readDone with
  | zero => rfl
  | succ attempts ih =>
    unfold readChunks
    split
    · rfl
    · split
      · dsimp only
        split
        · rfl
        · rw [ih]
          rfl
      · rfl
      · rfl
      · rw [view_erred]
        rfl

theorem into_pumpSsh (h : Inward bufSize t.view.into) (size : Nat) : Inward bufSize (t.pumpSsh net size).2.view.into := by
  unfold pumpSsh
  split
  · split
    · exact into_pumpOnly h _ _
    · split
      · exact h
      · rename_i ring hring
        split
        · split
          · exact into_readPaused h hring _
          · exact h
        · dsimp only
          rw [view_checkEof]
          exact into_readChunks (t := { t with ch := { t.ch with sshReadPaused := false } }) h hring size
  · exact h

@[simp] theorem out_pumpSsh (size : Nat) : (t.pumpSsh net size).2.view.out = t.view.out := by
  unfold pumpSsh
  split
  · split
    · exact out_pumpOnly _ _
    · split
      · rfl
      · split
        · split
          · exact out_readPaused _ _
          · rfl
        · dsimp only
          rw [view_checkEof, out_readChunks]
          rfl
  · rfl

/-! ## Sends to the socket -/

/-- What a reader of a buffer gets when it does not ask for more than `bufSize`
bytes, nor for less than what was put back. -/
theorem read_ring {ring : DataRingBuffer rb} {n : Nat} (hn : n ≤ bufSize) (hfront : ring.prepend.bytes.length ≤ n)
    (hne : ring.empty = false) (hpos : 0 < n) :
    ∃ got ring', ring.read n = (got, ring') ∧ ring.bytes = got ++ ring'.bytes ∧ got ≠ [] ∧ got.length ≤ bufSize ∧
      ring'.prepend.bytes = [] ∧ ring'.Allocated ∧ ring'.capacity = ring.capacity := by
  obtain ⟨got, ring', hread, hbytes, hlen, hnil, hprepend, hsame⟩ := ring.read_spec hpos
  have hb : ring.bytes ≠ [] := by
    rw [Ne, ← ring.empty_iff, hne]
    decide
  have ha := ring.allocated_of_bytes hb
  exact ⟨got, ring', hread, hbytes, fun h => hb (hnil h), hlen.trans hn, hprepend hfront, hsame.allocated.2 ha, hsame.capacity⟩

theorem into_sendChunks {socket : Socket} {attempts : Nat} {ring : DataRingBuffer rb} (hpos : 0 < bufSize)
    (hcap : bufSize ≤ prependCap) (ha : t.ch.active = true) (h : Inward bufSize t.view.into)
    (hring : t.ch.toLocal = some ring) : Inward bufSize (t.sendChunks net bufSize socket attempts ring).view.into := by
  induction attempts generalizing t ring with
  | zero => exact h
  | succ attempts ih =>
    unfold sendChunks
    split
    · exact h
    rename_i hempty
    rw [Bool.not_eq_true] at hempty
    have hc : Carries t.flow.fromSsh t.flow.toSocket ring.bytes (t.flow.discarded + t.flow.overflowed + t.flow.refused) := by
      have hc := h.carries ha
      simpa only [view, Slot.view, hring, held_some] using hc
    have hfront : ring.prepend.bytes.length ≤ bufSize := h.front ring hring
    have hsize : ring.prepend.bytes.length ≤ ring.size ∧ 0 < ring.size := by
      constructor
      · rw [ring.size_eq, DataRingBuffer.bytes, List.length_append]
        exact Nat.le_add_right _ _
      · rw [DataRingBuffer.empty, decide_eq_false_iff_not] at hempty
        omega
    obtain ⟨got, ring', hread, hbytes, hne, hlen, hprepend, ha', hcapacity⟩ :=
      read_ring (Nat.min_le_right ring.size bufSize) (Nat.le_min.2 ⟨hsize.1, hfront⟩) hempty (Nat.lt_min.2 ⟨hsize.2, hpos⟩)
    -- A ring that holds something was allocated, so nothing has overflowed.
    have hover : t.flow.overflowed = 0 := by
      refine h.room ring hring (ring.allocated_of_bytes ?_)
      rw [hbytes]
      exact List.append_ne_nil_of_left_ne_nil hne _
    have hlarge : flushBytes ≤ ring'.capacity := by
      rw [hcapacity]
      exact h.large ring hring
    rw [hbytes] at hc
    simp only [hread]
    split
    · rename_i h0
      exact absurd (List.length_eq_zero_iff.1 h0) hne
    split
    · rename_i sent hsome hfits w hsend
      split
      · -- the rest goes back to the front
        rename_i hlt
        have hdrop : got.drop sent ≠ [] := by
          rw [Ne, List.drop_eq_nil_iff]
          omega
        have hdlen : (got.drop sent).length ≤ bufSize := by
          rw [List.length_drop]
          omega
        obtain ⟨hback, hpre, hsame⟩ := ring'.putBack_spec ha' hprepend hdrop (hdlen.trans hcap)
        apply Inward.of_carries
        · have := hc.leave_take sent
          rwa [← hback] at this
        · rintro r ⟨⟩
          rwa [hpre]
        · intro _ _ _
          exact hover
        · rintro r ⟨⟩
          rwa [hsame.capacity]
      · rename_i hall
        apply ih
        · exact ha
        · apply Inward.of_carries
          · rw [show got.take sent = got from List.take_of_length_le (Nat.le_of_not_lt hall)]
            exact hc.leave
          · rintro r ⟨⟩
            simp [hprepend]
          · intro _ _ _
            exact hover
          · rintro r ⟨⟩
            exact hlarge
        · rfl
    · -- The send failed for good: what was read is counted as refused.
      rename_i w hsend
      apply Inward.of_carries
      · have := hc.lose
        rwa [Nat.add_assoc] at this
      · rintro r ⟨⟩
        simp [hprepend]
      · intro _ _ _
        exact hover
      · rintro r ⟨⟩
        exact hlarge
    · -- The socket takes nothing now: all goes back to the front.
      rename_i w hsend
      obtain ⟨hback, hpre, hsame⟩ := ring'.putBack_spec ha' hprepend hne (hlen.trans hcap)
      have hdone : Inward bufSize
          (Turn.view { t with ch := { t.ch with toLocal := some (ring'.putBack got) } }).into := by
        apply Inward.of_carries
        · rw [← hback] at hc
          exact hc
        · rintro r ⟨⟩
          rwa [hpre]
        · intro _ _ _
          exact hover
        · rintro r ⟨⟩
          rwa [hsame.capacity]
      split
      · exact hdone
      · exact hdone

@[simp] theorem out_sendChunks (size : Nat) (socket : Socket) (attempts : Nat) (ring : DataRingBuffer rb) :
    (t.sendChunks net size socket attempts ring).view.out = t.view.out := by
  induction attempts generalizing t ring with
  | zero => rfl
  | succ attempts ih =>
    unfold sendChunks
    split
    · rfl
    · dsimp only
      split
      · rfl
      · split
        · split
          · rfl
          · rw [ih]
            rfl
        · rfl
        · split <;> rfl

theorem into_drainToLocal (hpos : 0 < bufSize) (hcap : bufSize ≤ prependCap) (h : Inward bufSize t.view.into) :
    Inward bufSize (t.drainToLocal net bufSize).view.into := by
  unfold drainToLocal
  split
  · rename_i ha _ hring
    rw [view_checkSendStall]
    exact into_sendChunks hpos hcap ha h hring
  · exact h

@[simp] theorem out_drainToLocal (size : Nat) : (t.drainToLocal net size).view.out = t.view.out := by
  unfold drainToLocal
  split
  · rw [view_checkSendStall, out_sendChunks]
  · rfl

/-! ## Writes to the channel -/

theorem Outward.of_carries {v : OutView rb} (hc : Carries v.fromSocket v.toSsh (held v.toRemote) 0)
    (he : v.eofSentMs ≠ 0 → v.toSsh = v.fromSocket) (hf : ∀ ring ∈ v.toRemote, ring.prepend.bytes.length ≤ bufSize) :
    Outward bufSize v :=
  ⟨⟨_, hc.exact⟩, fun _ => hc, he, hf⟩

theorem out_writeChunks {channel : Channel} {budget : Nat} {ring : DataRingBuffer rb} (hpos : 0 < bufSize)
    (hcap : bufSize ≤ prependCap) (ha : t.ch.active = true) (he : t.ch.eofSentMs = 0) (h : Outward bufSize t.view.out)
    (hring : t.ch.toRemote = some ring) (hfront : ring.prepend.bytes.length ≤ budget) :
    Outward bufSize (t.writeChunks net bufSize channel budget ring).view.out := by
  induction budget using Nat.strong_induction_on generalizing t ring with
  | _ budget ih =>
    unfold writeChunks
    split
    · exact h
    rename_i hmore
    simp only [Bool.or_eq_true, decide_eq_true_eq, not_or, Bool.not_eq_true] at hmore
    have hc : Carries t.flow.fromSocket t.flow.toSsh ring.bytes 0 := by
      have hc := h.carries ha
      simpa only [view, Slot.view, hring, held_some] using hc
    obtain ⟨got, ring', hread, hbytes, hne, hlen, hprepend, ha', -⟩ :=
      read_ring (Nat.min_le_right budget bufSize) (Nat.le_min.2 ⟨hfront, h.front ring hring⟩) hmore.2
        (Nat.lt_min.2 ⟨Nat.pos_of_ne_zero hmore.1, hpos⟩)
    rw [hbytes] at hc
    have hnot : ∀ {P : Prop}, t.ch.eofSentMs ≠ 0 → P := fun h => absurd he h
    -- If the channel takes nothing, all goes back to the front.
    have hputBack : Outward bufSize (Turn.view { t with ch := { t.ch with toRemote := some (ring'.putBack got) } }).out := by
      obtain ⟨hback, hpre, hsame⟩ := ring'.putBack_spec ha' hprepend hne (hlen.trans hcap)
      apply Outward.of_carries
      · rw [← hback] at hc
        exact hc
      · exact hnot
      · rintro r ⟨⟩
        rwa [hpre]
    simp only [hread]
    split
    · rename_i h0
      exact absurd (List.length_eq_zero_iff.1 h0) hne
    split
    · rename_i written hsome hfits w hwrite
      split
      · rename_i hlt
        have hdrop : got.drop written ≠ [] := by
          rw [Ne, List.drop_eq_nil_iff]
          omega
        have hdlen : (got.drop written).length ≤ bufSize := by
          rw [List.length_drop]
          omega
        obtain ⟨hback, hpre, hsame⟩ := ring'.putBack_spec ha' hprepend hdrop (hdlen.trans hcap)
        apply Outward.of_carries
        · have := hc.leave_take written
          rwa [← hback] at this
        · exact hnot
        · rintro r ⟨⟩
          rwa [hpre]
      · rename_i hall
        apply ih (budget - written) (by omega)
        · exact ha
        · exact he
        · apply Outward.of_carries
          · rw [show got.take written = got from List.take_of_length_le (Nat.le_of_not_lt hall)]
            exact hc.leave
          · exact hnot
          · rintro r ⟨⟩
            simp [hprepend]
        · rfl
        · simp [hprepend]
    · split
      · exact hputBack
      · exact hputBack
    · rw [view_erred]
      exact hputBack

@[simp] theorem into_writeChunks (size : Nat) (channel : Channel) (budget : Nat) (ring : DataRingBuffer rb) :
    (t.writeChunks net size channel budget ring).view.into = t.view.into := by
  induction budget using Nat.strong_induction_on generalizing t ring with
  | _ budget ih =>
    unfold writeChunks
    split
    · rfl
    rename_i hmore
    simp only [Bool.or_eq_true, decide_eq_true_eq, not_or, Bool.not_eq_true] at hmore
    dsimp only
    split
    · rfl
    split
    · split
      · rfl
      · rw [ih _ (by omega)]
        rfl
    · split <;> rfl
    · rw [view_erred]
      rfl

@[simp] theorem view_lock (ticks : Nat) : (t.lock net ticks).2.view = t.view := rfl

@[simp] theorem view_unlock : (t.unlock net).view = t.view := rfl

theorem out_writeToSsh {channel : Channel} (hpos : 0 < bufSize) (hcap : bufSize ≤ prependCap) (ha : t.ch.active = true)
    (he : t.ch.eofSentMs = 0) (h : Outward bufSize t.view.out) :
    Outward bufSize (t.writeToSsh net bufSize channel).view.out := by
  unfold writeToSsh
  split
  · exact h
  rename_i ring hring
  split
  · exact h
  dsimp only
  split
  · rw [view_checkWriteStall, view_unlock]
    have hfront : ring.prepend.bytes.length ≤ bufSize := h.front ring hring
    exact out_writeChunks (t := (t.lock net 20).2) hpos hcap ha he h hring (hfront.trans (hcap.trans (by decide)))
  · exact h

@[simp] theorem into_writeToSsh (size : Nat) (channel : Channel) :
    (t.writeToSsh net size channel).view.into = t.view.into := by
  unfold writeToSsh
  split
  · rfl
  · split
    · rfl
    · dsimp only
      split
      · rw [view_checkWriteStall, view_unlock, into_writeChunks, view_lock]
      · rfl

/-! ## Reads of the socket -/

theorem out_recvChunks {socket : Socket} {attempts : Nat} {ring : DataRingBuffer rb} (size : Nat) (ha : t.ch.active = true)
    (he : t.ch.eofSentMs = 0) (h : Outward bufSize t.view.out) (hring : t.ch.toRemote = some ring) :
    Outward bufSize (t.recvChunks net size socket attempts ring).view.out := by
  induction attempts generalizing t ring with
  | zero => exact h
  | succ attempts ih =>
    unfold recvChunks
    split
    · exact h
    split
    · rename_i bytes hsome hfits w hrecv
      obtain ⟨n, ring', heq, -, hbytes, hroom, hprepend, hsame⟩ := ring.write_spec bytes
      have hall : n = bytes.length := hroom (hfits.trans (Nat.min_le_left _ _))
      have hc : Carries t.flow.fromSocket t.flow.toSsh ring.bytes 0 := by
        have hc := h.carries ha
        simpa only [view, Slot.view, hring, held_some] using hc
      simp only [heq]
      apply ih
      · exact ha
      · exact he
      · apply Outward.of_carries
        · have := hc.enter bytes
          rwa [← show ring'.bytes = ring.bytes ++ bytes by rw [hbytes, hall, List.take_length]] at this
        · exact fun hne => absurd he hne
        · rintro r ⟨⟩
          rw [hprepend]
          exact h.front ring hring
      · rfl
    · exact h
    · exact h

@[simp] theorem into_recvChunks (size : Nat) (socket : Socket) (attempts : Nat) (ring : DataRingBuffer rb) :
    (t.recvChunks net size socket attempts ring).view.into = t.view.into := by
  induction attempts generalizing t ring with
  | zero => rfl
  | succ attempts ih =>
    unfold recvChunks
    split
    · rfl
    split
    · rw [ih]
      rfl
    · rfl
    · rfl

theorem out_readFromLocal (size : Nat) (ha : t.ch.active = true) (h : Outward bufSize t.view.out) :
    Outward bufSize (t.readFromLocal net size).view.out := by
  unfold readFromLocal
  split
  · rename_i hring
    split
    · rename_i hcond
      simp only [Bool.and_eq_true, decide_eq_true_eq] at hcond
      exact out_recvChunks size ha hcond.2 h hring
    · exact h
  · exact h

@[simp] theorem into_readFromLocal (size : Nat) : (t.readFromLocal net size).view.into = t.view.into := by
  unfold readFromLocal
  split
  · split
    · exact into_recvChunks _ _ _ _
    · rfl
  · rfl

theorem out_drainToSsh (hpos : 0 < bufSize) (hcap : bufSize ≤ prependCap) (h : Outward bufSize t.view.out) :
    Outward bufSize (t.drainToSsh net bufSize).view.out := by
  unfold drainToSsh
  split
  · rename_i channel ha hchannel
    split
    · exact h
    · rename_i he
      have hinto : ((t.writeToSsh net bufSize channel).checkBackpressure).view.into = t.view.into := by
        rw [view_checkBackpressure, into_writeToSsh]
      apply out_readFromLocal
      · exact (congrArg InView.active hinto).trans ha
      · rw [view_checkBackpressure]
        exact out_writeToSsh hpos hcap ha (not_not.1 he) h
  · exact h

@[simp] theorem into_drainToSsh (size : Nat) : (t.drainToSsh net size).view.into = t.view.into := by
  unfold drainToSsh
  split
  · split
    · rfl
    · rw [into_readFromLocal, view_checkBackpressure, into_writeToSsh]
  · rfl

/-! ## The end of file -/

/-- Nothing is buffered in either direction. -/
def Drained (t : Turn rb W) : Prop := t.ch.active = true ∧ held t.ch.toLocal = [] ∧ held t.ch.toRemote = []

theorem into_flushChunks {channel : Channel} {attempts : Nat} (h : Inward bufSize t.view.into)
    (hroom : ∀ ring ∈ t.ch.toLocal, ring.Allocated → attempts * 512 ≤ ring.available) :
    Inward bufSize (t.flushChunks net channel attempts).view.into := by
  induction attempts generalizing t with
  | zero => exact h
  | succ attempts ih =>
    unfold flushChunks
    split
    · rename_i bytes hsome hfits w hread
      dsimp only
      split
      · rename_i ring hring
        obtain ⟨hi, -, -⟩ := into_store (t := { t with world := w }) h hring fun ha =>
          hfits.trans (by have := hroom ring hring ha; omega)
        obtain ⟨n, ring', heq, -, hbytes, -, hprepend, hsame⟩ := ring.write_spec bytes
        refine ih hi fun r hr ha => ?_
        obtain rfl : ring' = r := by
          simp only [store, heq] at hr
          exact Option.some.inj hr
        -- each read takes no more room than it was allowed
        have hold := hroom ring hring (hsame.allocated.1 ha)
        have hbefore := ring.available_add_bytes (hsame.allocated.1 ha)
        have hafter := ring'.available_add_bytes ha
        rw [hbytes, hprepend, hsame.capacity, List.length_append, List.length_take] at hafter
        have hless : min n bytes.length ≤ 512 := (Nat.min_le_right _ _).trans hfits
        linarith
      · rename_i hnone
        have hno : ∀ {P : Prop}, ∀ ring ∈ t.ch.toLocal, P := by
          intro P ring hring
          rw [hnone] at hring
          cases hring
        refine ih ⟨h.kept.trans (List.sublist_append_left _ _), fun ha => ?_, h.front, fun ring hring => hno ring hring,
          h.large⟩ fun ring hring => hno ring hring
        have hc := (h.carries ha).overflow bytes
        rwa [show ∀ a b c d : Nat, a + b + c + d = a + (b + d) + c by omega] at hc
    · exact h

@[simp] theorem out_flushChunks (channel : Channel) (attempts : Nat) :
    (t.flushChunks net channel attempts).view.out = t.view.out := by
  induction attempts generalizing t with
  | zero => rfl
  | succ attempts ih =>
    unfold flushChunks
    split
    · dsimp only
      split
      · rw [ih]
        rfl
      · rw [ih]
        rfl
    · rfl

theorem into_sendEof (hd : t.Drained) (h : Inward bufSize t.view.into) : Inward bufSize (t.sendEof net).view.into := by
  unfold sendEof
  split
  · exact h
  dsimp only
  split
  · exact h
  refine into_flushChunks (t := { t with world := _ }) h fun ring hring ha => ?_
  have hbytes : ring.bytes = [] := by
    have hd := hd.2.1
    rwa [show t.ch.toLocal = some ring from hring, held_some] at hd
  have hroom := ring.available_add_bytes ha
  have hlarge : flushBytes ≤ ring.capacity := h.large ring hring
  rw [hbytes, List.length_nil] at hroom
  simp only [flushBytes] at hlarge
  omega

theorem out_sendEof (hd : t.Drained) (h : Outward bufSize t.view.out) : Outward bufSize (t.sendEof net).view.out := by
  unfold sendEof
  split
  · exact h
  rename_i channel hchannel
  dsimp only
  split
  · exact h
  have hsame : (flushChunks net channel 4 { t with world := (net.channelSendEof channel t.world).2 }).view.out = t.view.out :=
    out_flushChunks channel 4
  have hf : Outward bufSize (flushChunks net channel 4 { t with world := (net.channelSendEof channel t.world).2 }).view.out := by
    rw [hsame]
    exact h
  have hc := h.carries hd.1
  have hall : t.flow.toSsh = t.flow.fromSocket := by
    have hexact := hc.exact
    rwa [show held t.view.out.toRemote = [] from hd.2.2, List.append_nil] at hexact
  refine ⟨hf.kept, hf.carries, fun _ => ?_, hf.front⟩
  exact (congrArg OutView.toSsh hsame).trans (hall.trans (congrArg OutView.fromSocket hsame).symm)

/-! ## Giving a slot back -/

theorem into_releaseSlot (h : Inward bufSize t.view.into) : Inward bufSize (t.releaseSlot net).view.into := by
  rw [← view_closeSocket net t] at h
  exact .idle h.kept rfl rfl

theorem out_releaseSlot (h : Outward bufSize t.view.out) : Outward bufSize (t.releaseSlot net).view.out := by
  rw [← view_closeSocket net t] at h
  exact .idle h.kept h.finished rfl rfl

theorem into_finalizeClose (h : Inward bufSize t.view.into) : Inward bufSize (t.finalizeClose net).2.view.into := by
  unfold finalizeClose
  split
  · exact h
  split
  · exact into_releaseSlot h
  rename_i channel hchannel
  have hclose : Inward bufSize (t.closeChannel net channel).2.view.into := by rwa [view_closeChannel]
  have hfree : Inward bufSize ((t.closeChannel net channel).2.freeChannel net channel).2.view.into := by
    rwa [view_freeChannel]
  dsimp only
  split
  · exact hclose
  split
  · exact hfree
  · exact into_releaseSlot (t := { (_ : Turn rb W) with ch := _ }) hfree

theorem out_finalizeClose (h : Outward bufSize t.view.out) : Outward bufSize (t.finalizeClose net).2.view.out := by
  unfold finalizeClose
  split
  · exact h
  split
  · exact out_releaseSlot h
  rename_i channel hchannel
  have hclose : Outward bufSize (t.closeChannel net channel).2.view.out := by rwa [view_closeChannel]
  have hfree : Outward bufSize ((t.closeChannel net channel).2.freeChannel net channel).2.view.out := by
    rwa [view_freeChannel]
  dsimp only
  split
  · exact hclose
  split
  · exact hfree
  · exact out_releaseSlot (t := { (_ : Turn rb W) with ch := _ }) hfree

theorem into_abandonSlot (h : Inward bufSize t.view.into) : Inward bufSize (t.abandonSlot net).view.into := by
  unfold abandonSlot
  split
  · exact h
  · rw [← view_closeSocket net t] at h
    exact .idle h.kept rfl rfl

theorem out_abandonSlot (h : Outward bufSize t.view.out) : Outward bufSize (t.abandonSlot net).view.out := by
  unfold abandonSlot
  split
  · exact h
  · rw [← view_closeSocket net t] at h
    exact .idle h.kept (fun he => absurd rfl he) rfl rfl

end Turn

end OrangeBox.Tunnel
