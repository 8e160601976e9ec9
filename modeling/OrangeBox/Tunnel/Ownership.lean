import OrangeBox.Lib.Ledger
import OrangeBox.Lib.Run
import OrangeBox.Tunnel.SSHTunnel
/-!
# Who holds a channel

The world of a tunnel is given a record of what is done with the channels of
the library. A channel that was accepted is held by one slot or by one of the
queues until it is given back, and it is not used after that.
-/
open Ledger Runs

namespace OrangeBox.Tunnel

variable {R W : Type} {rb : Ringbuf R}

/-- A world with a record. -/
abbrev Recorded (W : Type) := W × List (Entry Channel)

namespace Recorded

/-- A call that has nothing to do with channels. -/
def pass {A : Type} (f : W → A × W) (w : Recorded W) : A × Recorded W :=
  let (a, w') := f w.1
  (a, (w', w.2))

def note {A : Type} (e : Entry Channel) (f : W → A × W) (w : Recorded W) : A × Recorded W :=
  let (a, w') := f w.1
  (a, (w', w.2 ++ [e]))

variable {A : Type} {f : W → A × W} {w w' : Recorded W} {a : A} {e : Entry Channel}

theorem of_pass (h : pass f w = (a, w')) : w'.2 = w.2 := by
  rw [← show (pass f w).2 = w' from congrArg Prod.snd h]
  rfl

theorem of_note (h : note e f w = (a, w')) : w'.2 = w.2 ++ [e] := by
  rw [← show (note e f w).2 = w' from congrArg Prod.snd h]
  rfl

end Recorded

def Net.recorded (net : Net W) : Net (Recorded W) where
  millis := Recorded.pass net.millis
  lock ticks := Recorded.pass (net.lock ticks)
  unlock w := (net.unlock w.1, w.2)
  channelRead channel n := Recorded.note (.used channel) (net.channelRead channel n)
  channelEof channel := Recorded.note (.used channel) (net.channelEof channel)
  channelWrite channel data := Recorded.note (.used channel) (net.channelWrite channel data)
  channelSendEof channel := Recorded.note (.used channel) (net.channelSendEof channel)
  channelClose channel := Recorded.note (.used channel) (net.channelClose channel)
  channelFree channel w :=
    let (rc, w') := net.channelFree channel w.1
    (rc, (w', w.2 ++ [.released channel (rc ≠ errorEagain)]))
  connectToLocalEndpoint mapping := Recorded.pass (net.connectToLocalEndpoint mapping)
  send socket data := Recorded.pass (net.send socket data)
  recv socket n := Recorded.pass (net.recv socket n)
  shutdown socket w := (net.shutdown socket w.1, w.2)
  close socket w := (net.close socket w.1, w.2)
  largestFreeBlock psram w := net.largestFreeBlock psram w.1
  allocate size := Recorded.pass (net.allocate size)

def Session.recorded (session : Session W) : Session (Recorded W) where
  toNet := session.toNet.recorded
  connect := Recorded.pass session.connect
  disconnect w := (session.disconnect w.1, w.2 ++ [.allGone])
  isConnected w := session.isConnected w.1
  checkConnection w := session.checkConnection w.1
  sendKeepalive := Recorded.pass session.sendKeepalive
  acceptChannel w :=
    match session.acceptChannel w.1 with
    | (none, w') => (none, (w', w.2))
    | (some (channel, mapping), w') => (some (channel, mapping), (w', w.2 ++ [.acquired channel]))
  hasFatalAcceptFailure w := session.hasFatalAcceptFailure w.1

/-! ## One turn -/

/-- A slot that is free has no channel. -/
def ChannelSlot.Idle (ch : ChannelSlot rb) : Prop := ch.active = false → ch.sshChannel = none

namespace Turn

/-- The channel stays where it is, and nothing but this channel is used. -/
structure Quiet (t t' : Turn rb (Recorded W)) : Prop where
  channel : t'.ch.sshChannel = t.ch.sshChannel
  active : t'.ch.active = t.ch.active
  count : t'.activeCount = t.activeCount
  calls : ∃ es, t'.world.2 = t.world.2 ++ es ∧ ∀ e ∈ es, ∃ c ∈ t.ch.sshChannel, e = .used c

variable {net : Net W} {t t' t'' : Turn rb (Recorded W)}

theorem Quiet.refl (t : Turn rb (Recorded W)) : Quiet t t := ⟨rfl, rfl, rfl, [], (List.append_nil _).symm, by simp⟩

theorem Quiet.trans (h : Quiet t t') (h' : Quiet t' t'') : Quiet t t'' := by
  obtain ⟨es, heq, hes⟩ := h.calls
  obtain ⟨es', heq', hes'⟩ := h'.calls
  refine ⟨h'.channel.trans h.channel, h'.active.trans h.active, h'.count.trans h.count, es ++ es', ?_, fun e he => ?_⟩
  · rw [heq', heq, List.append_assoc]
  · rcases List.mem_append.1 he with he | he
    · exact hes e he
    · rw [← h.channel]
      exact hes' e he

/-- Nothing that matters has changed. -/
theorem Quiet.of_eq (hc : t'.ch.sshChannel = t.ch.sshChannel) (ha : t'.ch.active = t.ch.active)
    (hn : t'.activeCount = t.activeCount) (hw : t'.world.2 = t.world.2) : Quiet t t' :=
  ⟨hc, ha, hn, [], by rw [hw, List.append_nil], by simp⟩

/-- One call with the slot's channel. -/
theorem Quiet.of_used {channel : Channel} (hm : channel ∈ t.ch.sshChannel) (hc : t'.ch.sshChannel = t.ch.sshChannel)
    (ha : t'.ch.active = t.ch.active) (hn : t'.activeCount = t.activeCount)
    (hw : t'.world.2 = t.world.2 ++ [.used channel]) : Quiet t t' :=
  ⟨hc, ha, hn, [.used channel], hw, fun _ he => ⟨channel, hm, List.mem_singleton.1 he⟩⟩

/-- A change that does not matter comes first. -/
theorem Quiet.of_same (h : Quiet t' t'') (hc : t'.ch.sshChannel = t.ch.sshChannel) (ha : t'.ch.active = t.ch.active)
    (hn : t'.activeCount = t.activeCount) (hw : t'.world.2 = t.world.2) : Quiet t t'' :=
  (Quiet.of_eq hc ha hn hw).trans h

/-- A call with the slot's channel comes first. -/
theorem Quiet.of_use {channel : Channel} (h : Quiet t' t'') (hm : channel ∈ t.ch.sshChannel)
    (hc : t'.ch.sshChannel = t.ch.sshChannel) (ha : t'.ch.active = t.ch.active) (hn : t'.activeCount = t.activeCount)
    (hw : t'.world.2 = t.world.2 ++ [.used channel]) : Quiet t t'' :=
  (Quiet.of_used hm hc ha hn hw).trans h

theorem quiet_beginClose (reason : ChannelCloseReason) : Quiet t (t.beginClose net.recorded reason) := by
  unfold beginClose
  split
  · exact .refl t
  · exact .of_eq rfl rfl rfl rfl

theorem quiet_erred : Quiet t (t.erred net.recorded) := by
  unfold erred
  dsimp only
  split
  · exact (quiet_beginClose _).of_same rfl rfl rfl rfl
  · exact .of_eq rfl rfl rfl rfl

theorem quiet_stalled : Quiet t (if t.ch.state = .opened then t.beginClose net.recorded .error else t) := by
  split
  · exact quiet_beginClose _
  · exact .refl t

/-- A slot that has stalled. -/
theorem quiet_millis_stalled : Quiet t (if (t.millis net.recorded).2.ch.state = .opened
    then (t.millis net.recorded).2.beginClose net.recorded .error else (t.millis net.recorded).2) :=
  quiet_stalled.of_same rfl rfl rfl rfl

/-! ### From the channel to the socket -/

theorem quiet_checkEof {channel : Channel} (hm : channel ∈ t.ch.sshChannel) : Quiet t (t.checkEof net.recorded channel) := by
  unfold checkEof
  split
  · exact .refl t
  · exact .of_used hm rfl rfl rfl rfl

theorem quiet_pumpOnly {channel : Channel} (hm : channel ∈ t.ch.sshChannel) (n : Nat) :
    Quiet t (t.pumpOnly net.recorded channel n) := by
  unfold pumpOnly
  split
  · rename_i hread
    exact .of_used hm rfl rfl rfl (Recorded.of_note hread)
  · rename_i hread
    exact .of_used hm rfl rfl rfl (Recorded.of_note hread)

theorem quiet_pumpOne (t : Turn rb (Recorded W)) : Quiet t (t.pumpOne net.recorded) := by
  unfold pumpOne
  split
  · rename_i hc
    exact quiet_pumpOnly hc 1
  · exact .refl t

theorem quiet_received (bytes : List UInt8) (ring : DataRingBuffer rb) :
    Quiet t (t.received net.recorded bytes ring).2 := .of_eq rfl rfl rfl rfl

theorem quiet_readPaused {channel : Channel} (hm : channel ∈ t.ch.sshChannel) (ring : DataRingBuffer rb) :
    Quiet t (t.readPaused net.recorded channel ring) := by
  unfold readPaused
  split
  · rename_i hread
    exact (quiet_received _ ring).of_use hm rfl rfl rfl (Recorded.of_note hread)
  · rename_i hread
    exact .of_used hm rfl rfl rfl (Recorded.of_note hread)
  · rename_i hread
    exact .of_used hm rfl rfl rfl (Recorded.of_note hread)
  · rename_i hread
    exact quiet_erred.of_use hm rfl rfl rfl (Recorded.of_note hread)

theorem quiet_readChunks {channel : Channel} (hm : channel ∈ t.ch.sshChannel) (size attempts : Nat) (readDone : Bool)
    (ring : DataRingBuffer rb) : Quiet t (t.readChunks net.recorded size channel attempts readDone ring).2 := by
  induction attempts generalizing t ring readDone with
  | zero => exact .refl t
  | succ attempts ih =>
    unfold readChunks
    split
    · exact .of_eq rfl rfl rfl rfl
    split
    · rename_i hread
      have hw := Recorded.of_note hread
      dsimp only
      split
      · exact .of_used hm rfl rfl rfl hw
      · exact Quiet.of_use (ih (by exact hm) _ _) hm (by rfl) (by rfl) (by rfl) hw
    · rename_i hread
      exact .of_used hm rfl rfl rfl (Recorded.of_note hread)
    · rename_i hread
      exact .of_used hm rfl rfl rfl (Recorded.of_note hread)
    · rename_i hread
      exact quiet_erred.of_use hm rfl rfl rfl (Recorded.of_note hread)

theorem quiet_pumpSsh (size : Nat) : Quiet t (t.pumpSsh net.recorded size).2 := by
  unfold pumpSsh
  split
  · rename_i channel _ hc
    have hm : channel ∈ t.ch.sshChannel := hc
    split
    · exact quiet_pumpOnly hm _
    · split
      · exact .refl t
      · rename_i ring _
        split
        · split
          · exact quiet_readPaused hm ring
          · exact .refl t
        · dsimp only
          generalize hresumed : ({ t with ch := { t.ch with sshReadPaused := false } } : Turn rb (Recorded W)) = resumed
          have hr : Quiet t resumed := by
            subst hresumed
            exact .of_eq rfl rfl rfl rfl
          have hread : Quiet t (resumed.readChunks net.recorded size channel 4 false ring).2 :=
            hr.trans (quiet_readChunks (by rwa [hr.channel]) size 4 false ring)
          refine hread.trans (quiet_checkEof ?_)
          rwa [hread.channel]
  · exact .refl t

theorem quiet_sendChunks (size : Nat) (socket : Socket) (attempts : Nat) (ring : DataRingBuffer rb) :
    Quiet t (t.sendChunks net.recorded size socket attempts ring) := by
  induction attempts generalizing t ring with
  | zero => exact .refl t
  | succ attempts ih =>
    unfold sendChunks
    split
    · exact .refl t
    dsimp only
    split
    · exact .of_eq rfl rfl rfl rfl
    split
    · rename_i hsend
      have hw := Recorded.of_pass hsend
      split
      · exact .of_eq rfl rfl rfl hw
      · exact Quiet.of_same (ih _) (by rfl) (by rfl) (by rfl) hw
    · rename_i hsend
      exact .of_eq rfl rfl rfl (Recorded.of_pass hsend)
    · rename_i hsend
      have hw := Recorded.of_pass hsend
      split
      · exact .of_eq rfl rfl rfl hw
      · exact .of_eq rfl rfl rfl hw

theorem quiet_checkSendStall : Quiet t (t.checkSendStall net.recorded) := by
  unfold checkSendStall
  dsimp only
  split
  · split
    · exact quiet_millis_stalled.trans (.of_eq (by rfl) (by rfl) (by rfl) (by rfl))
    · exact .of_eq rfl rfl rfl rfl
  · exact .refl t

theorem quiet_drainToLocal (size : Nat) : Quiet t (t.drainToLocal net.recorded size) := by
  unfold drainToLocal
  split
  · exact (quiet_sendChunks _ _ _ _).trans quiet_checkSendStall
  · exact .refl t

/-! ### From the socket to the channel -/

theorem quiet_writeChunks {channel : Channel} (hm : channel ∈ t.ch.sshChannel) (size budget : Nat)
    (ring : DataRingBuffer rb) : Quiet t (t.writeChunks net.recorded size channel budget ring) := by
  induction budget using Nat.strong_induction_on generalizing t ring with
  | _ budget ih =>
    unfold writeChunks
    split
    · exact .refl t
    rename_i hmore
    simp only [Bool.or_eq_true, decide_eq_true_eq, not_or, Bool.not_eq_true] at hmore
    dsimp only
    split
    · exact .of_eq rfl rfl rfl rfl
    split
    · rename_i hwrite
      have hw := Recorded.of_note hwrite
      split
      · exact .of_used hm rfl rfl rfl hw
      · exact Quiet.of_use (ih _ (by omega) (by exact hm) _) hm (by rfl) (by rfl) (by rfl) hw
    · rename_i hwrite
      have hw := Recorded.of_note hwrite
      split
      · exact .of_used hm rfl rfl rfl hw
      · exact .of_used hm rfl rfl rfl hw
    · rename_i hwrite
      exact quiet_erred.of_use hm rfl rfl rfl (Recorded.of_note hwrite)

theorem quiet_checkWriteStall : Quiet t (t.checkWriteStall net.recorded) := by
  unfold checkWriteStall
  dsimp only
  split
  · split
    · exact quiet_millis_stalled.trans (.of_eq (by rfl) (by rfl) (by rfl) (by rfl))
    · exact .of_eq rfl rfl rfl rfl
  · exact .refl t

theorem quiet_writeToSsh {channel : Channel} (hm : channel ∈ t.ch.sshChannel) (size : Nat) :
    Quiet t (t.writeToSsh net.recorded size channel) := by
  unfold writeToSsh
  split
  · exact .refl t
  rename_i ring _
  split
  · exact .refl t
  dsimp only
  split
  · have hlock : Quiet t (t.lock net.recorded 20).2 := .of_eq rfl rfl rfl rfl
    generalize (t.lock net.recorded 20).2 = locked at hlock ⊢
    have hwrite : Quiet t (locked.writeChunks net.recorded size channel maxWritePerChannel ring) :=
      hlock.trans (quiet_writeChunks (by rwa [hlock.channel]) size _ ring)
    generalize locked.writeChunks net.recorded size channel maxWritePerChannel ring = written at hwrite ⊢
    have hunlock : Quiet written (written.unlock net.recorded) := .of_eq rfl rfl rfl rfl
    exact (hwrite.trans hunlock).trans quiet_checkWriteStall
  · exact .of_eq rfl rfl rfl rfl

theorem quiet_checkBackpressure : Quiet t t.checkBackpressure := by
  unfold checkBackpressure
  split
  · exact .refl t
  · split <;> split <;> exact .of_eq rfl rfl rfl rfl

theorem quiet_recvChunks (size : Nat) (socket : Socket) (attempts : Nat) (ring : DataRingBuffer rb) :
    Quiet t (t.recvChunks net.recorded size socket attempts ring) := by
  induction attempts generalizing t ring with
  | zero => exact .refl t
  | succ attempts ih =>
    unfold recvChunks
    split
    · exact .of_eq rfl rfl rfl rfl
    split
    · rename_i hrecv
      have hw := Recorded.of_pass hrecv
      exact Quiet.of_same (ih _) (by rfl) (by rfl) (by rfl) hw
    · rename_i hrecv
      exact .of_eq rfl rfl rfl (Recorded.of_pass hrecv)
    · rename_i hrecv
      exact .of_eq rfl rfl rfl (Recorded.of_pass hrecv)

theorem quiet_readFromLocal (size : Nat) : Quiet t (t.readFromLocal net.recorded size) := by
  unfold readFromLocal
  split
  · split
    · exact quiet_recvChunks _ _ _ _
    · exact .refl t
  · exact .refl t

theorem quiet_drainToSsh (size : Nat) : Quiet t (t.drainToSsh net.recorded size) := by
  unfold drainToSsh
  split
  · rename_i channel _ hc
    split
    · exact .refl t
    · exact ((quiet_writeToSsh hc size).trans quiet_checkBackpressure).trans (quiet_readFromLocal size)
  · exact .refl t

/-! ### Closing -/

theorem quiet_forwardEof : Quiet t (t.forwardEof net.recorded) := by
  unfold forwardEof
  split
  · exact .refl t
  · split
    · exact .of_eq rfl rfl rfl rfl
    · exact .refl t

theorem quiet_checkIdle (now : UInt32) : Quiet t (t.checkIdle net.recorded now) := by
  unfold checkIdle
  split
  · exact quiet_beginClose _
  · split
    · exact quiet_beginClose _
    · exact .refl t

theorem quiet_checkOpen (now : UInt32) : Quiet t (t.checkOpen net.recorded now) := by
  unfold checkOpen
  split_ifs
  · exact .refl t
  · exact quiet_beginClose _
  · exact quiet_beginClose _
  · exact quiet_beginClose _
  · exact quiet_forwardEof.trans (quiet_checkIdle now)

theorem quiet_flushChunks {channel : Channel} (hm : channel ∈ t.ch.sshChannel) (attempts : Nat) :
    Quiet t (t.flushChunks net.recorded channel attempts) := by
  induction attempts generalizing t with
  | zero => exact .refl t
  | succ attempts ih =>
    unfold flushChunks
    split
    · rename_i hread
      have hw := Recorded.of_note hread
      dsimp only
      split
      · exact Quiet.of_use (ih (by exact hm)) hm (by rfl) (by rfl) (by rfl) hw
      · exact Quiet.of_use (ih (by exact hm)) hm (by rfl) (by rfl) (by rfl) hw
    · rename_i hread
      exact .of_used hm rfl rfl rfl (Recorded.of_note hread)

theorem quiet_sendEof : Quiet t (t.sendEof net.recorded) := by
  unfold sendEof
  split
  · exact .refl t
  rename_i channel hc
  dsimp only
  generalize hsent : ({ t with world := (net.recorded.channelSendEof channel t.world).2 } : Turn rb (Recorded W)) = sent
  have hs : Quiet t sent := by
    subst hsent
    exact .of_used hc rfl rfl rfl rfl
  split
  · exact hs
  · have hflush : Quiet t (sent.flushChunks net.recorded channel 4) :=
      hs.trans (quiet_flushChunks (by rwa [hs.channel]) 4)
    generalize sent.flushChunks net.recorded channel 4 = flushed at hflush ⊢
    exact hflush.trans (.of_eq rfl rfl rfl rfl)

/-! ### What is held -/

/-- What is done to the slot keeps the record and the count right, whatever else is held. -/
structure Keeps (t t' : Turn rb (Recorded W)) : Prop where
  holds : ∀ rest, Holds t.world.2 (t.ch.sshChannel.toList ++ rest) → Holds t'.world.2 (t'.ch.sshChannel.toList ++ rest)
  idle : t.ch.Idle → t'.ch.Idle
  count : (t.ch.active.toNat : Int) ≤ t.activeCount → t'.activeCount - t'.ch.active.toNat = t.activeCount - t.ch.active.toNat

theorem Quiet.keeps (h : Quiet t t') : Keeps t t' := by
  refine ⟨fun rest hh => ?_, ?_, fun _ => by rw [h.active, h.count]⟩
  · obtain ⟨es, heq, hes⟩ := h.calls
    rw [heq, h.channel]
    refine hh.uses fun e he => ?_
    obtain ⟨c, hc, rfl⟩ := hes e he
    exact ⟨c, List.mem_append_left _ (Option.mem_toList.2 hc), rfl⟩
  · simp only [ChannelSlot.Idle, h.active, h.channel, imp_self]

theorem Keeps.trans (h : Keeps t t') (h' : Keeps t' t'') : Keeps t t'' := by
  refine ⟨fun rest hh => h'.holds rest (h.holds rest hh), fun hi => h'.idle (h.idle hi), fun hc => ?_⟩
  have hfirst := h.count hc
  exact (h'.count (by omega)).trans hfirst

/-- A slot is free and its channel, if it had one, is held no longer. -/
theorem Keeps.freed (hc : t'.ch.sshChannel = none) (ha : t.ch.active = true) (ha' : t'.ch.active = false)
    (hn : t'.activeCount = t.activeCount - 1) (hw : t'.world.2 = t.world.2) : Keeps t t' := by
  refine ⟨fun rest hh => ?_, fun _ _ => hc, fun _ => by simp [ha, ha', hn]⟩
  rw [hc, hw]
  exact hh.forget (List.sublist_append_right _ _).subperm

theorem quiet_closeSocket : Quiet t (t.closeSocket net.recorded) := by
  unfold closeSocket
  split
  · exact .refl t
  · exact .of_eq rfl rfl rfl rfl

theorem keeps_releaseSlot (hc : t.ch.sshChannel = none) (ha : t.ch.active = true) : Keeps t (t.releaseSlot net.recorded) := by
  have hclose : Quiet t (t.closeSocket net.recorded) := quiet_closeSocket
  unfold releaseSlot
  dsimp only
  generalize t.closeSocket net.recorded = closed at hclose ⊢
  exact hclose.keeps.trans (.freed (hclose.channel.trans hc) (hclose.active.trans ha) rfl rfl rfl)

theorem quiet_closeChannel {channel : Channel} (hm : channel ∈ t.ch.sshChannel) :
    Quiet t (t.closeChannel net.recorded channel).2 := by
  unfold closeChannel
  split
  · exact .refl t
  · exact .of_used hm rfl rfl rfl rfl

theorem closeComplete_of_closeChannel {channel : Channel} (h : (t.closeChannel net.recorded channel).1 = true) :
    (t.closeChannel net.recorded channel).2.ch.sshCloseProgress.closeComplete = true := by
  unfold closeChannel at h ⊢
  split
  · assumption
  · rename_i hnot
    rw [if_neg hnot] at h
    dsimp only [Progress.recordCloseResult] at h ⊢
    split
    · rename_i hagain
      rw [if_pos hagain] at h
      cases h
    · rfl

variable (net) in
/-- The channel is given back when the library has taken it. -/
theorem freeChannel_spec (channel : Channel) (hclosed : t.ch.sshCloseProgress.closeComplete = true) :
    ∃ done t', t.freeChannel net.recorded channel = (done, t') ∧ t'.world.2 = t.world.2 ++ [.released channel done] ∧
      t'.ch.sshChannel = t.ch.sshChannel ∧ t'.ch.active = t.ch.active ∧ t'.activeCount = t.activeCount ∧
      (done = true → t'.ch.sshCloseProgress.readyForFinalize = true) := by
  unfold freeChannel
  rw [if_pos (show t.ch.sshCloseProgress.readyForFree = true from hclosed)]
  dsimp only [Progress.recordFreeResult]
  by_cases hagain : (net.recorded.channelFree channel t.world).1 = errorEagain
  · rw [if_pos hagain]
    refine ⟨false, _, rfl, ?_, rfl, rfl, rfl, fun h => by cases h⟩
    exact congrArg (fun b => t.world.2 ++ [Entry.released channel b]) (decide_eq_false (not_not.2 hagain))
  · rw [if_neg hagain]
    refine ⟨true, _, rfl, ?_, rfl, rfl, rfl, fun _ => ?_⟩
    · exact congrArg (fun b => t.world.2 ++ [Entry.released channel b]) (decide_eq_true hagain)
    · simp [Progress.readyForFinalize, hclosed]

variable (net t) in
/-- Either the slot is as it was and will be tried again, or its channel has
been given back and it is free. -/
theorem finalizeClose_spec :
    Keeps t (t.finalizeClose net.recorded).2 ∧
      (t.finalizeClose net.recorded).2.ch.active = (t.ch.active && !(t.finalizeClose net.recorded).1) := by
  unfold finalizeClose
  split
  · rename_i hnot
    exact ⟨(Quiet.refl t).keeps, by simpa using hnot⟩
  rename_i hactive
  have ha : t.ch.active = true := by simpa using hactive
  split
  · rename_i hc
    exact ⟨keeps_releaseSlot hc ha, by simp [releaseSlot]⟩
  rename_i channel hc
  have hclose : Quiet t (t.closeChannel net.recorded channel).2 := quiet_closeChannel hc
  have hcomplete : (t.closeChannel net.recorded channel).1 = true →
      (t.closeChannel net.recorded channel).2.ch.sshCloseProgress.closeComplete = true := closeComplete_of_closeChannel
  dsimp only
  generalize t.closeChannel net.recorded channel = closed at hclose hcomplete ⊢
  split
  · exact ⟨hclose.keeps, by simp [hclose.active]⟩
  rename_i hdone
  obtain ⟨done, freed, heq, hw, hch, hact, hcount, hready⟩ :=
    freeChannel_spec net channel (hcomplete (by simpa using hdone))
  have hheld : closed.2.ch.sshChannel = some channel := hclose.channel.trans hc
  have ha' : closed.2.ch.active = true := hclose.active.trans ha
  rw [heq]
  dsimp only
  cases done with
  | false =>
    -- The library wants to be asked again: the slot keeps its channel.
    simp only [Bool.not_false, Bool.true_or, if_true]
    have hkept : Keeps closed.2 freed := by
      refine ⟨fun rest hh => ?_, by simp only [ChannelSlot.Idle, hact, hch, imp_self], fun _ => by rw [hact, hcount]⟩
      rw [hw, hch]
      exact hh.retry (by rw [hheld]; simp)
    exact ⟨hclose.keeps.trans hkept, by simp [hact, ha', ha]⟩
  | true =>
    have hgone : Keeps closed.2 { freed with ch := { freed.ch with sshChannel := none } } := by
      refine ⟨fun rest hh => ?_, fun _ _ => rfl, fun _ => by simp only [hact, hcount]⟩
      rw [hheld] at hh
      rw [hw]
      exact hh.release true
    simp only [hready rfl, Bool.not_true, Bool.or_false, Bool.false_eq_true, if_false]
    exact ⟨hclose.keeps.trans (hgone.trans (keeps_releaseSlot rfl (hact.trans ha'))), by simp [releaseSlot]⟩

/-- An abandoned slot is free and without a channel; nothing is asked of the library. -/
theorem abandonSlot_spec :
    Keeps t (t.abandonSlot net.recorded) ∧ (t.abandonSlot net.recorded).ch.active = false ∧
      (t.abandonSlot net.recorded).world.2 = t.world.2 := by
  have hworld : (t.closeSocket net.recorded).world.2 = t.world.2 := by
    unfold closeSocket
    split <;> rfl
  unfold abandonSlot
  split
  · rename_i hnot
    exact ⟨(Quiet.refl t).keeps, by simpa using hnot, rfl⟩
  · rename_i hactive
    have ha : t.ch.active = true := by simpa using hactive
    have hclose : Quiet t (t.closeSocket net.recorded) := quiet_closeSocket
    dsimp only
    generalize t.closeSocket net.recorded = closed at hclose hworld ⊢
    refine ⟨hclose.keeps.trans ⟨fun rest hh => ?_, fun _ _ => rfl, fun hpos => ?_⟩, rfl, hworld⟩
    · exact hh.forget (List.sublist_append_right _ _).subperm
    · have hopen : closed.ch.active = true := hclose.active.trans ha
      simp only [hopen, Bool.toNat_true, Nat.cast_one] at hpos ⊢
      rw [if_pos (by omega)]
      simp [ChannelSlot.resetSlot]

end Turn

/-! ## The slots -/

namespace ChannelManager

variable {net : Net W} {m m' m'' : ChannelManager rb (Recorded W)} {i : Nat}

/-- The channels of some slots. -/
def channelsOf (slots : List (Slot rb)) : List Channel := slots.flatMap (·.ch.sshChannel.toList)

theorem perm_eraseIdx {slots : List (Slot rb)} {s : Slot rb} (h : slots[i]? = some s) :
    (channelsOf slots).Perm (s.ch.sshChannel.toList ++ channelsOf (slots.eraseIdx i)) := by
  induction slots generalizing i with
  | nil => simp at h
  | cons s' slots ih =>
    cases i with
    | zero =>
      obtain rfl : s' = s := by simpa using h
      exact .refl _
    | succ i =>
      have hrest := ih (i := i) (by simpa using h)
      simp only [channelsOf, List.flatMap_cons, List.eraseIdx_cons_succ] at hrest ⊢
      exact (hrest.append_left _).trans (List.perm_append_comm_assoc _ _ _)

/-- The channels after a slot was set. -/
theorem perm_set {slots : List (Slot rb)} (hlt : i < slots.length) (s : Slot rb) :
    (channelsOf (slots.set i s)).Perm (s.ch.sshChannel.toList ++ channelsOf (slots.eraseIdx i)) := by
  have hperm := perm_eraseIdx (List.getElem?_set_self (a := s) hlt)
  rwa [List.eraseIdx_set_eq] at hperm

/-- A free slot has no channel, and the others are counted. -/
def Fine (m : ChannelManager rb (Recorded W)) : Prop :=
  (∀ s ∈ m.slots, s.ch.Idle) ∧ m.activeCount = m.slots.countP (·.ch.active)

/-- The slots hold their channels, and others are held elsewhere. -/
def Has (rest : List Channel) (m : ChannelManager rb (Recorded W)) : Prop :=
  Holds m.world.2 (channelsOf m.slots ++ rest) ∧ m.Fine

variable {rest : List Channel}

/-- A slot is set; the count goes with it. -/
theorem countP_active_set {slots : List (Slot rb)} (hlt : i < slots.length) (s : Slot rb) :
    ((slots.set i s).countP (·.ch.active) : Int) = slots.countP (·.ch.active) - slots[i].ch.active.toNat + s.ch.active.toNat := by
  have hpos : slots[i].ch.active = true → 0 < slots.countP (·.ch.active) := fun ha =>
    List.countP_pos_iff.2 ⟨_, List.getElem_mem hlt, ha⟩
  rw [List.countP_set hlt]
  cases hold : slots[i].ch.active with
  | false => cases hnew : s.ch.active <;> simp
  | true =>
    have hpos := hpos hold
    cases hnew : s.ch.active <;> simp <;> omega

theorem Fine.atSlotWith {A : Type} {other : A} {f : Turn rb (Recorded W) → A × Turn rb (Recorded W)} (h : m.Fine)
    (hf : ∀ s, m.slots[i]? = some s → Turn.Keeps (m.turn s) (f (m.turn s)).2) : (m.atSlotWith i other f).2.Fine := by
  unfold ChannelManager.atSlotWith
  split
  · exact h
  rename_i s hs
  obtain ⟨hidle, hcount⟩ := h
  obtain ⟨hlt, hget⟩ := List.getElem?_eq_some_iff.1 hs
  have hmem : s ∈ m.slots := List.mem_of_getElem? hs
  refine ⟨fun s' hs' => ?_, ?_⟩
  · rcases List.mem_or_eq_of_mem_set hs' with hold | rfl
    · exact hidle s' hold
    · exact (hf s hs).idle (hidle s hmem)
  · have hset := countP_active_set hlt ⟨(f (m.turn s)).2.ch, (f (m.turn s)).2.flow⟩
    have hle : (s.ch.active.toNat : Int) ≤ m.activeCount := by
      rw [hcount]
      cases ha : s.ch.active with
      | false => simp
      | true =>
        have hpos : 0 < m.slots.countP (·.ch.active) := List.countP_pos_iff.2 ⟨s, hmem, ha⟩
        simp only [Bool.toNat_true, Nat.cast_one]
        omega
    have hstep := (hf s hs).count hle
    rw [hget] at hset
    simp only [ChannelManager.turn, ChannelManager.endTurn] at hstep hset hcount ⊢
    omega

theorem Has.atSlotWith {A : Type} {other : A} {f : Turn rb (Recorded W) → A × Turn rb (Recorded W)} (h : m.Has rest)
    (hf : ∀ s, m.slots[i]? = some s → Turn.Keeps (m.turn s) (f (m.turn s)).2) : (m.atSlotWith i other f).2.Has rest := by
  refine ⟨?_, h.2.atSlotWith hf⟩
  unfold ChannelManager.atSlotWith
  split
  · exact h.1
  rename_i s hs
  have hlt : i < m.slots.length := (List.getElem?_eq_some_iff.1 hs).1
  have hbefore := h.1.forget ((perm_eraseIdx hs).append_right rest).symm.subperm
  rw [List.append_assoc] at hbefore
  have hafter := (hf s hs).holds _ hbefore
  rw [← List.append_assoc] at hafter
  exact hafter.forget ((perm_set hlt _).append_right rest).subperm

theorem Has.atSlot {f : Turn rb (Recorded W) → Turn rb (Recorded W)} (h : m.Has rest) (hf : ∀ t, Turn.Quiet t (f t)) :
    (m.atSlot i f).Has rest :=
  h.atSlotWith fun _ _ => (hf _).keeps

theorem Has.turns {f : Turn rb (Recorded W) → Turn rb (Recorded W)} (h : m.Has rest) (slots : List Nat)
    (hf : ∀ t, Turn.Quiet t (f t)) : (TransportPump.turns f slots m).Has rest := by
  induction slots generalizing m with
  | nil => exact h
  | cons i slots ih => exact ih (h.atSlot hf)

theorem Has.finalizeClose (h : m.Has rest) : (m.finalizeClose net.recorded i).2.Has rest :=
  h.atSlotWith fun _ _ => (Turn.finalizeClose_spec _ _).1

theorem Has.abandonSlot (h : m.Has rest) : (m.abandonSlot net.recorded i).Has rest :=
  h.atSlotWith fun _ _ => Turn.abandonSlot_spec.1

theorem Has.allocateSlot (h : m.Has rest) : (m.allocateSlot net.recorded).2.Has rest := by
  unfold ChannelManager.allocateSlot
  dsimp only
  split
  · exact h
  · split
    · exact Has.atSlot (m := (m.millis net.recorded).2) h fun _ => Turn.quiet_beginClose _
    · exact h

variable (net i) in
/-- A bound channel is held by the slot, another stays where it was. -/
theorem Has.bindChannel {channel : Channel} (h : m.Has (channel :: rest)) (mapping : TunnelConfig) :
    ∃ bound m', m.bindChannel net.recorded i channel mapping = (bound, m') ∧
      m'.Has (if bound then rest else channel :: rest) := by
  unfold ChannelManager.bindChannel
  split
  · exact ⟨false, _, rfl, h⟩
  rename_i s hs
  split
  · exact ⟨false, _, rfl, h⟩
  dsimp only
  split
  · exact ⟨false, _, rfl, h⟩
  split
  · exact ⟨false, _, rfl, h⟩
  split
  · exact ⟨false, _, rfl, h⟩
  rename_i hfree _ _ _ _ _
  obtain ⟨hholds, hidle, hcount⟩ := h
  obtain ⟨hlt, hget⟩ := List.getElem?_eq_some_iff.1 hs
  refine ⟨true, _, rfl, ?_, fun s' hs' => ?_, ?_⟩
  · -- whatever the slot held before is forgotten
    have hold : (channelsOf (m.slots.eraseIdx i)).Subperm (channelsOf m.slots) :=
      ((List.sublist_append_right _ _).subperm).trans (perm_eraseIdx hs).symm.subperm
    refine Holds.forget hholds ((List.Perm.append_right rest (perm_set hlt _)).subperm.trans ?_)
    simp only [bound, Option.toList_some, List.cons_append]
    refine ((List.subperm_cons channel).2 ((List.subperm_append_right rest).2 hold)).trans ?_
    exact List.perm_middle.symm.subperm
  · rcases List.mem_or_eq_of_mem_set hs' with hold | rfl
    · exact hidle s' hold
    · exact fun hnot => absurd hnot (by simp [bound])
  · have hnot : s.ch.active = false := by simpa using hfree
    refine Eq.trans ?_ (countP_active_set hlt _).symm
    simp only [hget, hnot, bound, Bool.toNat_true, Bool.toNat_false, Nat.cast_one, Nat.cast_zero, sub_zero]
    exact congrArg (· + 1) hcount

end ChannelManager

/-! ## The pump -/

namespace TransportPump

variable (net : Net W) {p : TransportPump rb (Recorded W)} {rest : List Channel}

def Has (rest : List Channel) (p : TransportPump rb (Recorded W)) : Prop := p.channels.Has rest

theorem has_readAll {m : ChannelManager rb (Recorded W)} (h : m.Has rest) (size : Nat) (slots : List Nat) :
    (readAll net.recorded size slots m).2.Has rest := by
  induction slots generalizing m with
  | nil => exact h
  | cons i slots ih => exact ih (h.atSlotWith fun _ _ => (Turn.quiet_pumpSsh size).keeps)

theorem has_fallback {m : ChannelManager rb (Recorded W)} (h : m.Has rest) : (fallback net.recorded m).Has rest := by
  unfold fallback
  split
  · exact h.atSlot Turn.quiet_pumpOne
  · split
    · exact h.atSlot Turn.quiet_pumpOne
    · exact h

theorem Has.pumpSshTransport (h : p.Has rest) : (p.pumpSshTransport net.recorded).Has rest := by
  have hlock : (p.channels.lock net.recorded 50).2.Has rest := h
  have hread := has_readAll net hlock p.bufSize p.order
  unfold TransportPump.pumpSshTransport
  dsimp only
  split
  · exact hlock
  · split
    · exact hread
    · exact has_fallback net hread

theorem Has.drainSshToLocal (h : p.Has rest) : (p.drainSshToLocal net.recorded).Has rest :=
  ChannelManager.Has.turns h _ fun _ => Turn.quiet_drainToLocal _

theorem Has.drainLocalToSsh (h : p.Has rest) : (p.drainLocalToSsh net.recorded).Has rest := by
  unfold TransportPump.drainLocalToSsh
  split
  · exact h
  · exact ChannelManager.Has.turns h _ fun _ => Turn.quiet_drainToSsh _

theorem Has.addCloseEvent (h : p.Has rest) (i : Nat) (reason : ChannelCloseReason) : (p.addCloseEvent i reason).Has rest := by
  unfold TransportPump.addCloseEvent
  split <;> exact h

theorem Has.collect {c : Collected} (h : p.Has rest) (now : UInt32) (i : Nat) :
    (TransportPump.collect net.recorded now (c, p) i).2.Has rest := by
  have habandon : Has rest { p with channels := p.channels.abandonSlot net.recorded i, sessionDegraded := true } :=
    ChannelManager.Has.abandonSlot h
  unfold TransportPump.collect
  dsimp only
  split
  · exact h
  split
  · exact h
  · exact h
  · exact h
  · exact habandon.addCloseEvent _ _

theorem Has.collects {c : Collected} (h : p.Has rest) (now : UInt32) (slots : List Nat) :
    (slots.foldl (TransportPump.collect net.recorded now) (c, p)).2.Has rest := by
  induction slots generalizing c p with
  | nil => exact h
  | cons i slots ih => exact ih (h.collect net now i)

theorem Has.sendEofs (h : p.Has rest) (slots : List Nat) : (p.sendEofs net.recorded slots).Has rest := by
  have hlock : (p.channels.lock net.recorded 100).2.Has rest := h
  unfold TransportPump.sendEofs
  split
  · exact h
  · dsimp only [Has]
    split
    · exact hlock.turns slots fun _ => Turn.quiet_sendEof
    · exact hlock

theorem Has.finalize (h : p.Has rest) (i : Nat) : (p.finalize net.recorded i).Has rest := by
  have hfinal : Has rest { p with channels := (p.channels.finalizeClose net.recorded i).2 } :=
    ChannelManager.Has.finalizeClose h
  unfold TransportPump.finalize
  split
  · exact h
  · dsimp only
    split
    · exact hfinal.addCloseEvent _ _
    · exact hfinal

theorem Has.finalizeAll (h : p.Has rest) (slots : List Nat) : (slots.foldl (TransportPump.finalize net.recorded) p).Has rest := by
  induction slots generalizing p with
  | nil => exact h
  | cons i slots ih => exact ih (h.finalize net i)

theorem Has.finalizes (h : p.Has rest) (slots : List Nat) : (p.finalizes net.recorded slots).Has rest := by
  have hlock : Has rest { p with channels := (p.channels.lock net.recorded 200).2 } := h
  unfold TransportPump.finalizes
  split
  · exact h
  · dsimp only
    split
    · exact hlock.finalizeAll net slots
    · exact hlock

theorem Has.checkCloses (h : p.Has rest) : (p.checkCloses net.recorded).Has rest := by
  have hopen : (p.checkOpens net.recorded).Has rest :=
    ChannelManager.Has.turns (m := (p.channels.millis net.recorded).2) h _ fun _ => Turn.quiet_checkOpen _
  have hcollect : ((p.checkOpens net.recorded).collectAll net.recorded).2.Has rest := by
    have hm : Has rest
        { p.checkOpens net.recorded with channels := ((p.checkOpens net.recorded).channels.millis net.recorded).2 } := hopen
    exact hm.collects net _ _
  exact (hcollect.sendEofs net _).finalizes net _

theorem Has.pumpAll (h : p.Has rest) : (p.pumpAll net.recorded).2.Has rest := by
  have h0 : Has rest { p with channels := { p.channels with lastBytesMoved := 0 } } := h
  dsimp only [TransportPump.pumpAll]
  exact (((h0.pumpSshTransport net).drainSshToLocal net).drainLocalToSsh net).checkCloses net

end TransportPump

end OrangeBox.Tunnel
