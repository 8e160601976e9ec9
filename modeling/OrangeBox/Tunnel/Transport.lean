import OrangeBox.Tunnel.Channels
/-!
# The pump

`ssh_transport.cpp`. `pumpAll` moves what it can in both directions of every
slot, in four phases, and closes the slots that are done. What is done to one
slot is a function on its turn.
-/

namespace OrangeBox.Tunnel

abbrev backpressureHighPct : Nat := 75
abbrev backpressureLowPct : Nat := 25
abbrev maxWritePerChannel : Nat := 16384
abbrev drainTimeoutMs : UInt32 := 15000
abbrev hardAbandonTimeoutMs : UInt32 := 30000
abbrev halfCloseTimeoutMs : UInt32 := 5000
abbrev eagainStallTimeoutMs : UInt32 := 3000
abbrev localSendStallTimeoutMs : UInt32 := 8000
abbrev eofGraceMs : UInt32 := 200
abbrev maxCloseEvents : Nat := 32

variable {R W : Type}

namespace Turn

variable {rb : Ringbuf R} (net : Net W)

/-! ## From the channel to `toLocal` -/

/-- A read that only keeps the session going. -/
def pumpOnly (channel : Channel) (n : Nat) (t : Turn rb W) : Turn rb W :=
  match net.channelRead channel n t.world with
  | (.data bytes _ _, w) =>
    { t with
      world := w
      flow := { t.flow with fromSsh := t.flow.fromSsh ++ bytes, discarded := t.flow.discarded + bytes.length } }
  | (_, w) => { t with world := w }

/-- The turn of a slot that the fallback chose. -/
def pumpOne (t : Turn rb W) : Turn rb W :=
  match t.ch.sshChannel with
  | some channel => t.pumpOnly net channel 1
  | none => t

/-- Bytes of the channel go to `toLocal`. -/
def store (bytes : List UInt8) (ring : DataRingBuffer rb) (t : Turn rb W) : Nat × DataRingBuffer rb × Turn rb W :=
  let (written, ring) := ring.write bytes
  (written, ring,
    { t with
      ch := { t.ch with toLocal := some ring }
      flow :=
        { t.flow with
          fromSsh := t.flow.fromSsh ++ bytes
          overflowed := t.flow.overflowed + (bytes.length - written) } })

/-- A read with `rc > 0`. -/
def received (bytes : List UInt8) (ring : DataRingBuffer rb) (t : Turn rb W) : DataRingBuffer rb × Turn rb W :=
  let (written, ring, t) := t.store bytes ring
  let (now, t) := t.millis net
  (ring,
    { t with
      ch :=
        { t.ch with
          totalBytesReceived := t.ch.totalBytesReceived + written, lastActivity := now, firstEagainMs := 0
          consecutiveErrors := 0 }
      lastBytesMoved := t.lastBytesMoved + written })

/-- A call that failed: too many of them close the channel. -/
def erred (t : Turn rb W) : Turn rb W :=
  let t := { t with ch := { t.ch with consecutiveErrors := t.ch.consecutiveErrors + 1 } }
  if 3 < t.ch.consecutiveErrors && t.ch.state = .opened then t.beginClose net .error else t

/-- The small read of a paused channel. -/
def readPaused (channel : Channel) (ring : DataRingBuffer rb) (t : Turn rb W) : Turn rb W :=
  match net.channelRead channel (min ring.available 64) t.world with
  | (.data bytes _ _, w) => (received net bytes ring { t with world := w }).2
  | (.eof, w) => { t with world := w, ch := { t.ch with remoteEof := true } }
  | (.again, w) => { t with world := w }
  | (.failed, w) => erred net { t with world := w }

/-- The reads of a channel that is not paused, and whether there was one. -/
def readChunks (bufSize : Nat) (channel : Channel) (attempts : Nat) (readDone : Bool) (ring : DataRingBuffer rb)
    (t : Turn rb W) : Bool × Turn rb W :=
  match attempts with
  | 0 => (readDone, t)
  | attempts + 1 =>
    if ring.available = 0 then (readDone, { t with ch := { t.ch with sshReadPaused := true } })
    else
      match net.channelRead channel (min ring.available bufSize) t.world with
      | (.data bytes _ _, w) =>
        let (ring, t) := received net bytes ring { t with world := w }
        if ring.capacity * backpressureHighPct / 100 < ring.size then
          (true, { t with ch := { t.ch with sshReadPaused := true } })
        else readChunks bufSize channel attempts true ring t
      | (.eof, w) => (true, { t with world := w, ch := { t.ch with remoteEof := true } })
      | (.again, w) => (true, { t with world := w })
      | (.failed, w) => (true, erred net { t with world := w })

/-- The end-of-file flag of the library. -/
def checkEof (channel : Channel) (t : Turn rb W) : Turn rb W :=
  if t.ch.remoteEof then t
  else
    let (eof, w) := net.channelEof channel t.world
    { t with world := w, ch := { t.ch with remoteEof := eof } }

/-- A slot's part of `pumpSshTransport`, with whether its channel was read. -/
def pumpSsh (bufSize : Nat) (t : Turn rb W) : Bool × Turn rb W :=
  match t.ch.active, t.ch.sshChannel with
  | true, some channel =>
    if t.ch.remoteEof then (true, t.pumpOnly net channel 64)
    else
      match t.ch.toLocal with
      | none => (false, t)
      | some ring =>
        if t.ch.sshReadPaused && ring.capacity * backpressureLowPct / 100 ≤ ring.size then
          if 0 < ring.available then (true, t.readPaused net channel ring) else (false, t)
        else
          let (readDone, t) := readChunks net bufSize channel 4 false ring { t with ch := { t.ch with sshReadPaused := false } }
          (readDone, t.checkEof net channel)
  | _, _ => (false, t)

/-! ## From `toLocal` to the socket -/

def sendChunks (bufSize : Nat) (socket : Socket) (attempts : Nat) (ring : DataRingBuffer rb) (t : Turn rb W) : Turn rb W :=
  match attempts with
  | 0 => t
  | attempts + 1 =>
    if ring.empty then t
    else
      let (got, ring) := ring.read (min ring.size bufSize)
      if got.length = 0 then { t with ch := { t.ch with toLocal := some ring } }
      else
        match net.send socket got t.world with
        | (.took sent _ _, w) =>
          let (now, t) := millis net { t with world := w }
          let t :=
            { t with
              ch := { t.ch with toLocal := some ring, lastActivity := now, firstLocalSendEagainMs := 0 }
              flow := { t.flow with toSocket := t.flow.toSocket ++ got.take sent }
              lastBytesMoved := t.lastBytesMoved + sent }
          if sent < got.length then { t with ch := { t.ch with toLocal := some (ring.putBack (got.drop sent)) } }
          else sendChunks bufSize socket attempts ring t
        | (.failed, w) =>
          { t with
            world := w
            ch := { t.ch with toLocal := some ring, localEof := true }
            flow := { t.flow with refused := t.flow.refused + got.length } }
        | (_, w) =>
          let t := { t with world := w, ch := { t.ch with toLocal := some (ring.putBack got) } }
          if t.ch.firstLocalSendEagainMs = 0 then
            let (now, t) := t.millis net
            { t with ch := { t.ch with firstLocalSendEagainMs := now } }
          else t

/-- A socket that has taken nothing for too long. -/
def checkSendStall (t : Turn rb W) : Turn rb W :=
  if t.ch.firstLocalSendEagainMs ≠ 0 && !ChannelSlot.ringEmpty t.ch.toLocal then
    let (now, t) := t.millis net
    if localSendStallTimeoutMs < now - t.ch.firstLocalSendEagainMs then
      let t := if t.ch.state = .opened then t.beginClose net .error else t
      let (now, t) := t.millis net
      { t with ch := { t.ch with firstLocalSendEagainMs := now } }
    else t
  else t

/-- A slot's part of `drainSshToLocal`. -/
def drainToLocal (bufSize : Nat) (t : Turn rb W) : Turn rb W :=
  match t.ch.active, t.ch.localSocket, t.ch.toLocal with
  | true, some socket, some ring => (t.sendChunks net bufSize socket 4 ring).checkSendStall net
  | _, _, _ => t

/-! ## From the socket to the channel -/

/-- The writes of one round. -/
def writeChunks (bufSize : Nat) (channel : Channel) (budget : Nat) (ring : DataRingBuffer rb) (t : Turn rb W) : Turn rb W :=
  if budget = 0 || ring.empty then t
  else
    let (got, ring) := ring.read (min budget bufSize)
    if got.length = 0 then { t with ch := { t.ch with toRemote := some ring } }
    else
      match net.channelWrite channel got t.world with
      | (.took written _ _, w) =>
        let (now, t) := millis net { t with world := w }
        let t :=
          { t with
            ch :=
              { t.ch with
                toRemote := some ring, totalBytesSent := t.ch.totalBytesSent + written, lastActivity := now
                firstEagainMs := 0, consecutiveErrors := 0 }
            flow := { t.flow with toSsh := t.flow.toSsh ++ got.take written }
            lastBytesMoved := t.lastBytesMoved + written }
        if written < got.length then { t with ch := { t.ch with toRemote := some (ring.putBack (got.drop written)) } }
        else writeChunks bufSize channel (budget - written) ring t
      | (.again, w) =>
        let t := { t with world := w, ch := { t.ch with toRemote := some (ring.putBack got) } }
        if t.ch.firstEagainMs = 0 then
          let (now, t) := t.millis net
          { t with ch := { t.ch with firstEagainMs := now } }
        else t
      | (_, w) => erred net { t with world := w, ch := { t.ch with toRemote := some (ring.putBack got) } }
termination_by budget
decreasing_by
  simp_all
  omega

/-- A channel that has taken nothing for too long. -/
def checkWriteStall (t : Turn rb W) : Turn rb W :=
  if t.ch.firstEagainMs ≠ 0 then
    let (now, t) := t.millis net
    if eagainStallTimeoutMs < now - t.ch.firstEagainMs then
      let t := if t.ch.state = .opened then t.beginClose net .error else t
      let (now, t) := t.millis net
      { t with ch := { t.ch with firstEagainMs := now } }
    else t
  else t

def lock (ticks : Nat) (t : Turn rb W) : Bool × Turn rb W :=
  let (locked, w) := net.lock ticks t.world
  (locked, { t with world := w })

def unlock (t : Turn rb W) : Turn rb W := { t with world := net.unlock t.world }

/-- Step A of `drainLocalToSsh`. -/
def writeToSsh (bufSize : Nat) (channel : Channel) (t : Turn rb W) : Turn rb W :=
  match t.ch.toRemote with
  | none => t
  | some ring =>
    if ring.empty then t
    else
      let (locked, t) := t.lock net 20
      if locked then ((t.writeChunks net bufSize channel maxWritePerChannel ring).unlock net).checkWriteStall net else t

def checkBackpressure (t : Turn rb W) : Turn rb W :=
  match t.ch.toRemote with
  | none => t
  | some ring =>
    if t.ch.localReadPaused then
      if ring.size < ring.capacity * backpressureLowPct / 100 then { t with ch := { t.ch with localReadPaused := false } }
      else t
    else if ring.capacity * backpressureHighPct / 100 < ring.size then { t with ch := { t.ch with localReadPaused := true } }
    else t

def recvChunks (bufSize : Nat) (socket : Socket) (attempts : Nat) (ring : DataRingBuffer rb) (t : Turn rb W) : Turn rb W :=
  match attempts with
  | 0 => t
  | attempts + 1 =>
    if ring.available = 0 then { t with ch := { t.ch with localReadPaused := true } }
    else
      match net.recv socket (min ring.available bufSize) t.world with
      | (.data bytes _ _, w) =>
        let ring := (ring.write bytes).2
        let (now, t) := millis net { t with world := w }
        recvChunks bufSize socket attempts ring
          { t with
            ch := { t.ch with toRemote := some ring, lastActivity := now }
            flow := { t.flow with fromSocket := t.flow.fromSocket ++ bytes }
            lastBytesMoved := t.lastBytesMoved + bytes.length }
      | (.again, w) => { t with world := w }
      | (_, w) => { t with world := w, ch := { t.ch with localEof := true } }

/-- Step B of `drainLocalToSsh`. -/
def readFromLocal (bufSize : Nat) (t : Turn rb W) : Turn rb W :=
  match t.ch.localSocket, t.ch.toRemote with
  | some socket, some ring =>
    if !t.ch.localEof && !t.ch.localReadPaused && t.ch.eofSentMs = 0 then t.recvChunks net bufSize socket 3 ring else t
  | _, _ => t

/-- A slot's part of `drainLocalToSsh`. -/
def drainToSsh (bufSize : Nat) (t : Turn rb W) : Turn rb W :=
  match t.ch.active, t.ch.sshChannel with
  | true, some channel =>
    if t.ch.eofSentMs ≠ 0 then t
    else ((t.writeToSsh net bufSize channel).checkBackpressure).readFromLocal net bufSize
  | _, _ => t

/-! ## Closing -/

/-- The local end learns of the end of file when all of the buffer has gone out. -/
def forwardEof (t : Turn rb W) : Turn rb W :=
  match t.ch.localSocket with
  | none => t
  | some socket =>
    if t.ch.remoteEof && !t.ch.localShutdownSent && ChannelSlot.ringEmpty t.ch.toRemote then
      { t with world := net.shutdown socket t.world, ch := { t.ch with localShutdownSent := true } }
    else t

/-- The timeouts of the first loop of `checkCloses`. -/
def checkIdle (now : UInt32) (t : Turn rb W) : Turn rb W :=
  if t.ch.remoteEof && !t.ch.localEof && t.ch.lastActivity ≠ 0 && halfCloseTimeoutMs < now - t.ch.lastActivity &&
      ChannelSlot.ringEmpty t.ch.toRemote then t.beginClose net .remoteClosed
  else if t.ch.lastActivity ≠ 0 && 30000 < now - t.ch.lastActivity then t.beginClose net .timeout
  else t

/-- The first loop of `checkCloses`. -/
def checkOpen (now : UInt32) (t : Turn rb W) : Turn rb W :=
  if !t.ch.active || t.ch.state ≠ .opened then t
  else if t.ch.remoteEof && t.ch.localEof then t.beginClose net .remoteClosed
  else if t.ch.localEof && !t.ch.remoteEof && ChannelSlot.ringEmpty t.ch.toRemote then t.beginClose net .localClosed
  else if 5 < t.ch.consecutiveErrors then t.beginClose net .error
  else (t.forwardEof net).checkIdle net now

/-- What is due for a draining slot. -/
inductive Due where
  | nothing
  | sendEof
  | finalize
  | abandon
deriving DecidableEq

/-- The second loop of `checkCloses`. -/
def due (now : UInt32) (ch : ChannelSlot rb) : Due :=
  if !ch.active || ch.state ≠ .draining then .nothing
  else if hardAbandonTimeoutMs < now - ch.closeStartMs then .abandon
  else if drainTimeoutMs < now - ch.closeStartMs then .finalize
  else if 3 < ch.consecutiveErrors then .finalize
  else if ChannelSlot.ringEmpty ch.toLocal && ChannelSlot.ringEmpty ch.toRemote then
    if ch.eofSentMs = 0 then .sendEof else if eofGraceMs ≤ now - ch.eofSentMs then .finalize else .nothing
  else .nothing

/-- The reads after the end of file was sent. -/
def flushChunks (channel : Channel) (attempts : Nat) (t : Turn rb W) : Turn rb W :=
  match attempts with
  | 0 => t
  | attempts + 1 =>
    match net.channelRead channel 512 t.world with
    | (.data bytes _ _, w) =>
      let t := { t with world := w }
      match t.ch.toLocal with
      | some ring => flushChunks channel attempts (t.store bytes ring).2.2
      | none =>
        flushChunks channel attempts
          { t with flow := { t.flow with fromSsh := t.flow.fromSsh ++ bytes, overflowed := t.flow.overflowed + bytes.length } }
    | (_, w) => { t with world := w }

/-- Step 2a of `checkCloses`. -/
def sendEof (t : Turn rb W) : Turn rb W :=
  match t.ch.sshChannel with
  | none => t
  | some channel =>
    let (rc, w) := net.channelSendEof channel t.world
    let t := { t with world := w }
    if rc = errorEagain then t
    else
      let (now, t) := (t.flushChunks net channel 4).millis net
      { t with ch := { t.ch with eofSentMs := now } }

end Turn

/-! ## All slots -/

/-- `TransportPump`, with the manager it is attached to. -/
structure TransportPump (rb : Ringbuf R) (W : Type) where
  channels : ChannelManager rb W
  bufSize : Nat
  roundRobinOffset : UInt32
  pendingCloseEvents : List (Nat × ChannelCloseReason)
  sessionDegraded : Bool

namespace TransportPump

variable {rb : Ringbuf R} (net : Net W)

/-- The order in which the slots have their turns. -/
def order (p : TransportPump rb W) : List Nat :=
  (List.range p.channels.slots.length).map fun n => (UInt32.ofNat n + p.roundRobinOffset).toNat % p.channels.slots.length

/-- Each of the slots has its turn. -/
def turns (f : Turn rb W → Turn rb W) (slots : List Nat) (m : ChannelManager rb W) : ChannelManager rb W :=
  slots.foldl (fun m i => m.atSlot i f) m

/-- The fallback of `pumpSshTransport`: one byte of a channel at its end, or of any. -/
def fallback (m : ChannelManager rb W) : ChannelManager rb W :=
  match m.slots.findIdx? fun s => s.ch.active && s.ch.sshChannel.isSome && s.ch.remoteEof with
  | some i => m.atSlot i (Turn.pumpOne net)
  | none =>
    match m.slots.findIdx? fun s => s.ch.active && s.ch.sshChannel.isSome && !s.ch.remoteEof with
    | some i => m.atSlot i (Turn.pumpOne net)
    | none => m

/-- The reads of all slots, with whether there was one. -/
def readAll (bufSize : Nat) (slots : List Nat) (m : ChannelManager rb W) : Bool × ChannelManager rb W :=
  match slots with
  | [] => (false, m)
  | i :: slots =>
    let (read, m) := m.atSlotWith i false (Turn.pumpSsh net bufSize)
    let (rest, m) := readAll bufSize slots m
    (read || rest, m)

def pumpSshTransport (p : TransportPump rb W) : TransportPump rb W :=
  let (locked, m) := p.channels.lock net 50
  if !locked then { p with channels := m }
  else
    let (anyReadDone, m) := readAll net p.bufSize p.order m
    { p with channels := (if anyReadDone then m else fallback net m).unlock net }

def drainSshToLocal (p : TransportPump rb W) : TransportPump rb W :=
  { p with channels := turns (Turn.drainToLocal net p.bufSize) p.order p.channels }

def drainLocalToSsh (p : TransportPump rb W) : TransportPump rb W :=
  if p.channels.slots.length = 0 then p
  else
    { p with
      channels := turns (Turn.drainToSsh net p.bufSize) p.order p.channels
      roundRobinOffset := p.roundRobinOffset + 1 }

/-- Room for a close event. -/
def addCloseEvent (i : Nat) (reason : ChannelCloseReason) (p : TransportPump rb W) : TransportPump rb W :=
  if p.pendingCloseEvents.length < maxCloseEvents then
    { p with pendingCloseEvents := p.pendingCloseEvents ++ [(i, reason)] }
  else p

/-- What the second loop of `checkCloses` collects. -/
structure Collected where
  toSendEof : List Nat
  toClose : List Nat

/-- One round of the second loop of `checkCloses`. -/
def collect (now : UInt32) (found : Collected × TransportPump rb W) (i : Nat) : Collected × TransportPump rb W :=
  let (c, p) := found
  let arrSize := min p.channels.slots.length 32
  match p.channels.slots[i]? with
  | none => (c, p)
  | some s =>
    match Turn.due now s.ch with
    | .nothing => (c, p)
    | .sendEof => (if c.toSendEof.length < arrSize then { c with toSendEof := c.toSendEof ++ [i] } else c, p)
    | .finalize => (if c.toClose.length < arrSize then { c with toClose := c.toClose ++ [i] } else c, p)
    | .abandon =>
      (c, addCloseEvent i s.ch.closeReason { p with channels := p.channels.abandonSlot net i, sessionDegraded := true })

/-- Step 2b of `checkCloses` for one slot. -/
def finalize (p : TransportPump rb W) (i : Nat) : TransportPump rb W :=
  match p.channels.slots[i]? with
  | none => p
  | some s =>
    let (done, m) := p.channels.finalizeClose net i
    if done then addCloseEvent i s.ch.closeReason { p with channels := m } else { p with channels := m }

/-- The first loop of `checkCloses`. -/
def checkOpens (p : TransportPump rb W) : TransportPump rb W :=
  let (now, m) := p.channels.millis net
  { p with channels := turns (Turn.checkOpen net now) (List.range p.channels.slots.length) m }

/-- The second loop of `checkCloses`; `beginClose` has read the clock again. -/
def collectAll (p : TransportPump rb W) : Collected × TransportPump rb W :=
  let (now, m) := p.channels.millis net
  (List.range p.channels.slots.length).foldl (collect net now) (⟨[], []⟩, { p with channels := m })

/-- Step 2a of `checkCloses`. -/
def sendEofs (slots : List Nat) (p : TransportPump rb W) : TransportPump rb W :=
  if slots.isEmpty then p
  else
    let (locked, m) := p.channels.lock net 100
    { p with channels := if locked then (turns (Turn.sendEof net) slots m).unlock net else m }

/-- Step 2b of `checkCloses`. -/
def finalizes (slots : List Nat) (p : TransportPump rb W) : TransportPump rb W :=
  if slots.isEmpty then p
  else
    let (locked, m) := p.channels.lock net 200
    let p := { p with channels := m }
    if locked then
      let p := slots.foldl (finalize net) p
      { p with channels := p.channels.unlock net }
    else p

def checkCloses (p : TransportPump rb W) : TransportPump rb W :=
  let (c, p) := (p.checkOpens net).collectAll net
  (p.sendEofs net c.toSendEof).finalizes net c.toClose

def pumpAll (p : TransportPump rb W) : Bool × TransportPump rb W :=
  let p := { p with channels := { p.channels with lastBytesMoved := 0 } }
  let p := (((p.pumpSshTransport net).drainSshToLocal net).drainLocalToSsh net).checkCloses net
  (0 < p.channels.lastBytesMoved, p)

def consumeCloseEvents (maxEvents : Nat) (p : TransportPump rb W) :
    List (Nat × ChannelCloseReason) × TransportPump rb W :=
  (p.pendingCloseEvents.take maxEvents, { p with pendingCloseEvents := [] })

end TransportPump

end OrangeBox.Tunnel
