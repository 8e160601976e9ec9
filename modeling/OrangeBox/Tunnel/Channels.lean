import OrangeBox.Tunnel.CircuitBreaker
import OrangeBox.Tunnel.DataRingBuffer
/-!
# Channel slots

`ssh_channel.h`, `ssh_channel.cpp`, `channel_slot_alloc.h` and
`channel_close_progress.h`. `Net` is what the tunnel calls, on a world of its
own: the SSH library and the session's lock, the sockets, the clock and the
allocator. `Flow` is kept beside a slot and records what its calls carried.
-/

namespace OrangeBox.Tunnel

/-- `LIBSSH2_CHANNEL *`. -/
abbrev Channel := Nat

/-- A file descriptor that is not negative. -/
abbrev Socket := Nat

/-- What `libssh2_channel_read` and `recv` answer when asked for `n` bytes. -/
inductive Reading (n : Nat) where
  | data (bytes : List UInt8) (some : bytes ≠ []) (fits : bytes.length ≤ n)
  | eof
  | again
  | failed

/-- What `libssh2_channel_write` and `send` answer when given `n` bytes. -/
inductive Sending (n : Nat) where
  | took (count : Nat) (some : 0 < count) (fits : count ≤ n)
  | nothing
  | again
  | failed

/-- `LIBSSH2_ERROR_EAGAIN`. -/
abbrev errorEagain : Int := -37

structure TunnelConfig where
  remoteBindHost : List UInt8
  remoteBindPort : Int
  localHost : List UInt8
  localPort : Int
deriving DecidableEq

structure Net (W : Type) where
  millis : W → UInt32 × W
  /-- `lock` of the session, by the ticks to wait. -/
  lock : Nat → W → Bool × W
  unlock : W → W
  channelRead : Channel → (n : Nat) → W → Reading n × W
  channelEof : Channel → W → Bool × W
  channelWrite : Channel → (data : List UInt8) → W → Sending data.length × W
  channelSendEof : Channel → W → Int × W
  channelClose : Channel → W → Int × W
  channelFree : Channel → W → Int × W
  /-- `connectToLocalEndpoint`. -/
  connectToLocalEndpoint : TunnelConfig → W → Option Socket × W
  send : Socket → (data : List UInt8) → W → Sending data.length × W
  recv : Socket → (n : Nat) → W → Reading n × W
  shutdown : Socket → W → W
  close : Socket → W → W
  largestFreeBlock : (psram : Bool) → W → Nat
  /-- Whether there is memory for a buffer. -/
  allocate : Nat → W → Bool × W

/-- What has passed through a slot since it was bound. -/
structure Flow where
  fromSsh : List UInt8
  toSocket : List UInt8
  fromSocket : List UInt8
  toSsh : List UInt8
  /-- Read only to keep the session going. -/
  discarded : Nat
  /-- Read without room for them. -/
  overflowed : Nat
  /-- In a `send` that failed for good. -/
  refused : Nat

def Flow.none : Flow := ⟨[], [], [], [], 0, 0, 0⟩

inductive ChannelCloseReason where
  | unknown
  | remoteClosed
  | localClosed
  | error
  | timeout
  | manual
deriving DecidableEq

inductive SlotState where
  | opened
  | draining
  | closed
deriving DecidableEq

/-- `channel_close_progress::Progress`. -/
structure Progress where
  closeComplete : Bool
  freeComplete : Bool

namespace Progress

def none : Progress := ⟨false, false⟩

def recordCloseResult (rc eagainCode : Int) (p : Progress) : Bool × Progress :=
  if rc = eagainCode then (false, p) else (true, { p with closeComplete := true })

def recordFreeResult (rc eagainCode : Int) (p : Progress) : Bool × Progress :=
  if rc = eagainCode then (false, p) else (true, { p with freeComplete := true })

def readyForFree (p : Progress) : Bool := p.closeComplete

def readyForFinalize (p : Progress) : Bool := p.closeComplete && p.freeComplete

end Progress

variable {R W : Type}

structure ChannelSlot (rb : Ringbuf R) where
  sshChannel : Option Channel
  localSocket : Option Socket
  active : Bool
  toLocal : Option (DataRingBuffer rb)
  toRemote : Option (DataRingBuffer rb)
  state : SlotState
  localEof : Bool
  remoteEof : Bool
  localShutdownSent : Bool
  closeStartMs : UInt32
  eofSentMs : UInt32
  closeReason : ChannelCloseReason
  sshCloseProgress : Progress
  localReadPaused : Bool
  sshReadPaused : Bool
  totalBytesReceived : Nat
  totalBytesSent : Nat
  lastActivity : UInt32
  consecutiveErrors : Nat
  firstEagainMs : UInt32
  firstLocalSendEagainMs : UInt32
  lastFinalizeMs : UInt32

namespace ChannelSlot

variable {rb : Ringbuf R}

/-- `resetSlot`; the cooldown after a close stays. -/
def resetSlot (ch : ChannelSlot rb) : ChannelSlot rb :=
  { sshChannel := none, localSocket := none, active := false, toLocal := none, toRemote := none, state := .closed
    localEof := false, remoteEof := false, localShutdownSent := false, closeStartMs := 0, eofSentMs := 0
    closeReason := .unknown, sshCloseProgress := .none, localReadPaused := false, sshReadPaused := false
    totalBytesReceived := 0, totalBytesSent := 0, lastActivity := 0, consecutiveErrors := 0, firstEagainMs := 0
    firstLocalSendEagainMs := 0, lastFinalizeMs := ch.lastFinalizeMs }

/-- A slot of `init`. -/
def new (rb : Ringbuf R) : ChannelSlot rb :=
  { sshChannel := none, localSocket := none, active := false, toLocal := none, toRemote := none, state := .closed
    localEof := false, remoteEof := false, localShutdownSent := false, closeStartMs := 0, eofSentMs := 0
    closeReason := .unknown, sshCloseProgress := .none, localReadPaused := false, sshReadPaused := false
    totalBytesReceived := 0, totalBytesSent := 0, lastActivity := 0, consecutiveErrors := 0, firstEagainMs := 0
    firstLocalSendEagainMs := 0, lastFinalizeMs := 0 }

/-- `!ring || ring->empty()`. -/
def ringEmpty (ring : Option (DataRingBuffer rb)) : Bool := ring.all (·.empty)

end ChannelSlot

/-- A slot with what passed through it. -/
structure Slot (rb : Ringbuf R) where
  ch : ChannelSlot rb
  flow : Flow

/-- The work on one slot: the slot, the world and the counters all slots share. -/
structure Turn (rb : Ringbuf R) (W : Type) where
  ch : ChannelSlot rb
  flow : Flow
  world : W
  activeCount : Int
  lastBytesMoved : Nat

namespace Turn

variable {rb : Ringbuf R} (net : Net W)

def millis (t : Turn rb W) : UInt32 × Turn rb W :=
  let (now, w) := net.millis t.world
  (now, { t with world := w })

/-! ## Closing -/

def beginClose (reason : ChannelCloseReason) (t : Turn rb W) : Turn rb W :=
  if !t.ch.active || t.ch.state = .draining || t.ch.state = .closed then t
  else
    let (now, t) := t.millis net
    { t with ch := { t.ch with state := .draining, closeStartMs := now, closeReason := reason } }

/-- The `close` of the local socket, if there is one. -/
def closeSocket (t : Turn rb W) : Turn rb W :=
  match t.ch.localSocket with
  | none => t
  | some socket => { t with world := net.close socket t.world, ch := { t.ch with localSocket := none } }

/-- The end of `finalizeClose`. -/
def releaseSlot (t : Turn rb W) : Turn rb W :=
  let t := t.closeSocket net
  let (now, t) := t.millis net
  { t with
    ch := { t.ch with toLocal := none, toRemote := none, active := false, state := .closed, lastFinalizeMs := now }
    activeCount := t.activeCount - 1 }

/-- The `libssh2_channel_close` of `finalizeClose`. -/
def closeChannel (channel : Channel) (t : Turn rb W) : Bool × Turn rb W :=
  if t.ch.sshCloseProgress.closeComplete then (true, t)
  else
    let (closeRc, w) := net.channelClose channel t.world
    let (done, progress) := t.ch.sshCloseProgress.recordCloseResult closeRc errorEagain
    (done, { t with world := w, ch := { t.ch with sshCloseProgress := progress } })

/-- The `libssh2_channel_free` of `finalizeClose`. -/
def freeChannel (channel : Channel) (t : Turn rb W) : Bool × Turn rb W :=
  if t.ch.sshCloseProgress.readyForFree then
    let (freeRc, w) := net.channelFree channel t.world
    let (done, progress) := t.ch.sshCloseProgress.recordFreeResult freeRc errorEagain
    (done, { t with world := w, ch := { t.ch with sshCloseProgress := progress } })
  else (true, t)

def finalizeClose (t : Turn rb W) : Bool × Turn rb W :=
  if !t.ch.active then (true, t)
  else
    match t.ch.sshChannel with
    | none => (true, t.releaseSlot net)
    | some channel =>
      let (closed, t) := t.closeChannel net channel
      if !closed then (false, t)
      else
        let (freed, t) := t.freeChannel net channel
        if !freed || !t.ch.sshCloseProgress.readyForFinalize then (false, t)
        else (true, releaseSlot net { t with ch := { t.ch with sshChannel := none } })

def abandonSlot (t : Turn rb W) : Turn rb W :=
  if !t.ch.active then t
  else
    let t := t.closeSocket net
    { t with
      ch := t.ch.resetSlot
      activeCount := if 0 < t.activeCount then t.activeCount - 1 else t.activeCount }

end Turn

/-! ## The manager -/

/-- `ChannelManager`, with the world it acts on and the count of bytes the pump keeps. -/
structure ChannelManager (rb : Ringbuf R) (W : Type) where
  slots : List (Slot rb)
  activeCount : Int
  ringBufferSize : Nat
  breaker : CircuitBreaker
  lastBytesMoved : Nat
  world : W

namespace ChannelManager

variable {rb : Ringbuf R} (net : Net W)

def init (rb : Ringbuf R) (maxChannels ringBufferSize : Nat) (w : W) : ChannelManager rb W :=
  { slots := List.replicate maxChannels ⟨.new rb, .none⟩, activeCount := 0, ringBufferSize := ringBufferSize
    breaker := .new, lastBytesMoved := 0, world := w }

def millis (m : ChannelManager rb W) : UInt32 × ChannelManager rb W :=
  let (now, w) := net.millis m.world
  (now, { m with world := w })

def lock (ticks : Nat) (m : ChannelManager rb W) : Bool × ChannelManager rb W :=
  let (locked, w) := net.lock ticks m.world
  (locked, { m with world := w })

def unlock (m : ChannelManager rb W) : ChannelManager rb W := { m with world := net.unlock m.world }

/-- The turn of a slot. -/
def turn (s : Slot rb) (m : ChannelManager rb W) : Turn rb W := ⟨s.ch, s.flow, m.world, m.activeCount, m.lastBytesMoved⟩

/-- What a turn leaves behind. -/
def endTurn (i : Nat) (t : Turn rb W) (m : ChannelManager rb W) : ChannelManager rb W :=
  { m with slots := m.slots.set i ⟨t.ch, t.flow⟩, world := t.world, activeCount := t.activeCount
           lastBytesMoved := t.lastBytesMoved }

/-- A function of slot `i`; an index out of range gives the other value. -/
def atSlotWith {A : Type} (i : Nat) (other : A) (f : Turn rb W → A × Turn rb W) (m : ChannelManager rb W) :
    A × ChannelManager rb W :=
  match m.slots[i]? with
  | none => (other, m)
  | some s =>
    let (a, t) := f (m.turn s)
    (a, m.endTurn i t)

def atSlot (i : Nat) (f : Turn rb W → Turn rb W) (m : ChannelManager rb W) : ChannelManager rb W :=
  (m.atSlotWith i () fun t => ((), f t)).2

def beginClose (i : Nat) (reason : ChannelCloseReason) (m : ChannelManager rb W) : ChannelManager rb W :=
  m.atSlot i (.beginClose net reason)

def finalizeClose (i : Nat) (m : ChannelManager rb W) : Bool × ChannelManager rb W :=
  m.atSlotWith i true (Turn.finalizeClose net)

def abandonSlot (i : Nat) (m : ChannelManager rb W) : ChannelManager rb W := m.atSlot i (.abandonSlot net)

abbrev finalizeCooldownMs : UInt32 := 50

/-- `channel_alloc::findFreeSlot`. -/
def findFreeSlot (now : UInt32) (slots : List (Slot rb)) : Option Nat :=
  slots.findIdx? fun s =>
    !s.ch.active && !(s.ch.lastFinalizeMs ≠ 0 && now - s.ch.lastFinalizeMs < finalizeCooldownMs)

def allocateSlot (m : ChannelManager rb W) : Option Nat × ChannelManager rb W :=
  let (now, m) := m.millis net
  match findFreeSlot now m.slots with
  | some i => (some i, m)
  | none =>
    -- a stale slot is not used again before it has drained
    match m.slots.findIdx? fun s => s.ch.active && 30000 < now - s.ch.lastActivity with
    | some i => (none, m.beginClose net i .timeout)
    | none => (none, m)

/-- The heap guard of `bindChannel`. -/
def hasMemory (m : ChannelManager rb W) : Bool :=
  let required := m.ringBufferSize * 2 + 32768
  let freePsram := net.largestFreeBlock true m.world
  if 0 < freePsram then required ≤ freePsram else required ≤ net.largestFreeBlock false m.world

/-- The slot `bindChannel` leaves. -/
def bound (sshChannel : Channel) (localSocket : Socket) (toLocal toRemote : DataRingBuffer rb) (now : UInt32)
    (ch : ChannelSlot rb) : ChannelSlot rb :=
  { ch.resetSlot with
    sshChannel := some sshChannel, localSocket := some localSocket, active := true, state := .opened
    toLocal := some toLocal, toRemote := some toRemote, lastActivity := now }

def bindChannel (i : Nat) (sshChannel : Channel) (mapping : TunnelConfig) (m : ChannelManager rb W) :
    Bool × ChannelManager rb W :=
  match m.slots[i]? with
  | none => (false, m)
  | some s =>
    if s.ch.active then (false, m)
    else
      let (connected, w) := net.connectToLocalEndpoint mapping m.world
      let m := { m with world := w }
      match connected with
      | none =>
        let (now, m) := m.millis net
        (false, { m with breaker := (m.breaker.recordFailure mapping.remoteBindPort now).2 })
      | some localSocket =>
        let m := { m with breaker := m.breaker.recordSuccess mapping.remoteBindPort }
        if !m.hasMemory net then (false, { m with world := net.close localSocket m.world })
        else
          let (allocatedLocal, w) := net.allocate m.ringBufferSize m.world
          let (allocatedRemote, w) := net.allocate m.ringBufferSize w
          let toLocal := DataRingBuffer.new rb m.ringBufferSize allocatedLocal
          let toRemote := DataRingBuffer.new rb m.ringBufferSize allocatedRemote
          let m := { m with world := w }
          if toLocal.capacity = 0 || toRemote.capacity = 0 then (false, { m with world := net.close localSocket m.world })
          else
            let (now, m) := m.millis net
            (true,
              { m with
                slots := m.slots.set i ⟨bound sshChannel localSocket toLocal toRemote now s.ch, .none⟩
                activeCount := m.activeCount + 1 })

end ChannelManager

end OrangeBox.Tunnel
