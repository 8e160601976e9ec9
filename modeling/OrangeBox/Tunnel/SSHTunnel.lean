import OrangeBox.Tunnel.Transport
/-!
# The tunnel

`ssh_tunnel.cpp`: accepted channels get a slot or wait for one, the pump runs,
and when the session fails everything is given up and the tunnel connects anew.
`Session` is what the tunnel asks of the SSH session.
-/

namespace OrangeBox.Tunnel

structure Session (W : Type) extends Net W where
  connect : W → Bool × W
  disconnect : W → W
  isConnected : W → Bool
  checkConnection : W → Bool
  sendKeepalive : W → Bool × W
  acceptChannel : W → Option (Channel × TunnelConfig) × W
  hasFatalAcceptFailure : W → Bool

structure ConnectionConfig where
  keepAliveIntervalSec : Nat
  reconnectDelayMs : Nat
  maxReconnectAttempts : Nat
  bufferSize : Nat
  maxChannels : Nat
  libssh2KeepAliveEnabled : Bool
  libssh2KeepAliveIntervalSec : Int
  tunnelRingBufferSize : Nat
  maxReverseListeners : Int

inductive TunnelState where
  | disconnected
  | connecting
  | connected
  | error
deriving DecidableEq

inductive PendingAction where
  | bind
  | close
deriving DecidableEq

structure PendingChannel where
  channel : Channel
  mapping : TunnelConfig
  queuedAtMs : UInt32
  action : PendingAction

/-- The calls of the event handlers. -/
inductive TunnelEvent where
  | sessionConnected
  | sessionDisconnected
  | channelOpened (slot : Nat)
  | channelClosed (slot : Nat) (reason : ChannelCloseReason)
  | error (code : Int)
deriving DecidableEq

abbrev maxPending : Nat := 8
abbrev maxDeferredClose : Nat := 4
abbrev pendingTimeoutMs : UInt32 := 5000
abbrev closeRetryTimeoutMs : UInt32 := 5000

variable {R W : Type}

/-- `SSHTunnel`; the queues hold the entries whose channel is not null. -/
structure SSHTunnel (rb : Ringbuf R) (W : Type) where
  state : TunnelState
  transport : TransportPump rb W
  lastKeepAlive : UInt32
  lastConnectionAttempt : UInt32
  reconnectAttempts : Nat
  socketHealthFailures : Nat
  pendingQueue : List PendingChannel
  deferredCloseQueue : List PendingChannel
  emitted : List TunnelEvent

namespace SSHTunnel

variable {rb : Ringbuf R} (session : Session W) (config : ConnectionConfig)

/-- After `init`. -/
def init (rb : Ringbuf R) (config : ConnectionConfig) (w : W) : SSHTunnel rb W :=
  let perDirectionSize := if config.tunnelRingBufferSize < 8192 then 8192 else config.tunnelRingBufferSize
  { state := .disconnected
    transport :=
      { channels := .init rb config.maxChannels perDirectionSize w
        bufSize := if 0 < config.bufferSize then config.bufferSize else 4096
        roundRobinOffset := 0, pendingCloseEvents := [], sessionDegraded := false }
    lastKeepAlive := 0, lastConnectionAttempt := 0, reconnectAttempts := 0, socketHealthFailures := 0
    pendingQueue := [], deferredCloseQueue := [], emitted := [] }

def world (t : SSHTunnel rb W) : W := t.transport.channels.world

/-- A function of the manager. -/
def onChannels {A : Type} (f : ChannelManager rb W → A × ChannelManager rb W) (t : SSHTunnel rb W) : A × SSHTunnel rb W :=
  let (a, m) := f t.transport.channels
  (a, { t with transport := { t.transport with channels := m } })

def onWorld {A : Type} (f : W → A × W) (t : SSHTunnel rb W) : A × SSHTunnel rb W :=
  t.onChannels fun m =>
    let (a, w) := f m.world
    (a, { m with world := w })

/-- A function of the manager that answers nothing. -/
def changeChannels (f : ChannelManager rb W → ChannelManager rb W) (t : SSHTunnel rb W) : SSHTunnel rb W :=
  (t.onChannels fun m => ((), f m)).2

def changeWorld (f : W → W) (t : SSHTunnel rb W) : SSHTunnel rb W := (t.onWorld fun w => ((), f w)).2

def emit (e : TunnelEvent) (t : SSHTunnel rb W) : SSHTunnel rb W := { t with emitted := t.emitted ++ [e] }

/-- The indices of the slots. -/
def slotIndices (t : SSHTunnel rb W) : List Nat := List.range t.transport.channels.slots.length

/-! ## Channels without a slot -/

/-- `libssh2_channel_close` and `libssh2_channel_free`, whatever they answer. -/
def dropChannel (channel : Channel) (t : SSHTunnel rb W) : SSHTunnel rb W :=
  ((t.onWorld (session.channelClose channel)).2.onWorld (session.channelFree channel)).2

/-- `closeAcceptedChannel`. -/
def closeAcceptedChannel (channel : Channel) (lockTicks : Nat) (t : SSHTunnel rb W) : Bool × SSHTunnel rb W :=
  let (locked, t) := t.onWorld (session.lock lockTicks)
  if locked then (true, (t.dropChannel session channel).changeWorld session.unlock) else (false, t)

inductive BindResult where
  | bound
  | failed
  | lockUnavailable

/-- `bindAcceptedChannel`. -/
def bindAcceptedChannel (slot : Nat) (channel : Channel) (mapping : TunnelConfig) (lockTicks : Nat) (t : SSHTunnel rb W) :
    BindResult × SSHTunnel rb W :=
  let (locked, t) := t.onWorld (session.lock lockTicks)
  if !locked then (.lockUnavailable, t)
  else
    let (bound, t) := t.onChannels (ChannelManager.bindChannel session.toNet slot channel mapping)
    (if bound then .bound else .failed, t.changeWorld session.unlock)

def enqueueDeferredClose (channel : Channel) (mapping : TunnelConfig) (t : SSHTunnel rb W) : Bool × SSHTunnel rb W :=
  let (closed, t) := t.closeAcceptedChannel session channel 200
  if closed then (true, t)
  else if maxDeferredClose ≤ t.deferredCloseQueue.length then (false, t)
  else
    let (now, t) := t.onWorld session.millis
    (true, { t with deferredCloseQueue := t.deferredCloseQueue ++ [⟨channel, mapping, now, .close⟩] })

/-- A channel joins the pending queue. -/
def enqueuePending (channel : Channel) (mapping : TunnelConfig) (t : SSHTunnel rb W) : SSHTunnel rb W :=
  let (now, t) := t.onWorld session.millis
  { t with pendingQueue := t.pendingQueue ++ [⟨channel, mapping, now, .bind⟩] }

/-- The locked part of `clearPendingQueue` and `clearDeferredCloseQueue`. -/
def dropAll (queue : List PendingChannel) (t : SSHTunnel rb W) : SSHTunnel rb W :=
  queue.foldl (fun t p => t.dropChannel session p.channel) t

def clearPendingQueue (t : SSHTunnel rb W) : SSHTunnel rb W :=
  if t.pendingQueue.isEmpty then t
  else
    let (locked, t) := t.onWorld (session.lock 500)
    if locked then { (t.dropAll session t.pendingQueue).changeWorld session.unlock with pendingQueue := [] } else t

def clearDeferredCloseQueue (t : SSHTunnel rb W) : SSHTunnel rb W :=
  if t.deferredCloseQueue.isEmpty then t
  else
    let (locked, t) := t.onWorld (session.lock 500)
    if locked then { (t.dropAll session t.deferredCloseQueue).changeWorld session.unlock with deferredCloseQueue := [] }
    else t

/-- What is left when the session has been torn down. -/
def forgetAll (t : SSHTunnel rb W) : SSHTunnel rb W :=
  let t := t.slotIndices.foldl (fun t i => t.changeChannels (.abandonSlot session.toNet i)) t
  { t with pendingQueue := [], deferredCloseQueue := [] }

/-! ## Giving up -/

/-- `finalizeClose` or, without the lock, `abandonSlot`; the handler is told. -/
def giveUpSlot (locked : Bool) (reason : ChannelSlot rb → ChannelCloseReason) (t : SSHTunnel rb W) (i : Nat) :
    SSHTunnel rb W :=
  match t.transport.channels.slots[i]? with
  | none => t
  | some s =>
    if s.ch.active then
      let t :=
        if locked then (t.onChannels (ChannelManager.finalizeClose session.toNet i)).2
        else t.changeChannels (.abandonSlot session.toNet i)
      t.emit (.channelClosed i (reason s.ch))
    else t

/-- All slots are given up, then the session and what is left. -/
def giveUp (locked : Bool) (reason : ChannelSlot rb → ChannelCloseReason) (t : SSHTunnel rb W) : SSHTunnel rb W :=
  let t := t.slotIndices.foldl (giveUpSlot session locked reason) t
  let t := if locked then t.changeWorld session.unlock else t
  (t.changeWorld session.disconnect).forgetAll session

def clearQueues (t : SSHTunnel rb W) : SSHTunnel rb W := (t.clearPendingQueue session).clearDeferredCloseQueue session

def enterErrorState (t : SSHTunnel rb W) : SSHTunnel rb W :=
  let (locked, t) := (t.clearQueues session).onWorld (session.lock 500)
  let t := t.giveUp session locked fun ch => if ch.closeReason = .unknown then .error else ch.closeReason
  let (now, t) := t.onWorld session.millis
  { t with state := .error, socketHealthFailures := 0, lastConnectionAttempt := now }.emit .sessionDisconnected

/-- The lock of `disconnect`. -/
def lockConnected (t : SSHTunnel rb W) : Bool × SSHTunnel rb W :=
  if session.isConnected t.world then t.onWorld (session.lock 2000) else (false, t)

def disconnect (t : SSHTunnel rb W) : SSHTunnel rb W :=
  let (locked, t) := (t.clearQueues session).lockConnected session
  let t := t.giveUp session locked fun _ => .manual
  let t := if t.state = .connected then t.emit .sessionDisconnected else t
  { t with socketHealthFailures := 0, state := .disconnected }

def connectSSH (t : SSHTunnel rb W) : Bool × SSHTunnel rb W :=
  if t.state = .connected then (true, t)
  else
    let (now, t) := t.onWorld session.millis
    let (connected, t) := onWorld session.connect { t with state := .connecting, lastConnectionAttempt := now }
    if !connected then (false, { t with state := .error }.emit (.error (-1)))
    else
      let (now, t) := t.onWorld session.millis
      (true,
        { t with state := .connected, reconnectAttempts := 0, socketHealthFailures := 0, lastKeepAlive := now }.emit
          .sessionConnected)

/-- `baseDelay * 2^attempt`, at most a minute; the loop of `handleReconnection`. -/
def backoff (attempts : Nat) (delay : UInt32) : UInt32 :=
  match attempts with
  | 0 => delay
  | attempts + 1 => if delay < 60000 then backoff attempts (delay * 2) else delay

/-- The delay before the next attempt to connect. -/
def reconnectDelay (attempts : Nat) : UInt32 := min (backoff attempts (UInt32.ofNat config.reconnectDelayMs)) 60000

/-- When all attempts have failed the tunnel waits a minute before it starts over. -/
def cooldown (t : SSHTunnel rb W) : Bool × SSHTunnel rb W :=
  if config.maxReconnectAttempts ≤ t.reconnectAttempts then
    let (now, t) := t.onWorld session.millis
    if now - t.lastConnectionAttempt < 60000 then (true, t) else (false, { t with reconnectAttempts := 0 })
  else (false, t)

/-- One attempt to connect anew. -/
def reconnect (t : SSHTunnel rb W) : SSHTunnel rb W :=
  let t := ((t.clearQueues session).changeWorld session.disconnect).forgetAll session
  let (connected, t) := connectSSH session { t with reconnectAttempts := t.reconnectAttempts + 1 }
  if connected then { t with reconnectAttempts := 0 } else t

def handleReconnection (t : SSHTunnel rb W) : SSHTunnel rb W :=
  let (waiting, t) := t.cooldown session config
  if waiting then t
  else
    let (now, t) := t.onWorld session.millis
    if now - t.lastConnectionAttempt < reconnectDelay config t.reconnectAttempts then t else t.reconnect session

/-! ## Accepting -/

/-- `handleNewConnection` once a channel was accepted. -/
def placeChannel (channel : Channel) (mapping : TunnelConfig) (t : SSHTunnel rb W) : Bool × SSHTunnel rb W :=
  let (now, t) := t.onWorld session.millis
  if t.transport.channels.breaker.isBackedOff mapping.remoteBindPort now then
    let (closed, t) := t.closeAcceptedChannel session channel 200
    (false, if closed then t else (t.enqueueDeferredClose session channel mapping).2)
  else
    let (slot, t) := t.onChannels (ChannelManager.allocateSlot session.toNet)
    match slot with
    | some slot =>
      match t.bindAcceptedChannel session slot channel mapping 200 with
      | (.bound, t) => (true, t.emit (.channelOpened slot))
      | (.lockUnavailable, t) =>
        if t.pendingQueue.length < maxPending then (false, t.enqueuePending session channel mapping)
        else (false, (t.enqueueDeferredClose session channel mapping).2)
      | (.failed, t) => (false, (t.enqueueDeferredClose session channel mapping).2)
    | none =>
      if t.pendingQueue.length < maxPending then (false, t.enqueuePending session channel mapping)
      else
        let (closed, t) := t.closeAcceptedChannel session channel 500
        if closed then (false, t)
        else
          let (queued, t) := t.enqueueDeferredClose session channel mapping
          -- a channel that cannot be closed now is freed with the session
          if queued then (false, t) else (false, (t.closeAcceptedChannel session channel 1000).2)

def handleNewConnection (t : SSHTunnel rb W) : Bool × SSHTunnel rb W :=
  let (accepted, t) := t.onWorld session.acceptChannel
  match accepted with
  | none => (false, if session.hasFatalAcceptFailure t.world then t.enterErrorState session else t)
  | some (channel, mapping) => t.placeChannel session channel mapping

/-- The loop over `handleNewConnection`, for as many rounds as there can be. -/
def acceptAll (rounds : Nat) (t : SSHTunnel rb W) : SSHTunnel rb W :=
  match rounds with
  | 0 => t
  | rounds + 1 =>
    let (more, t) := t.handleNewConnection session
    if more then acceptAll rounds t else t

/-! ## The queues -/

/-- A queue is gone through from the front; an entry stays, changed or not, or is gone. -/
def drain (step : PendingChannel → SSHTunnel rb W → Option PendingChannel × SSHTunnel rb W) (queue : List PendingChannel)
    (t : SSHTunnel rb W) : List PendingChannel × SSHTunnel rb W :=
  match queue with
  | [] => ([], t)
  | p :: queue =>
    let (kept, t) := step p t
    let (rest, t) := drain step queue t
    (kept.toList ++ rest, t)

/-- A channel that is to be closed; when that fails the entry stays as a close. -/
def closePending (lockTicks : Nat) (p : PendingChannel) (t : SSHTunnel rb W) : Option PendingChannel × SSHTunnel rb W :=
  let (closed, t) := t.closeAcceptedChannel session p.channel lockTicks
  (if closed then none else some { p with action := .close }, t)

/-- A close that is due, with less patience for the lock when it is late. -/
def retryClose (now : UInt32) (p : PendingChannel) (t : SSHTunnel rb W) : Option PendingChannel × SSHTunnel rb W :=
  t.closePending session (if closeRetryTimeoutMs < now - p.queuedAtMs then 100 else 200) p

/-- One round of `drainPendingQueue`. -/
def drainPendingStep (now : UInt32) (p : PendingChannel) (t : SSHTunnel rb W) : Option PendingChannel × SSHTunnel rb W :=
  if p.action = .close then t.retryClose session now p
  else if pendingTimeoutMs < now - p.queuedAtMs then t.closePending session 200 p
  else
    let (slot, t) := t.onChannels (ChannelManager.allocateSlot session.toNet)
    match slot with
    | none => (some p, t)
    | some slot =>
      match t.bindAcceptedChannel session slot p.channel p.mapping 200 with
      | (.bound, t) => (none, t.emit (.channelOpened slot))
      | (.lockUnavailable, t) => (some p, t)
      | (.failed, t) => t.closePending session 200 p

def drainPendingQueue (t : SSHTunnel rb W) : SSHTunnel rb W :=
  let (now, t) := t.onWorld session.millis
  let (kept, t) := drain (drainPendingStep session now) t.pendingQueue t
  { t with pendingQueue := kept }

/-- One round of `cleanExpiredPending`. -/
def cleanStep (now : UInt32) (p : PendingChannel) (t : SSHTunnel rb W) : Option PendingChannel × SSHTunnel rb W :=
  if p.action = .bind && pendingTimeoutMs < now - p.queuedAtMs then t.closePending session 200 p else (some p, t)

def cleanExpiredPending (t : SSHTunnel rb W) : SSHTunnel rb W :=
  let (now, t) := t.onWorld session.millis
  let (kept, t) := drain (cleanStep session now) t.pendingQueue t
  { t with pendingQueue := kept }

def drainDeferredCloseQueue (t : SSHTunnel rb W) : SSHTunnel rb W :=
  let (now, t) := t.onWorld session.millis
  let (kept, t) := drain (retryClose session now) t.deferredCloseQueue t
  { t with deferredCloseQueue := kept }

/-! ## The loop -/

/-- The socket check of `loop`, with whether the tunnel goes on. -/
def checkHealth (t : SSHTunnel rb W) : Bool × SSHTunnel rb W :=
  if session.checkConnection t.world then (true, { t with socketHealthFailures := 0 })
  else
    let t := { t with socketHealthFailures := t.socketHealthFailures + 1 }
    if 3 ≤ t.socketHealthFailures then (false, t.enterErrorState session) else (true, t)

/-- The keepalive of `loop`, with whether the tunnel goes on. -/
def keepAlive (t : SSHTunnel rb W) : Bool × SSHTunnel rb W :=
  let (now, t) := t.onWorld session.millis
  let interval := UInt32.ofNat (config.keepAliveIntervalSec * 1000)
  if 0 < config.keepAliveIntervalSec && interval ≤ now - t.lastKeepAlive then
    let (sent, t) := t.onWorld session.sendKeepalive
    if sent then (true, { t with lastKeepAlive := now }) else (false, t.enterErrorState session)
  else (true, t)

/-- `pumpAll` and the close events it recorded. -/
def pump (t : SSHTunnel rb W) : SSHTunnel rb W :=
  let (_, transport) := t.transport.pumpAll session.toNet
  let (closeEvents, transport) := transport.consumeCloseEvents maxCloseEvents
  closeEvents.foldl (fun t e => t.emit (.channelClosed e.1 e.2)) { t with transport := transport }

/-- The queues after the pump. -/
def drainQueues (t : SSHTunnel rb W) : SSHTunnel rb W :=
  let t := if t.pendingQueue.isEmpty then t else (t.cleanExpiredPending session).drainPendingQueue session
  if t.deferredCloseQueue.isEmpty then t else t.drainDeferredCloseQueue session

/-- `loop` of a tunnel that is connecting or connected. -/
def loopConnected (t : SSHTunnel rb W) : SSHTunnel rb W :=
  if !session.isConnected t.world then t.enterErrorState session
  else
    let (healthy, t) := t.checkHealth session
    if !healthy then t
    else
      let (alive, t) := t.keepAlive session config
      if !alive then t
      else
        let t := if t.deferredCloseQueue.isEmpty then t else t.drainDeferredCloseQueue session
        let t := t.acceptAll session (t.transport.channels.slots.length + 1)
        let t := t.pump session
        if t.transport.sessionDegraded then
          enterErrorState session { t with transport := { t.transport with sessionDegraded := false } }
        else t.drainQueues session

def loop (t : SSHTunnel rb W) : SSHTunnel rb W :=
  match t.state with
  | .error => t.handleReconnection session config
  | .disconnected => t
  | _ => t.loopConnected session config

end SSHTunnel

/-- A clock with the channels that will be accepted and what the other side will send on them. -/
structure Script where
  now : UInt32
  accepts : List (Channel × TunnelConfig)
  incoming : List (List UInt8)

/-- A session that follows a script and where nothing fails. -/
def Script.session : Session Script where
  millis w := (w.now, { w with now := w.now + 1 })
  lock _ w := (true, w)
  unlock w := w
  channelRead _ n w :=
    match w.incoming with
    | [] => (.again, w)
    | bytes :: rest =>
      if h : bytes ≠ [] ∧ bytes.length ≤ n then (.data bytes h.1 h.2, { w with incoming := rest }) else (.again, w)
  channelEof _ w := (false, w)
  channelWrite _ data w := if h : 0 < data.length then (.took data.length h le_rfl, w) else (.nothing, w)
  channelSendEof _ w := (0, w)
  channelClose _ w := (0, w)
  channelFree _ w := (0, w)
  connectToLocalEndpoint _ w := (some 7, w)
  send _ data w := if h : 0 < data.length then (.took data.length h le_rfl, w) else (.nothing, w)
  recv _ n w := if h : 5 ≤ n then (.data [104, 101, 108, 108, 111] (by simp) h, w) else (.again, w)
  shutdown _ w := w
  close _ w := w
  largestFreeBlock _ _ := 65536
  allocate _ w := (true, w)
  connect w := (true, w)
  disconnect w := w
  isConnected _ := true
  checkConnection _ := true
  sendKeepalive w := (true, w)
  acceptChannel w :=
    match w.accepts with
    | [] => (none, w)
    | accepted :: rest => (some accepted, { w with accepts := rest })
  hasFatalAcceptFailure _ := false

def Script.config : ConnectionConfig :=
  { keepAliveIntervalSec := 30, reconnectDelayMs := 5000, maxReconnectAttempts := 5, bufferSize := 4096, maxChannels := 2
    libssh2KeepAliveEnabled := true, libssh2KeepAliveIntervalSec := 30, tunnelRingBufferSize := 8192
    maxReverseListeners := 1 }

/-- One channel, with two bytes for the socket. -/
def Script.greeting : Script :=
  { now := 1, accepts := [(11, { remoteBindHost := [], remoteBindPort := 22, localHost := [], localPort := 22 })]
    incoming := [[104, 105]] }

end OrangeBox.Tunnel
