import OrangeBox.Lib.Run
import OrangeBox.Timeout
/-!
# The VPN manager

`VPNManager` is used by two tasks. The one that drives the box posts commands
into a queue of one, and stores a state; the worker takes them, and connects the
tunnel. A step has one access at most to what they share, the queue and the
state, so the runs are all interleavings.
-/

namespace OrangeBox.Vpn

open Clock Runs

inductive VPNAuthMode where
  | password
  | publicKey
deriving DecidableEq

inductive VPNConnectionState where
  | unconfigured
  | disconnected
  | connecting
  | connected
  | staleRemoteListener
  | error
  | backendUnavailable
  | configInvalid
deriving DecidableEq

structure VPNTunnelMapping where
  remoteBindHost : List UInt8
  remoteBindPort : UInt16
  localHost : List UInt8
  localPort : UInt16
deriving DecidableEq

/-- A pointer that is null is read as a text that is empty. -/
structure VPNConfig where
  sshHost : List UInt8
  sshPort : UInt16
  username : List UInt8
  authMode : VPNAuthMode
  password : List UInt8
  privateKey : List UInt8
  publicKey : List UInt8
  keyPassphrase : List UInt8
  verifyHostKey : Bool
  hostKeyFingerprint : List UInt8
  hostKeyType : List UInt8
  tunnel : VPNTunnelMapping
  keepAliveIntervalSec : UInt16
  reconnectDelayMs : UInt32
  staleRemoteListenerCooldownMs : UInt32
  maxReconnectAttempts : UInt8
  connectionTimeoutSec : UInt16
  bufferSize : UInt16
  maxChannels : UInt8
  tunnelRingBufferSize : Nat
deriving DecidableEq

def isConfigValid (vpnConfig : VPNConfig) : Bool :=
  if vpnConfig.sshHost = [] || vpnConfig.sshPort = 0 || vpnConfig.username = []
      || vpnConfig.tunnel.remoteBindHost = [] || vpnConfig.tunnel.remoteBindPort = 0
      || vpnConfig.tunnel.localHost = [] || vpnConfig.tunnel.localPort = 0
      || vpnConfig.keepAliveIntervalSec = 0 || vpnConfig.reconnectDelayMs = 0
      || vpnConfig.staleRemoteListenerCooldownMs = 0 || vpnConfig.maxReconnectAttempts = 0
      || vpnConfig.connectionTimeoutSec = 0 || vpnConfig.bufferSize = 0 || vpnConfig.maxChannels = 0
      || vpnConfig.tunnelRingBufferSize = 0 then false
  else if vpnConfig.verifyHostKey && vpnConfig.hostKeyFingerprint = [] then false
  else
    match vpnConfig.authMode with
    | .password => vpnConfig.password ≠ []
    | .publicKey => vpnConfig.privateKey ≠ [] && vpnConfig.publicKey ≠ []

inductive Command where
  | configure (config : VPNConfig)
  | disconnect
deriving DecidableEq

/-- The tunnel with its configuration. -/
structure Backend (T : Type) where
  applyConfig : VPNConfig → T → Bool × T
  init : T → Bool × T
  connectSSH : T → Bool × T
  disconnect : T → T
  loop : T → T
  isConnected : T → Bool
  lastConnectFailureWasReverseListener : T → Bool
  getBoundPort : T → Int

/-- Where the worker is. -/
inductive Place where
  /-- `xQueueReceive`. -/
  | receive
  /-- `disconnectInternal`, for a command that was taken. -/
  | disconnecting (command : Command)
  | applying (command : Command)
  | check
  /-- `updateInternal`. -/
  | update
  /-- The reads of the state, with the time of `updateInternal`. -/
  | isDisconnected (now : UInt32)
  | isError (now : UInt32)
  | isStale (now : UInt32)
  | mayAttempt (now : UInt32)
  /-- `connectInternal`. -/
  | attempt
  | announce
  | connecting
  | succeed
  /-- `scheduleReconnect`. -/
  | fail (state : VPNConnectionState) (delay : UInt32)
  | schedule (delay : UInt32)
  | isConnected
  | looping
  | alive
  | bound
  | delay
deriving DecidableEq

/-- What a step of the worker did that others may see. -/
inductive Act where
  | took (command : Command)
  | connectSSH
  | scheduled (delay : UInt32)
  | none
deriving DecidableEq

structure VPNManager (T : Type) where
  commandQueue : Option Command
  /-- There are a queue and a worker. -/
  started : Bool
  state : VPNConnectionState
  /-- What `begin` is about to put into the queue. -/
  posting : Option VPNConfig
  /-- What the caller is about to store. -/
  storing : Option VPNConnectionState
  config : VPNConfig
  configured : Bool
  initialized : Bool
  reconnectStartedAt : UInt32
  reconnectDelayMs : UInt32
  boundPort : Int
  client : T
  place : Place
  /-- The milliseconds since the start. -/
  now : Nat
deriving DecidableEq

inductive Event where
  | tick (ms : Nat)
  /-- `startWorker` in `begin`. -/
  | start (vpnConfig : VPNConfig)
  /-- `begin` or `disconnect` overwrites the queue. -/
  | post (command : Command)
  /-- And stores the state. -/
  | store
  /-- `begin` has failed, or there was nothing to disconnect. -/
  | refuse (state : VPNConnectionState)
  | work (act : Act)
deriving DecidableEq

namespace VPNManager

variable {T : Type} (backend : Backend T)

def init (config : VPNConfig) (client : T) : VPNManager T :=
  { commandQueue := none, started := false, state := .unconfigured, posting := none, storing := none, config := config, configured := false
    initialized := false, reconnectStartedAt := 0, reconnectDelayMs := 0, boundPort := 0, client := client
    place := .receive, now := 0 }

def canAttemptConnect (now : UInt32) (m : VPNManager T) : Bool := timeoutElapsed m.reconnectStartedAt m.reconnectDelayMs now

/-- The state after a failure, and how long to wait. -/
def failure (m : VPNManager T) : Place :=
  if backend.lastConnectFailureWasReverseListener m.client then
    .fail .staleRemoteListener m.config.staleRemoteListenerCooldownMs
  else .fail .error m.config.reconnectDelayMs

/-- A step of the worker. -/
def work (m : VPNManager T) : Act × VPNManager T :=
  match m.place with
  | .receive =>
    match m.commandQueue with
    | some command => (.took command, { m with commandQueue := none, place := .disconnecting command })
    | none => (.none, { m with place := .check })
  | .disconnecting command =>
    (.none,
      { m with
        client := backend.disconnect m.client
        state := if m.configured then .disconnected else .unconfigured
        reconnectDelayMs := 0, boundPort := 0, place := .applying command })
  | .applying .disconnect => (.none, { m with configured := false, state := .unconfigured, place := .receive })
  | .applying (.configure config) =>
    let (configured, client) := backend.applyConfig config m.client
    (.none,
      { m with
        client := client, config := config, initialized := false, reconnectDelayMs := 0, configured := configured
        state := if configured then .disconnected else .configInvalid
        place := .receive })
  | .check => (.none, { m with place := if m.configured then .update else .delay })
  | .update =>
    (.none, { m with place := if m.initialized then .isDisconnected (stamp m.now) else .mayAttempt (stamp m.now) })
  | .isDisconnected now =>
    (.none, { m with place := if m.state = .disconnected then .mayAttempt now else .isError now })
  | .isError now => (.none, { m with place := if m.state = .error then .mayAttempt now else .isStale now })
  | .isStale now =>
    (.none, { m with place := if m.state = .staleRemoteListener then .mayAttempt now else .isConnected })
  | .mayAttempt now => (.none, { m with place := if m.canAttemptConnect now then .attempt else .bound })
  | .attempt =>
    if !m.canAttemptConnect (stamp m.now) then (.none, { m with place := .bound })
    else if backend.isConnected m.client then (.none, { m with place := .succeed })
    else if m.initialized then (.none, { m with place := .announce })
    else
      let (initialized, client) := backend.init m.client
      (.none,
        { m with
          client := client, initialized := initialized
          place := if initialized then .announce else .fail .error m.config.reconnectDelayMs })
  | .announce => (.none, { m with state := .connecting, place := .connecting })
  | .connecting =>
    let (connected, client) := backend.connectSSH m.client
    let m := { m with client := client }
    (.connectSSH, { m with place := if connected then .succeed else m.failure backend })
  | .succeed => (.none, { m with state := .connected, reconnectDelayMs := 0, place := .bound })
  | .fail state delay => (.none, { m with state := state, place := .schedule delay })
  | .schedule delay =>
    (.scheduled delay, { m with reconnectStartedAt := stamp m.now, reconnectDelayMs := delay, place := .bound })
  | .isConnected =>
    (.none, { m with place := if m.state = .connected || backend.isConnected m.client then .looping else .bound })
  | .looping =>
    let m := { m with client := backend.loop m.client }
    (.none, { m with place := if backend.isConnected m.client then .alive else m.failure backend })
  | .alive => (.none, { m with state := .connected, place := .bound })
  | .bound =>
    (.none,
      { m with
        boundPort := if m.state = .connected then backend.getBoundPort m.client else m.boundPort
        place := .delay })
  | .delay => (.none, { m with place := .receive })

/-! ## Runs -/

/-- The commands that `begin`, once there is a worker, and `disconnect` post. -/
inductive Posts (m : VPNManager T) : Command → Prop
  | begin {vpnConfig : VPNConfig} (h : m.posting = some vpnConfig) : Posts m (.configure vpnConfig)
  | disconnect (h : m.started = true) (hidle : m.posting = none) : Posts m .disconnect

/-- The ends of `begin` and `disconnect` without a command. -/
inductive Refuses (m : VPNManager T) : VPNConnectionState → Prop
  | configInvalid {vpnConfig : VPNConfig} (h : isConfigValid vpnConfig = false) : Refuses m .configInvalid
  /-- `startWorker` fails. -/
  | error (h : m.started = false) : Refuses m .error
  | unconfigured (h : m.started = false) : Refuses m .unconfigured

def Step (m : VPNManager T) : Event → VPNManager T → Prop
  | .tick ms, m' => m' = { m with now := m.now + ms }
  | .start vpnConfig, m' =>
    m.posting = none ∧ m.storing = none ∧ isConfigValid vpnConfig = true ∧
      m' = { m with started := true, posting := some vpnConfig }
  | .post command, m' =>
    m.storing = none ∧ m.Posts command ∧
      m' = { m with commandQueue := some command, posting := none, storing := some .disconnected }
  | .store, m' => ∃ state ∈ m.storing, m' = { m with state := state, storing := none }
  | .refuse state, m' => m.posting = none ∧ m.storing = none ∧ m.Refuses state ∧ m' = { m with state := state }
  | .work act, m' => m.started = true ∧ m.work backend = (act, m')

end VPNManager

end OrangeBox.Vpn
