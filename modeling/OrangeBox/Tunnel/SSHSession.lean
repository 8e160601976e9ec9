import OrangeBox.Text
import OrangeBox.Tunnel.Fingerprint
import OrangeBox.Tunnel.SSHTunnel
/-!
# The SSH session

`SSHSession`: the connection with its host key, its credentials and its
listeners, over libssh2 and the network. A null pointer and a descriptor of -1
are `none`.
-/

namespace OrangeBox.Tunnel

/-- A session of libssh2. -/
abbrev Handle := Nat

abbrev Listener := Nat

abbrev Address := List UInt8

structure SSHServerConfig where
  host : List UInt8
  port : Int
  username : List UInt8
  password : List UInt8
  useSSHKey : Bool
  privateKeyPath : List UInt8
  privateKeyData : List UInt8
  publicKeyData : List UInt8
  verifyHostKey : Bool
  expectedHostKeyFingerprint : List UInt8
  hostKeyType : List UInt8

structure SSHConfiguration where
  sshConfig : SSHServerConfig
  tunnelMappings : List TunnelConfig
  connectionConfig : ConnectionConfig

/-- What the session calls. -/
structure Libssh2 (W : Type) where
  millis : W → UInt32 × W
  vTaskDelay : W → W
  /-- The mutex of the session, by the ticks to wait. -/
  lock : Nat → W → Bool × W
  unlock : W → W
  lockConfig : W → Bool × W
  unlockConfig : W → W
  socket : W → Option Socket × W
  optimizeSSHSocket : Option Socket → W → W
  inetPton : List UInt8 → Option Address
  getaddrinfo : List UInt8 → W → Option Address × W
  connect : Option Socket → Address → (port : Nat) → W → Bool × W
  close : Option Socket → W → W
  /-- Whether the socket has no pending error. -/
  getsockopt : Option Socket → W → Bool × W
  sessionInit : W → Option Handle × W
  sessionHandshake : Option Handle → Option Socket → W → Bool × W
  keepaliveConfig : Option Handle → (interval : Int) → W → W
  /-- The length and the type of the key of the host. -/
  sessionHostkey : Option Handle → W → Option (Nat × Int) × W
  hostkeyHash : Option Handle → W → Option (List UInt8) × W
  userauthList : Option Handle → (username : List UInt8) → W → Bool × W
  userauthPassword : Option Handle → (username password : List UInt8) → W → Bool × W
  userauthPublickeyFrommemory :
    Option Handle → (username publicKey privateKey : List UInt8) → (passphrase : Option (List UInt8)) → W → Bool × W
  userauthPublickeyFromfile : Option Handle → (username publicKey privateKey passphrase : List UInt8) → W → Bool × W
  sessionSetBlocking : Option Handle → Bool → W → W
  /-- The listener with its port. -/
  forwardListenEx : Option Handle → (host : List UInt8) → (port : Int) → (maxlisten : Nat) → W → Option (Listener × Int) × W
  forwardAccept : Option Listener → W → Option Channel × W
  sessionLastErrno : Option Handle → W → Int × W
  /-- Its text is only logged. -/
  sessionLastError : Option Handle → W → W
  forwardCancel : Option Listener → W → W
  keepaliveSend : Option Handle → W → Int × W
  sessionDisconnect : Option Handle → W → W
  sessionFree : Option Handle → W → W

structure ListenerEntry where
  listener : Option Listener
  mapping : TunnelConfig
  boundPort : Int

inductive ConnectFailure where
  | none
  | tcp
  | handshake
  | hostKey
  | auth
  | reverseListener

structure SSHSession (W : Type) where
  session : Option Handle
  socketfd : Option Socket
  config : Option SSHConfiguration
  listeners : List ListenerEntry
  boundPort : Int
  lastConnectFailure : ConnectFailure
  keepAliveFailures : Nat
  lastAcceptError : Int
  consecutiveFatalAcceptErrors : Nat
  lastAcceptMs : UInt32
  totalAccepts : Nat
  world : W

/-- `LIBSSH2_ERROR_SOCKET_SEND`. -/
def errorSocketSend : Int := -7

/-- `LIBSSH2_ERROR_SOCKET_DISCONNECT`. -/
def errorSocketDisconnect : Int := -13

/-- `LIBSSH2_ERROR_CHANNEL_UNKNOWN`. -/
def errorChannelUnknown : Int := -23

/-- `LIBSSH2_ERROR_CHANNEL_CLOSED`. -/
def errorChannelClosed : Int := -26

def isFatalAcceptError (err : Int) : Bool :=
  !(err = 0 || err = errorEagain) &&
    (err = errorChannelUnknown || err = errorChannelClosed || err = errorSocketSend || err = errorSocketDisconnect)

/-- The name of a type of key. -/
def keyTypeStr (hostKeyType : Int) : List UInt8 :=
  if hostKeyType = 1 then literal "ssh-rsa"
  else if hostKeyType = 2 then literal "ssh-dss"
  else if hostKeyType = 3 then literal "ecdsa-sha2-nistp256"
  else if hostKeyType = 4 then literal "ecdsa-sha2-nistp384"
  else if hostKeyType = 5 then literal "ecdsa-sha2-nistp521"
  else if hostKeyType = 6 then literal "ssh-ed25519"
  else literal "unknown"

/-- What `verifyHostKey` says to the key and its hash. -/
def hostKeyAccepted (sshConfig : SSHServerConfig) (key : Option (Nat × Int)) (hash : Option (List UInt8)) : Bool :=
  match key, hash with
  | some (length, type), some hash =>
    if length = 0 then false
    else if sshConfig.hostKeyType ≠ [] && sshConfig.hostKeyType ≠ keyTypeStr type then false
    else if sshConfig.expectedHostKeyFingerprint = [] then true
    else fingerprintsMatch sshConfig.expectedHostKeyFingerprint hash
  | _, _ => false

/-- `validateSSHKeys` without its lock. -/
def SSHServerConfig.keysValid (sshConfig : SSHServerConfig) : Bool :=
  sshConfig.privateKeyData ≠ [] && sshConfig.privateKeyData.tails.any (literal "-----BEGIN").isPrefixOf &&
    sshConfig.privateKeyData.tails.any (literal "-----END").isPrefixOf && sshConfig.publicKeyData ≠ [] &&
    ((literal "ssh-").isPrefixOf sshConfig.publicKeyData || (literal "ecdsa-").isPrefixOf sshConfig.publicKeyData)

/-- The passphrases that are tried. -/
def SSHServerConfig.passphrases (sshConfig : SSHServerConfig) : List (Option (List UInt8)) :=
  [if sshConfig.password ≠ [] then some sshConfig.password else none, some [], none]

namespace SSHSession

variable {W : Type} (lib : Libssh2 W)

def init (w : W) : SSHSession W :=
  { session := none, socketfd := none, config := none, listeners := [], boundPort := -1, lastConnectFailure := .none
    keepAliveFailures := 0, lastAcceptError := 0, consecutiveFatalAcceptErrors := 0, lastAcceptMs := 0
    totalAccepts := 0, world := w }

/-- A call with a result. -/
def ask {A : Type} (f : W → A × W) (s : SSHSession W) : A × SSHSession W :=
  ((f s.world).1, { s with world := (f s.world).2 })

/-- A call without one. -/
def tell (f : W → W) (s : SSHSession W) : SSHSession W := { s with world := f s.world }

/-- A call under the mutex, when it can be had. -/
def locked {A : Type} (ticks : Nat) (f : W → A × W) (s : SSHSession W) : Option A × SSHSession W :=
  match s.ask (lib.lock ticks) with
  | (false, s) => (none, s)
  | (true, s) =>
    let (a, s) := s.ask f
    (some a, s.tell lib.unlock)

/-! ## The connection -/

def resetAcceptState (s : SSHSession W) : SSHSession W :=
  { s with lastAcceptError := 0, consecutiveFatalAcceptErrors := 0, lastAcceptMs := 0, totalAccepts := 0 }

def closeSocket (s : SSHSession W) : SSHSession W := { s.tell (lib.close s.socketfd) with socketfd := none }

/-- The address of `inet_pton`, or of `getaddrinfo`. -/
def resolve (host : List UInt8) (s : SSHSession W) : Option Address × SSHSession W :=
  match lib.inetPton host with
  | some address => (some address, s)
  | none => s.ask (lib.getaddrinfo host)

def tcpConnect (sshConfig : SSHServerConfig) (s : SSHSession W) : Bool × SSHSession W :=
  let (socketfd, s) := s.ask lib.socket
  let s := { s with socketfd := socketfd }
  if s.socketfd = none then (false, s)
  else
    let s := s.tell (lib.optimizeSSHSocket s.socketfd)
    match s.resolve lib sshConfig.host with
    | (none, s) => (false, s.closeSocket lib)
    | (some address, s) =>
      match s.ask (lib.connect s.socketfd address (sshConfig.port % 65536).toNat) with
      | (false, s) => (false, s.closeSocket lib)
      | (true, s) => (true, s)

/-- The end of a session whose handshake failed. -/
def freeSession (s : SSHSession W) : SSHSession W := { s.tell (lib.sessionFree s.session) with session := none }

def handshake (s : SSHSession W) : Bool × SSHSession W :=
  let (session, s) := s.ask lib.sessionInit
  let s := { s with session := session }
  if s.session = none then (false, s)
  else
    match s.ask (lib.lock 5000) with
    | (false, s) => (false, s.freeSession lib)
    | (true, s) =>
      match s.ask (lib.sessionHandshake s.session s.socketfd) with
      | (false, s) => (false, (s.freeSession lib).tell lib.unlock)
      | (true, s) => (true, s.tell lib.unlock)

def configureKeepalive (connConfig : ConnectionConfig) (s : SSHSession W) : SSHSession W :=
  if !connConfig.libssh2KeepAliveEnabled then s
  else
    (s.locked lib 200 fun w => ((), lib.keepaliveConfig s.session connConfig.libssh2KeepAliveIntervalSec w)).2

def verifyHostKey (sshConfig : SSHServerConfig) (s : SSHSession W) : Bool × SSHSession W :=
  if !sshConfig.verifyHostKey then (true, s)
  else
    match s.ask (lib.lock 200) with
    | (false, s) => (false, s)
    | (true, s) =>
      let (key, s) := s.ask (lib.sessionHostkey s.session)
      let (hash, s) := s.ask (lib.hostkeyHash s.session)
      (hostKeyAccepted sshConfig key hash, s.tell lib.unlock)

def validateSSHKeys (sshConfig : SSHServerConfig) (s : SSHSession W) : Bool × SSHSession W :=
  match s.ask lib.lockConfig with
  | (false, s) => (false, s)
  | (true, s) => (sshConfig.keysValid, s.tell lib.unlockConfig)

/-- The attempts with the keys in memory. -/
def tryPassphrases (sshConfig : SSHServerConfig) (passphrases : List (Option (List UInt8))) (s : SSHSession W) :
    Bool × SSHSession W :=
  match passphrases with
  | [] => (false, s)
  | passphrase :: passphrases =>
    match s.locked lib 1000 (lib.userauthPublickeyFrommemory s.session sshConfig.username sshConfig.publicKeyData
      sshConfig.privateKeyData passphrase) with
    | (none, s) => (false, s)
    | (some true, s) => (true, s)
    | (some false, s) => tryPassphrases sshConfig passphrases s

/-- The credentials, once the methods are known. -/
def sendCredentials (sshConfig : SSHServerConfig) (s : SSHSession W) : Bool × SSHSession W :=
  if !sshConfig.useSSHKey then
    let (authenticated, s) := s.locked lib 1000 (lib.userauthPassword s.session sshConfig.username sshConfig.password)
    (authenticated = some true, s)
  else if sshConfig.privateKeyData ≠ [] && sshConfig.publicKeyData ≠ [] then
    match s.validateSSHKeys lib sshConfig with
    | (false, s) => (false, s)
    | (true, s) => s.tryPassphrases lib sshConfig sshConfig.passphrases
  else
    let (authenticated, s) := s.locked lib 1000 (lib.userauthPublickeyFromfile s.session sshConfig.username
      (sshConfig.privateKeyPath ++ literal ".pub") sshConfig.privateKeyPath sshConfig.password)
    (authenticated = some true, s)

def authenticate (sshConfig : SSHServerConfig) (s : SSHSession W) : Bool × SSHSession W :=
  match s.locked lib 500 (lib.userauthList s.session sshConfig.username) with
  | (none, s) => (false, s)
  | (some false, s) => (false, (s.locked lib 200 fun w => ((), lib.sessionLastError s.session w)).2)
  | (some true, s) => s.sendCredentials lib sshConfig

/-! ## The listeners -/

/-- The attempts at a listener. -/
def listen (mapping : TunnelConfig) (maxlisten attempts : Nat) (s : SSHSession W) : Option (Listener × Int) × SSHSession W :=
  match attempts with
  | 0 => (none, s)
  | attempts + 1 =>
    match s.locked lib 500 (lib.forwardListenEx s.session mapping.remoteBindHost mapping.remoteBindPort maxlisten) with
    | (some (some handle), s) => (some handle, s)
    | (_, s) => listen mapping maxlisten attempts (s.tell lib.vTaskDelay)

def maxlisten (s : SSHSession W) : Nat :=
  match s.config with
  | some config => max 1 config.connectionConfig.maxChannels
  | none => 8

/-- The listener of a mapping, or none. -/
def createListenerForMapping (mapping : TunnelConfig) (s : SSHSession W) : Option ListenerEntry × SSHSession W :=
  match s.listen lib mapping s.maxlisten 50 with
  | (none, s) => (none, (s.locked lib 100 fun w => ((), lib.sessionLastError s.session w)).2)
  | (some (handle, boundPort), s) =>
    let entry := { listener := some handle, mapping := mapping, boundPort := boundPort }
    if s.lastAcceptMs = 0 then
      let (now, s) := s.ask lib.millis
      (some entry, { s with lastAcceptMs := now })
    else (some entry, s)

/-- The listener is forgotten even if it could not be cancelled. -/
def cancelListener (entry : ListenerEntry) (s : SSHSession W) : SSHSession W :=
  if entry.listener = none then s else (s.locked lib 500 fun w => ((), lib.forwardCancel entry.listener w)).2

def cancelAllListeners (s : SSHSession W) : SSHSession W :=
  { s.listeners.foldl (fun s entry => s.cancelListener lib entry) s with listeners := [], boundPort := -1 }

/-- The loop of `createListeners`. -/
def createAll (mappings : List TunnelConfig) (s : SSHSession W) : Bool × SSHSession W :=
  match mappings with
  | [] => (true, s)
  | mapping :: mappings =>
    match s.createListenerForMapping lib mapping with
    | (none, s) => (false, s.cancelAllListeners lib)
    | (some entry, s) =>
      createAll mappings
        { s with
          listeners := s.listeners ++ [entry]
          boundPort := if s.boundPort < 0 then entry.boundPort else s.boundPort }

def createListeners (config : SSHConfiguration) (s : SSHSession W) : Bool × SSHSession W :=
  let s := { s.cancelAllListeners lib with boundPort := -1 }
  if config.tunnelMappings = [] then (false, s)
  else
    let desired := min config.connectionConfig.maxReverseListeners config.tunnelMappings.length
    if desired ≤ 0 then (false, s)
    else
      let (created, s) := s.createAll lib (config.tunnelMappings.take desired.toNat)
      (created && !s.listeners.isEmpty, s)

/-! ## Connecting and disconnecting -/

/-- The session is freed even without the mutex. -/
def endSession (s : SSHSession W) : SSHSession W :=
  if s.session = none then s
  else
    match s.ask (lib.lock 2000) with
    | (true, s) => ((s.tell (lib.sessionDisconnect s.session)).freeSession lib).tell lib.unlock
    | (false, s) => (s.tell (lib.sessionDisconnect s.session)).freeSession lib

def cleanupSession (s : SSHSession W) : SSHSession W :=
  let s := (s.cancelAllListeners lib).endSession lib
  let s := if s.socketfd = none then s else s.closeSocket lib
  { s with keepAliveFailures := 0 }.resetAcceptState

/-- An attempt that failed. -/
def failed (why : ConnectFailure) (s : SSHSession W) : Bool × SSHSession W :=
  (false, { s with lastConnectFailure := why }.cleanupSession lib)

def connect (config : SSHConfiguration) (s : SSHSession W) : Bool × SSHSession W :=
  let s := { s with config := some config, lastConnectFailure := .none }.resetAcceptState
  let s := if s.session = none then s else s.cleanupSession lib
  match s.tcpConnect lib config.sshConfig with
  | (false, s) => (false, { s with lastConnectFailure := .tcp })
  | (true, s) =>
    match s.handshake lib with
    | (false, s) => s.failed lib .handshake
    | (true, s) =>
      match (s.configureKeepalive lib config.connectionConfig).verifyHostKey lib config.sshConfig with
      | (false, s) => s.failed lib .hostKey
      | (true, s) =>
        match s.authenticate lib config.sshConfig with
        | (false, s) => s.failed lib .auth
        | (true, s) =>
          match s.createListeners lib config with
          | (false, s) => s.failed lib .reverseListener
          | (true, s) => (true, s.tell (lib.sessionSetBlocking s.session false))

def disconnect (s : SSHSession W) : SSHSession W := (s.cancelAllListeners lib).cleanupSession lib

def isConnected (s : SSHSession W) : Bool := s.session.isSome && s.socketfd.isSome

def checkConnection (s : SSHSession W) : Bool × SSHSession W :=
  if s.session = none || s.socketfd = none then (false, s) else s.ask (lib.getsockopt s.socketfd)

/-! ## Keepalive and channels -/

/-- Reading the pending error takes it from the socket. -/
def sendKeepalive (s : SSHSession W) : Bool × SSHSession W :=
  if s.session = none then (false, s)
  else
    match s.locked lib 200 (lib.keepaliveSend s.session) with
    | (none, s) => (true, s)
    | (some rc, s) =>
      if rc = 0 then (true, { s with keepAliveFailures := 0 })
      else
        let s := if s.socketfd = none then s else (s.ask (lib.getsockopt s.socketfd)).2
        if rc = errorSocketSend then
          let s := { s with keepAliveFailures := s.keepAliveFailures + 1 }
          if 3 ≤ s.keepAliveFailures then (false, { s with keepAliveFailures := 0 }) else (true, s)
        else if rc ≠ errorEagain then (true, { s with keepAliveFailures := 0 })
        else (true, s)

def recordAcceptSuccess (s : SSHSession W) : SSHSession W :=
  let (now, s) := s.ask lib.millis
  { s with lastAcceptError := 0, consecutiveFatalAcceptErrors := 0, lastAcceptMs := now, totalAccepts := s.totalAccepts + 1 }

def recordAcceptNoChannel (err : Int) (s : SSHSession W) : SSHSession W :=
  { s with
    lastAcceptError := err
    consecutiveFatalAcceptErrors := if isFatalAcceptError err then s.consecutiveFatalAcceptErrors + 1 else 0 }

def hasFatalAcceptFailure (s : SSHSession W) : Bool :=
  3 ≤ s.consecutiveFatalAcceptErrors && isFatalAcceptError s.lastAcceptError

/-- The loop of `acceptChannel`. -/
def acceptFrom (entries : List ListenerEntry) (s : SSHSession W) : Option (Channel × TunnelConfig) × SSHSession W :=
  match entries with
  | [] => (none, s)
  | entry :: entries =>
    if entry.listener = none then acceptFrom entries s
    else
      match s.ask (lib.lock 50) with
      | (false, s) => acceptFrom entries s
      | (true, s) =>
        match s.ask (lib.forwardAccept entry.listener) with
        | (some channel, s) => (some (channel, entry.mapping), (s.tell lib.unlock).recordAcceptSuccess lib)
        | (none, s) =>
          let (acceptErr, s) := s.ask (lib.sessionLastErrno s.session)
          acceptFrom entries ((s.tell lib.unlock).recordAcceptNoChannel acceptErr)

def acceptChannel (s : SSHSession W) : Option (Channel × TunnelConfig) × SSHSession W :=
  if s.session = none || s.listeners.isEmpty then (none, s) else s.acceptFrom lib s.listeners

end SSHSession

end OrangeBox.Tunnel
