import OrangeBox.Lib.Run
import OrangeBox.Tunnel.SSHSession
/-!
# The calls of a session

A `Watch` reads the calls of an `SSHSession` and says which of them are in
order: credentials go only to a host whose key was accepted, listeners are asked
for only after them, and sockets, sessions and listeners are used while they
live. The calls of every run are in order.
-/

namespace OrangeBox.Tunnel

open Runs

/-! ## The calls -/

/-- A call with its arguments and its result. -/
inductive SSHCall where
  /-- The configuration that the next connection is for. -/
  | connecting (sshConfig : SSHServerConfig)
  | locked
  | unlocked
  | socket (fd : Option Socket)
  | optimizeSSHSocket (fd : Option Socket)
  | connect (fd : Option Socket) (done : Bool)
  | close (fd : Option Socket)
  | getsockopt (fd : Option Socket)
  | sessionInit (session : Option Handle)
  | sessionHandshake (session : Option Handle) (fd : Option Socket) (done : Bool)
  | keepaliveConfig (session : Option Handle)
  | sessionHostkey (session : Option Handle) (key : Option (Nat × Int))
  | hostkeyHash (session : Option Handle) (hash : Option (List UInt8))
  | userauthList (session : Option Handle)
  /-- A password or a key. -/
  | userauth (session : Option Handle) (done : Bool)
  | sessionSetBlocking (session : Option Handle)
  | forwardListen (session : Option Handle) (listener : Option Listener)
  | forwardAccept (listener : Option Listener)
  | sessionLastErrno (session : Option Handle)
  | sessionLastError (session : Option Handle)
  | forwardCancel (listener : Option Listener)
  | keepaliveSend (session : Option Handle)
  | sessionDisconnect (session : Option Handle)
  | sessionFree (session : Option Handle)

/-- A world that keeps the calls. -/
abbrev Logged (W : Type) := W × List SSHCall

namespace Logged

variable {W A : Type}

def ask (calls : A → List SSHCall) (f : W → A × W) (w : Logged W) : A × Logged W :=
  ((f w.1).1, (f w.1).2, w.2 ++ calls (f w.1).1)

def tell (calls : List SSHCall) (f : W → W) (w : Logged W) : Logged W := (f w.1, w.2 ++ calls)

end Logged

/-- The same calls, kept. -/
def Libssh2.logged {W : Type} (lib : Libssh2 W) : Libssh2 (Logged W) where
  millis := Logged.ask (fun _ => []) lib.millis
  vTaskDelay := Logged.tell [] lib.vTaskDelay
  lock ticks := Logged.ask (fun taken => if taken then [.locked] else []) (lib.lock ticks)
  unlock := Logged.tell [.unlocked] lib.unlock
  lockConfig := Logged.ask (fun _ => []) lib.lockConfig
  unlockConfig := Logged.tell [] lib.unlockConfig
  socket := Logged.ask (fun fd => [.socket fd]) lib.socket
  optimizeSSHSocket fd := Logged.tell [.optimizeSSHSocket fd] (lib.optimizeSSHSocket fd)
  inetPton := lib.inetPton
  getaddrinfo host := Logged.ask (fun _ => []) (lib.getaddrinfo host)
  connect fd address port := Logged.ask (fun done => [.connect fd done]) (lib.connect fd address port)
  close fd := Logged.tell [.close fd] (lib.close fd)
  getsockopt fd := Logged.ask (fun _ => [.getsockopt fd]) (lib.getsockopt fd)
  sessionInit := Logged.ask (fun session => [.sessionInit session]) lib.sessionInit
  sessionHandshake session fd :=
    Logged.ask (fun done => [.sessionHandshake session fd done]) (lib.sessionHandshake session fd)
  keepaliveConfig session interval := Logged.tell [.keepaliveConfig session] (lib.keepaliveConfig session interval)
  sessionHostkey session := Logged.ask (fun key => [.sessionHostkey session key]) (lib.sessionHostkey session)
  hostkeyHash session := Logged.ask (fun hash => [.hostkeyHash session hash]) (lib.hostkeyHash session)
  userauthList session username := Logged.ask (fun _ => [.userauthList session]) (lib.userauthList session username)
  userauthPassword session username password :=
    Logged.ask (fun done => [.userauth session done]) (lib.userauthPassword session username password)
  userauthPublickeyFrommemory session username publicKey privateKey passphrase :=
    Logged.ask (fun done => [.userauth session done])
      (lib.userauthPublickeyFrommemory session username publicKey privateKey passphrase)
  userauthPublickeyFromfile session username publicKey privateKey passphrase :=
    Logged.ask (fun done => [.userauth session done])
      (lib.userauthPublickeyFromfile session username publicKey privateKey passphrase)
  sessionSetBlocking session blocking := Logged.tell [.sessionSetBlocking session] (lib.sessionSetBlocking session blocking)
  forwardListenEx session host port maxlisten :=
    Logged.ask (fun result => [.forwardListen session (result.map (·.1))]) (lib.forwardListenEx session host port maxlisten)
  forwardAccept listener := Logged.ask (fun _ => [.forwardAccept listener]) (lib.forwardAccept listener)
  sessionLastErrno session := Logged.ask (fun _ => [.sessionLastErrno session]) (lib.sessionLastErrno session)
  sessionLastError session := Logged.tell [.sessionLastError session] (lib.sessionLastError session)
  forwardCancel listener := Logged.tell [.forwardCancel listener] (lib.forwardCancel listener)
  keepaliveSend session := Logged.ask (fun _ => [.keepaliveSend session]) (lib.keepaliveSend session)
  sessionDisconnect session := Logged.tell [.sessionDisconnect session] (lib.sessionDisconnect session)
  sessionFree session := Logged.tell [.sessionFree session] (lib.sessionFree session)

/-! ## Calls in order -/

/-- What the calls so far have left. -/
structure Watch where
  sshConfig : Option SSHServerConfig
  held : Bool
  socket : Option Socket
  connected : Bool
  session : Option Handle
  shaken : Bool
  key : Option (Nat × Int)
  hash : Option (List UInt8)
  authenticated : Bool
  listeners : List Listener

namespace Watch

def start : Watch :=
  { sshConfig := none, held := false, socket := none, connected := false, session := none, shaken := false, key := none
    hash := none, authenticated := false, listeners := [] }

/-- The key that the host showed is accepted, if it is to be verified. -/
def Trusted (m : Watch) : Prop :=
  ∃ sshConfig ∈ m.sshConfig, sshConfig.verifyHostKey → hostKeyAccepted sshConfig m.key m.hash

/-- The session has its keys, and the mutex is held. -/
def Live (m : Watch) (session : Option Handle) : Prop :=
  m.held ∧ session.isSome ∧ m.session = session ∧ m.shaken

def Allows (m : Watch) : SSHCall → Prop
  | .connecting _ => m.held = false
  | .locked => m.held = false
  | .unlocked => m.held
  | .socket _ => m.socket = none ∧ m.session = none
  | .optimizeSSHSocket fd => fd.isSome ∧ m.socket = fd ∧ m.connected = false
  | .connect fd _ => fd.isSome ∧ m.socket = fd ∧ m.connected = false
  | .close fd => fd.isSome ∧ m.socket = fd ∧ m.session = none
  | .getsockopt fd => fd.isSome ∧ m.socket = fd
  | .sessionInit _ => m.session = none ∧ m.connected
  | .sessionHandshake session fd _ =>
    m.held ∧ session.isSome ∧ m.session = session ∧ m.socket = fd ∧ m.connected ∧ m.shaken = false
  | .keepaliveConfig session => m.Live session
  | .sessionHostkey session _ => m.Live session
  | .hostkeyHash session _ => m.Live session
  | .userauthList session => m.Live session ∧ m.Trusted
  | .userauth session _ => m.Live session ∧ m.Trusted ∧ m.authenticated = false
  | .sessionSetBlocking session => session.isSome ∧ m.session = session ∧ m.authenticated
  | .forwardListen session _ => m.Live session ∧ m.authenticated
  | .forwardAccept listener => m.held ∧ ∃ l ∈ listener, l ∈ m.listeners
  | .sessionLastErrno session => m.Live session
  | .sessionLastError session => m.Live session
  | .forwardCancel listener => m.held ∧ ∃ l ∈ listener, l ∈ m.listeners
  | .keepaliveSend session => m.Live session ∧ m.authenticated
  | .sessionDisconnect session => session.isSome ∧ m.session = session
  | .sessionFree session => session.isSome ∧ m.session = session

def after (m : Watch) : SSHCall → Watch
  | .connecting sshConfig => { m with sshConfig := some sshConfig }
  | .locked => { m with held := true }
  | .unlocked => { m with held := false }
  | .socket fd => { m with socket := fd, connected := false }
  | .connect _ done => { m with connected := done }
  | .close _ => { m with socket := none, connected := false }
  | .sessionInit session =>
    { m with
      session := session, shaken := false, key := none, hash := none, authenticated := false, listeners := [] }
  | .sessionHandshake _ _ done => { m with shaken := done }
  | .sessionHostkey _ key => { m with key := key }
  | .hostkeyHash _ hash => { m with hash := hash }
  | .userauth _ done => { m with authenticated := done }
  | .forwardListen _ listener => { m with listeners := listener.toList ++ m.listeners }
  | .forwardCancel listener => { m with listeners := listener.elim m.listeners m.listeners.erase }
  | .sessionFree _ =>
    { m with
      session := none, shaken := false, key := none, hash := none, authenticated := false, listeners := [] }
  | _ => m

def Step (m : Watch) (call : SSHCall) (m' : Watch) : Prop := m.Allows call ∧ m' = m.after call

/-- Nothing was opened or closed but listeners opened. -/
structure Extends (m m' : Watch) : Prop where
  session : m'.session = m.session
  socket : m'.socket = m.socket
  listeners : m.listeners.Subperm m'.listeners
  empty : m.session = none → m'.listeners = m.listeners

theorem Extends.refl (m : Watch) : m.Extends m := ⟨rfl, rfl, .refl _, fun _ => rfl⟩

end Watch

/-! ## What a state of the session has called -/

namespace SSHSession

variable {W A : Type} (lib : Libssh2 W)

/-- The state after some calls. -/
def past (s : SSHSession (Logged W)) (w : W) (calls : List SSHCall) : SSHSession (Logged W) :=
  { s with world := (w, s.world.2 ++ calls) }

/-- The listeners of the entries are live ones. -/
def Owns (entries : List ListenerEntry) (listeners : List Listener) : Prop :=
  (entries.filterMap (·.listener)).Subperm listeners

/-- The calls were in order, and what they left is what the session holds. -/
structure Tracks (s : SSHSession (Logged W)) (m : Watch) : Prop where
  run : Run Watch.Step .start s.world.2 m
  session : m.session = s.session
  socket : m.socket = s.socketfd
  owns : Owns s.listeners m.listeners
  empty : m.session = none → m.listeners = []

variable {s : SSHSession (Logged W)} {m m' : Watch}

theorem Tracks.past {calls : List SSHCall} (h : Tracks s m) (w : W) (hrun : Run Watch.Step m calls m')
    (hextends : m.Extends m') : Tracks (s.past w calls) m' :=
  ⟨h.run.append hrun, hextends.session.trans h.session, hextends.socket.trans h.socket, h.owns.trans hextends.listeners,
    fun hnone =>
      have hempty := hextends.session.symm.trans hnone
      (hextends.empty hempty).trans (h.empty hempty)⟩

/-- A call that leaves everything open. -/
theorem Tracks.call {c : SSHCall} (h : Tracks s m) (w : W) (hallows : m.Allows c)
    (hextends : m.Extends (m.after c)) : Tracks (s.past w [c]) (m.after c) :=
  h.past w (.single ⟨hallows, rfl⟩) hextends

theorem lock_spec (h : Tracks s m) (hfree : m.held = false) (ticks : Nat) :
    (∃ w, s.ask (lib.logged.lock ticks) = (false, s.past w []) ∧ Tracks (s.past w []) m) ∨
    ∃ w, s.ask (lib.logged.lock ticks) = (true, s.past w [.locked]) ∧ Tracks (s.past w [.locked]) { m with held := true } := by
  obtain ⟨taken, w, hask⟩ : ∃ taken w, s.ask (lib.logged.lock ticks) = (taken, s.past w (if taken then [.locked] else [])) :=
    ⟨_, _, rfl⟩
  cases taken with
  | false => exact .inl ⟨w, hask, h.past w .nil (.refl m)⟩
  | true => exact .inr ⟨w, hask, h.call w hfree ⟨rfl, rfl, .refl _, fun _ => rfl⟩⟩

/-- One call under the mutex, unless it cannot be had. -/
theorem locked_spec {c : A → SSHCall} {f : W → A × W} (next : A → Watch) (h : Tracks s m) (hfree : m.held = false)
    (hcall : ∀ a, Watch.Step { m with held := true } (c a) { next a with held := true })
    (hnext : ∀ a, (next a).held = false ∧ m.Extends (next a)) (ticks : Nat) :
    ∃ w calls, (s.locked lib.logged ticks (Logged.ask (fun a => [c a]) f) = (none, s.past w calls) ∧
        Tracks (s.past w calls) m) ∨
      ∃ a, s.locked lib.logged ticks (Logged.ask (fun a => [c a]) f) = (some a, s.past w calls) ∧
        Tracks (s.past w calls) (next a) := by
  unfold locked
  -- Without the mutex nothing is called; with it the call stands between a pair.
  obtain ⟨w, hlock, hm⟩ | ⟨w, hlock, hm⟩ := lock_spec lib h hfree ticks
  · rw [hlock]
    exact ⟨w, [], .inl ⟨rfl, hm⟩⟩
  · rw [hlock]
    obtain ⟨a, w', hask⟩ : ∃ a w', (s.past w [.locked]).ask (Logged.ask (fun a => [c a]) f) =
        (a, (s.past w [.locked]).past w' [c a]) := ⟨_, _, rfl⟩
    have hunlock : Watch.Step { next a with held := true } .unlocked (next a) := by
      refine ⟨rfl, ?_⟩
      rw [Watch.after, ← (hnext a).1]
    have hrun : Run Watch.Step m [.locked, c a, .unlocked] (next a) :=
      .cons ⟨hfree, rfl⟩ (.cons (hcall a) (.single hunlock))
    refine ⟨(lib.unlock w'), [.locked, c a, .unlocked], .inr ⟨a, ?_, h.past _ hrun (hnext a).2⟩⟩
    simp only [hask]
    simp [tell, SSHSession.past, Libssh2.logged, Logged.tell]

/-! ## The connection -/

/-- A session with its keys, and the mutex is free. -/
structure Ready (s : SSHSession (Logged W)) (m : Watch) : Prop extends Tracks s m where
  free : m.held = false
  live : m.session.isSome
  wired : m.socket.isSome
  shaken : m.shaken

theorem Ready.held (h : Ready s m) : ({ m with held := true } : Watch).Live s.session :=
  ⟨rfl, h.session ▸ h.live, h.session, h.shaken⟩

/-- The session stays ready when only what is known about it grows. -/
theorem Ready.with (h : Ready s m) {s' : SSHSession (Logged W)} (ht : Tracks s' m') (hfree : m'.held = false)
    (hextends : m.Extends m') (hshaken : m'.shaken = m.shaken) : Ready s' m' :=
  ⟨ht, hfree, hextends.session ▸ h.live, hextends.socket ▸ h.wired, hshaken.trans h.shaken⟩

/-- The session stays ready when nothing is opened or closed. -/
theorem Ready.tracked (h : Ready s m) {s' : SSHSession (Logged W)} (ht : Tracks s' m) : Ready s' m :=
  h.with ht h.free (.refl m) rfl

/-- A call that leaves all as it was. -/
theorem Ready.keeps {c : SSHCall} (h : Ready s m) (w : W) (hallows : m.Allows c) (hafter : m.after c = m) :
    Ready (s.past w [c]) m := by
  have hcall := h.toTracks.call w hallows (hafter.symm ▸ .refl m)
  rw [hafter] at hcall
  exact h.tracked hcall

/-- A call under the mutex that leaves all as it was. -/
theorem Ready.locked {c : A → SSHCall} {f : W → A × W} (h : Ready s m)
    (hcall : ∀ a, Watch.Step { m with held := true } (c a) { m with held := true }) (ticks : Nat) :
    ∃ w calls, (s.locked lib.logged ticks (Logged.ask (fun a => [c a]) f) = (none, s.past w calls) ∨
        ∃ a, s.locked lib.logged ticks (Logged.ask (fun a => [c a]) f) = (some a, s.past w calls)) ∧
      Ready (s.past w calls) m := by
  obtain ⟨w, calls, ⟨hask, ht⟩ | ⟨a, hask, ht⟩⟩ :=
    locked_spec lib (fun _ => m) h.toTracks h.free hcall (fun _ => ⟨h.free, .refl m⟩) ticks (f := f)
  · exact ⟨w, calls, .inl hask, h.tracked ht⟩
  · exact ⟨w, calls, .inr ⟨a, hask⟩, h.tracked ht⟩

/-- What is accepted: a key of the configured type, with a hash that matches. -/
theorem hostKeyAccepted_spec {sshConfig : SSHServerConfig} {key : Option (Nat × Int)} {shown : Option (List UInt8)} :
    hostKeyAccepted sshConfig key shown ↔
      ∃ length type hash, key = some (length, type) ∧ shown = some hash ∧ 0 < length ∧
        (sshConfig.hostKeyType = [] ∨ sshConfig.hostKeyType = keyTypeStr type) ∧
        (sshConfig.expectedHostKeyFingerprint = [] ∨ fingerprintsMatch sshConfig.expectedHostKeyFingerprint hash) := by
  unfold hostKeyAccepted
  split
  · rename_i length type hash
    constructor
    · intro h
      refine ⟨length, type, hash, rfl, rfl, ?_⟩
      by_cases hlength : length = 0
      · simp [hlength] at h
      · by_cases htext : sshConfig.expectedHostKeyFingerprint = []
        · simp [hlength, htext] at h
          exact ⟨Nat.pos_of_ne_zero hlength, by tauto, .inl htext⟩
        · simp [hlength, htext] at h
          exact ⟨Nat.pos_of_ne_zero hlength, by tauto, .inr (by tauto)⟩
    · rintro ⟨_, _, _, hkey, hshown, hpos, htype, htext⟩
      cases hkey
      cases hshown
      rw [if_neg (by omega), if_neg (by simpa [or_iff_not_imp_left] using htype)]
      split
      · rfl
      · rename_i hne
        exact htext.resolve_left hne
  · rename_i hnone
    constructor
    · exact nofun
    · rintro ⟨length, type, hash, rfl, rfl, -⟩
      exact absurd rfl (hnone length type hash rfl)

/-- A configured text that spells a hash, in whichever way, accepts the host with
this hash and no other. -/
theorem hostKeyAccepted_iff {sshConfig : SSHServerConfig} {hash : List UInt8} (hlength : hash.length = 32)
    (hspells : Spells hash sshConfig.expectedHostKeyFingerprint) (key : Option (Nat × Int)) (shown : Option (List UInt8)) :
    hostKeyAccepted sshConfig key shown ↔
      shown = some hash ∧ ∃ length type, key = some (length, type) ∧ 0 < length ∧
        (sshConfig.hostKeyType = [] ∨ sshConfig.hostKeyType = keyTypeStr type) := by
  have htext : sshConfig.expectedHostKeyFingerprint ≠ [] := fun hempty => not_spells_nil hlength (hempty ▸ hspells)
  rw [hostKeyAccepted_spec]
  constructor
  · rintro ⟨length, type, other, hkey, rfl, hpos, htype, hmatch⟩
    rw [(fingerprintsMatch_iff hlength hspells).1 (hmatch.resolve_left htext)]
    exact ⟨rfl, length, type, hkey, hpos, htype⟩
  · rintro ⟨rfl, length, type, hkey, hpos, htype⟩
    exact ⟨length, type, hash, hkey, rfl, hpos, htype, .inr ((fingerprintsMatch_iff hlength hspells).2 rfl)⟩

/-- `ssh-keygen` shows this for a hash of zeros. -/
def zerosConfig : SSHServerConfig :=
  { host := literal "relay", port := 22, username := literal "box", password := [], useSSHKey := true
    privateKeyPath := [], privateKeyData := [], publicKeyData := [], verifyHostKey := true
    expectedHostKeyFingerprint := literal " SHA256:AAAAAAAAAAAAAAAAAAAAAAAAAAAAAAAAAAAAAAAAAAA=\n"
    hostKeyType := literal "ssh-ed25519" }

theorem hostKeyAccepted_zeros :
    hostKeyAccepted zerosConfig (some (51, 6)) (some (List.replicate 32 0)) ↔
      some (List.replicate 32 0) = some (List.replicate 32 (0 : UInt8)) ∧ ∃ length type, some (51, 6) = some (length, type) ∧
        0 < length ∧ (zerosConfig.hostKeyType = [] ∨ zerosConfig.hostKeyType = keyTypeStr type) :=
  hostKeyAccepted_iff (by decide)
    ⟨[32], literal "SHA256:" ++ literal "AAAAAAAAAAAAAAAAAAAAAAAAAAAAAAAAAAAAAAAAAAA=", [10],
      .openSSH (by decide) (by decide +kernel), by decide +kernel, by decide +kernel, by decide +kernel⟩ _ _

/-- An attempt to authenticate. -/
theorem Ready.userauth {f : W → Bool × W} (h : Ready s m) (htrusted : m.Trusted) (hauth : m.authenticated = false)
    (ticks : Nat) :
    ∃ s', (s.locked lib.logged ticks (Logged.ask (fun done => [.userauth s.session done]) f) = (none, s') ∧ Ready s' m) ∨
      ∃ done, s.locked lib.logged ticks (Logged.ask (fun done => [.userauth s.session done]) f) = (some done, s') ∧
        Ready s' { m with authenticated := done } := by
  have hextends : ∀ done, m.Extends { m with authenticated := done } := fun _ => ⟨rfl, rfl, .refl _, fun _ => rfl⟩
  obtain ⟨w, calls, ⟨hask, ht⟩ | ⟨done, hask, ht⟩⟩ :=
    locked_spec lib (fun done => { m with authenticated := done }) h.toTracks h.free
      (c := fun done => .userauth s.session done) (f := f) (fun _ => ⟨⟨h.held, htrusted, hauth⟩, rfl⟩)
      (fun done => ⟨h.free, hextends done⟩) ticks
  · exact ⟨_, .inl ⟨hask, h.tracked ht⟩⟩
  · exact ⟨_, .inr ⟨done, hask, h.with ht h.free (hextends done) rfl⟩⟩

/-- A call outside the mutex that the server does not see. -/
theorem Ready.tell {f : W → W} (h : Ready s m) : Ready (s.tell (Logged.tell [] f)) m :=
  h.tracked (h.past (f s.world.1) .nil (.refl m))

/-- What is watched once there is a new listener. -/
def listening (m : Watch) (listener : Option Listener) : Watch :=
  { m with listeners := listener.toList ++ m.listeners }

/-- An entry joins the listeners with its own. -/
theorem Ready.push (h : Ready s m) {s' : SSHSession (Logged W)} {entry : ListenerEntry}
    (hready : Ready s' (listening m entry.listener)) (hlisteners : s'.listeners = s.listeners) (boundPort : Int) :
    Ready { s' with listeners := s'.listeners ++ [entry], boundPort := boundPort } (listening m entry.listener) := by
  refine ⟨⟨hready.run, hready.session, hready.socket, ?_, hready.empty⟩, hready.free, hready.live, hready.wired,
    hready.shaken⟩
  have hentry : [entry].filterMap (·.listener) = entry.listener.toList := by
    cases hl : entry.listener with
    | none => rw [List.filterMap_cons_none hl]; rfl
    | some l => rw [List.filterMap_cons_some hl]; rfl
  rw [Owns, hlisteners, List.filterMap_append, hentry]
  exact List.perm_append_comm.subperm.trans ((List.subperm_append_left _).2 h.owns)

/-- Nothing is open. -/
structure Closed (s : SSHSession (Logged W)) (m : Watch) : Prop extends Tracks s m where
  free : m.held = false
  gone : m.session = none
  unwired : m.socket = none
  unlistened : s.listeners = []

/-- What the tunnel asks of its session. -/
inductive Op where
  | connect (config : SSHConfiguration)
  | disconnect
  | checkConnection
  | sendKeepalive
  | acceptChannel

/-- Between the operations all is open or all is closed. -/
def Idle (s : SSHSession (Logged W)) (m : Watch) : Prop := Closed s m ∨ Ready s m ∧ m.authenticated = true

theorem Idle.tracks (h : Idle s m) : Tracks s m ∧ m.held = false := by
  obtain h | ⟨h, -⟩ := h
  · exact ⟨h.toTracks, h.free⟩
  · exact ⟨h.toTracks, h.free⟩

/-- Fields that no call depends on. -/
theorem Ready.counted (h : Ready s m) {s' : SSHSession (Logged W)} (hworld : s'.world = s.world)
    (hsession : s'.session = s.session) (hsocket : s'.socketfd = s.socketfd) (hlisteners : s'.listeners = s.listeners) :
    Ready s' m :=
  ⟨⟨hworld ▸ h.run, h.session.trans hsession.symm, h.socket.trans hsocket.symm, hlisteners ▸ h.owns, h.empty⟩, h.free,
    h.live, h.wired, h.shaken⟩

/-- The state of the socket is asked for. -/
theorem Ready.getsockopt (h : Ready s m) : Ready (s.ask (lib.logged.getsockopt s.socketfd)).2 m :=
  h.keeps (c := .getsockopt s.socketfd) (lib.getsockopt s.socketfd s.world.1).2 ⟨h.socket ▸ h.wired, h.socket⟩ rfl

end SSHSession

end OrangeBox.Tunnel
