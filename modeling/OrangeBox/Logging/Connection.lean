import OrangeBox.Lib.Run
import OrangeBox.Logging.Transport
/-!
# The connection of the log

`WebSocketLogTransport` of `websocket_log_transport.cpp`, over the queue. The
network calls back from a task of its own, between any two steps of `update`.
What the TCP client answers is part of each step (`linked` for `connected()`):
nothing is assumed about it.
-/
open Clock Runs

namespace OrangeBox.Logging

abbrev logHandshakeTimeout : UInt32 := 5000
abbrev logIdleDisconnectDelay : UInt32 := 1000
abbrev logHandshakeResponseMaxLen : Nat := 512

inductive ConnectionState where
  | disconnected
  | connecting
  | handshaking
  | connected
  deriving DecidableEq

/-- `indexOf` finds the text. -/
def contains (pattern text : List UInt8) : Bool := text.tails.any (pattern.isPrefixOf ·)

/-- `tolower`. -/
def toLower (c : UInt8) : UInt8 := if 65 ≤ c ∧ c ≤ 90 then c + 32 else c

/-- `" 101 "`. -/
def switchingProtocols : List UInt8 := [32, 49, 48, 49, 32]

/-- `"upgrade: websocket"`. -/
def upgradeWebsocket : List UInt8 :=
  [117, 112, 103, 114, 97, 100, 101, 58, 32, 119, 101, 98, 115, 111, 99, 107, 101, 116]

/-- `"\r\n\r\n"`. -/
def endOfHeaders : List UInt8 := [13, 10, 13, 10]

/-- The transport over its queue, which is in `log` with the sending task. -/
structure WebSocketLogTransport where
  log : LogState
  state : ConnectionState
  lastActivityMillis : UInt32
  handshakeResponse : List UInt8

namespace WebSocketLogTransport

/-- After `begin`. -/
def started : WebSocketLogTransport := ⟨.started, .disconnected, 0, []⟩

def closeClient (transport : WebSocketLogTransport) : WebSocketLogTransport :=
  { transport with state := .disconnected, handshakeResponse := [] }

def isConnected (linked : Bool) (transport : WebSocketLogTransport) : Bool := transport.state = .connected && linked

/-! ## Callbacks -/

/-- `written` is whether the whole request went out. -/
def handleConnect (written : Bool) (millis : UInt32) (transport : WebSocketLogTransport) : WebSocketLogTransport :=
  let transport :=
    { transport with state := .handshaking, lastActivityMillis := millis, handshakeResponse := [] }
  if written then transport else transport.closeClient

def handleDisconnect (transport : WebSocketLogTransport) : WebSocketLogTransport :=
  { transport with state := .disconnected, handshakeResponse := [] }

/-- The response so far, up to a NUL and in lower case. -/
def response (transport : WebSocketLogTransport) : List UInt8 :=
  (transport.handshakeResponse.takeWhile (· ≠ 0)).map toLower

/-- The server has agreed to the protocol. -/
def upgraded (transport : WebSocketLogTransport) : Bool :=
  contains switchingProtocols transport.response && contains upgradeWebsocket transport.response

/-- The clock is read once more, as `later`, when the handshake ends. -/
def handleData (data : List UInt8) (millis later : UInt32) (transport : WebSocketLogTransport) : WebSocketLogTransport :=
  let transport := { transport with lastActivityMillis := millis }
  if transport.state ≠ .handshaking then transport
  else if logHandshakeResponseMaxLen < transport.handshakeResponse.length + data.length then transport.closeClient
  else
    let transport := { transport with handshakeResponse := transport.handshakeResponse ++ data }
    if transport.upgraded then
      { transport with state := .connected, lastActivityMillis := later, handshakeResponse := [] }
    else if contains endOfHeaders transport.response then transport.closeClient
    else transport

/-! ## The sending task -/

/-- What `update` does before it goes on to the queue. -/
def checkHandshake (currentMillis : UInt32) (linked : Bool) (transport : WebSocketLogTransport) : WebSocketLogTransport :=
  let transport :=
    if transport.state = .handshaking && timeoutElapsed transport.lastActivityMillis logHandshakeTimeout currentMillis then
      transport.closeClient
    else transport
  if transport.state = .disconnected && linked then transport.closeClient else transport

/-- What `update` does after it. -/
def checkIdle (currentMillis : UInt32) (linked : Bool) (transport : WebSocketLogTransport) : WebSocketLogTransport :=
  if transport.isConnected linked && !transport.log.transport.hasPendingOutput &&
      timeoutElapsed transport.lastActivityMillis logIdleDisconnectDelay currentMillis then
    transport.closeClient
  else transport

/-- `opens` is whether `connect` succeeds. -/
def reconnect (linked opens : Bool) (millis : UInt32) (transport : WebSocketLogTransport) : WebSocketLogTransport :=
  if transport.state = .connecting ∨ transport.state = .handshaking then transport
  else if transport.isConnected linked then transport
  else
    let transport := { transport.closeClient with state := .connecting, lastActivityMillis := millis }
    if opens then transport else { transport with state := .disconnected }

/-- `sendTextFrame` succeeds. -/
def sentFrame (millis : UInt32) (transport : WebSocketLogTransport) : WebSocketLogTransport :=
  { transport with lastActivityMillis := millis }

end WebSocketLogTransport

/-- The step is the end of a `sendNow` that has sent a frame. -/
def Act.transmits : Act → Bool
  | .noticeSent ok | .recordSent ok => ok
  | _ => false

/-- `update` of the queue calls `reconnect`. -/
def LogState.reconnects (w : LogState) : Act → Bool
  | .connect before _ =>
    match w.sender with
    | .woken now =>
      !before && (!w.transport.reconnectStarted || timeoutElapsed w.transport.reconnectStartedAt logReconnectInterval now)
    | _ => false
  | _ => false

/-! ## Steps -/

/-- Where the task that calls `update` is. -/
inductive Phase where
  | outside
  /-- It was called with this time, and goes on to the queue. -/
  | entered (sampled : Nat)
  | inside (sampled : Nat)
  deriving DecidableEq

/-- The transport at a time. `activity` is when the connection was made, data
was received or a frame was sent last. -/
structure Connection where
  transport : WebSocketLogTransport
  phase : Phase
  clock : Nat
  activity : Nat

/-- What happens, with the time. -/
inductive Deed where
  | connected (written : Bool) (t : Nat)
  /-- `onDisconnect`, `onError` or `onTimeout`. -/
  | disconnected (t : Nat)
  | received (data : List UInt8) (t later : Nat)
  /-- `update` is called with a time that was sampled before. -/
  | enter (sampled t : Nat) (linked : Bool)
  /-- A step of the queue. -/
  | queue (act : Act) (t : Nat) (linked opens : Bool)
  /-- `update` returns. -/
  | leave (t : Nat) (linked : Bool)

namespace Connection

def started (t : Nat) : Connection := ⟨.started, .outside, t, t⟩

/-- The queue is given the time `update` was given, and what `isConnected`
answers when its turn comes. -/
def admits (act : Act) (linked : Bool) (c : Connection) : Bool :=
  match act with
  | .update now =>
    match c.phase with
    | .entered sampled => now = stamp sampled
    | _ => false
  | .connect before _ => before = c.transport.isConnected linked
  | .copy linkUp => linkUp = c.transport.isConnected linked
  | .noticeSent ok | .recordSent ok => !ok || c.transport.isConnected linked
  | _ => true

/-- The phase after a step of the queue. -/
def nextPhase (act : Act) (phase : Phase) : Phase :=
  match act, phase with
  | .update _, .entered sampled => .inside sampled
  | _, phase => phase

def step (deed : Deed) (c : Connection) : Option Connection :=
  match deed with
  | .connected written t =>
    if c.clock ≤ t then
      some { c with transport := c.transport.handleConnect written (stamp t), clock := t, activity := t }
    else none
  | .disconnected t => if c.clock ≤ t then some { c with transport := c.transport.handleDisconnect, clock := t } else none
  | .received data t later =>
    if c.clock ≤ t ∧ t ≤ later then
      let transport := c.transport.handleData data (stamp t) (stamp later)
      some { c with
             transport := transport
             clock := later
             activity := if c.transport.state = .handshaking ∧ transport.state = .connected then later else t }
    else none
  | .enter sampled t linked =>
    if c.clock ≤ t ∧ sampled ≤ t ∧ c.phase = .outside then
      some { c with transport := c.transport.checkHandshake (stamp sampled) linked, phase := .entered sampled, clock := t }
    else none
  | .queue act t linked opens =>
    if c.clock ≤ t ∧ c.admits act linked then
      (act.step c.transport.log).map fun log =>
        let transport := if c.transport.log.reconnects act then c.transport.reconnect linked opens (stamp t) else c.transport
        let transport := if act.transmits then transport.sentFrame (stamp t) else transport
        { transport := { transport with log := log }
          phase := nextPhase act c.phase
          clock := t
          activity := if act.transmits then t else c.activity }
    else none
  | .leave t linked =>
    match c.phase, c.transport.log.sender with
    | .inside sampled, .idle =>
      if c.clock ≤ t then
        some { c with transport := c.transport.checkIdle (stamp sampled) linked, phase := .outside, clock := t }
      else none
    | _, _ => none

def Step (c : Connection) (deed : Deed) (c' : Connection) : Prop := c.step deed = some c'

end Connection

end OrangeBox.Logging
