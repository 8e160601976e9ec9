import OrangeBox.Lib.CircularBuffer
import OrangeBox.Logging.Record
import OrangeBox.Timeout
/-!
# The log queue

`BufferedLogTransport` of `logger.cpp`. Other tasks log while one task sends.
What stands between `lock` and `unlock` is one function on the transport, and
the sending task stops before and after each of them; `Act` lists what can
happen next, a call of `sendOrQueue` among them at any point. `History` is kept
beside it: an event is known there by its place in the order of acceptance.
-/

namespace OrangeBox.Logging

abbrev logQueueSize : Nat := 32
abbrev logReconnectInterval : UInt32 := 5000

/-- `BufferedLogTransport`; `head` and `count` are those of the queue. -/
structure BufferedLogTransport where
  queue : CircularBuffer logQueueSize QueuedLogRecord
  dropped : UInt32
  nextSequence : UInt32
  reconnectStartedAt : UInt32
  reconnectStarted : Bool

namespace BufferedLogTransport

/-- The transport after `begin`. -/
def started : BufferedLogTransport :=
  { queue := .empty .zero (by decide), dropped := 0, nextSequence := 0, reconnectStartedAt := 0, reconnectStarted := false }

/-- A full queue loses its oldest record. -/
def makeRoom (transport : BufferedLogTransport) : BufferedLogTransport :=
  if transport.queue.isFull then { transport with queue := transport.queue.pop, dropped := transport.dropped + 1 }
  else transport

/-- The locked part of `sendOrQueue`. -/
def enqueue (queued : QueuedLogRecord) (transport : BufferedLogTransport) : BufferedLogTransport :=
  let room := transport.makeRoom
  { room with queue := room.queue.put { queued with sequence := room.nextSequence }, nextSequence := room.nextSequence + 1 }

/-- `sendOrQueue`, `none` when it returns false. -/
def sendOrQueue (event : LogEvent) (transport : BufferedLogTransport) : Option BufferedLogTransport :=
  event.queued.map fun queued => transport.enqueue queued

def hasPendingOutput (transport : BufferedLogTransport) : Bool := transport.queue.count ≠ 0 || transport.dropped ≠ 0

/-- The part of `update` before `flushQueue`, by what `isConnected` answers first. -/
def tryReconnect (connected : Bool) (now : UInt32) (transport : BufferedLogTransport) : BufferedLogTransport :=
  if !connected && (!transport.reconnectStarted || timeoutElapsed transport.reconnectStartedAt logReconnectInterval now) then
    { transport with reconnectStartedAt := now, reconnectStarted := true }
  else transport

/-- The lock after a notice was sent. -/
def forgetDropped (lost : UInt32) (transport : BufferedLogTransport) : BufferedLogTransport :=
  { transport with dropped := transport.dropped - lost }

/-- The lock after a record was sent. -/
def popSent (record : QueuedLogRecord) (transport : BufferedLogTransport) : BufferedLogTransport :=
  match transport.queue.peek with
  | none => transport
  | some oldest =>
    if oldest.sequence = record.sequence then { transport with queue := transport.queue.pop } else transport

end BufferedLogTransport

/-- `"logger"`. -/
def loggerSource : List UInt8 := [108, 111, 103, 103, 101, 114]

/-- The notice `sendDroppedNotice` builds. -/
def droppedNotice (lost time : UInt32) : Option QueuedLogRecord :=
  (LogParamBlock.empty.append (.unsigned lost.toUInt64)).map fun params =>
    { QueuedLogRecord.zero with
      severity := severityError
      logArea := logareaSystem
      source := .read _ loggerSource
      message := aLogDropped
      timestamp := time
      params := params }

/-! ## Steps -/

/-- Where the sending task is between two steps of `update`. -/
inductive Sender where
  | idle
  | woken (now : UInt32)
  | noticing
  | sendingNotice (lost : UInt32) (notice : QueuedLogRecord)
  | forgetting (lost : UInt32)
  | flushing (budget : Nat)
  | sending (budget : Nat) (record : QueuedLogRecord)
  | popping (budget : Nat) (record : QueuedLogRecord)

/-- What has happened so far. -/
structure History where
  /-- The accepted records, in order. -/
  accepted : List QueuedLogRecord
  /-- The places and records of the events that `sendNow` has sent. -/
  sent : List (Nat × QueuedLogRecord)
  /-- The places of the events that gave way in a full queue. -/
  overwritten : List Nat
  /-- The counts in the notices that `sendNow` has sent. -/
  noticed : List UInt32
  /-- The place of the record that was copied last. -/
  copied : Nat
  /-- How many events were accepted since. -/
  meanwhile : Nat

structure LogState where
  transport : BufferedLogTransport
  sender : Sender
  history : History

namespace LogState

/-- After `begin`. -/
def started : LogState := ⟨.started, .idle, ⟨[], [], [], [], 0, 0⟩⟩

/-- The place of the oldest event in the queue. -/
def oldest (w : LogState) : Nat := w.history.accepted.length - w.transport.queue.count

/-- The locked part of `sendOrQueue`, with what it adds to the history. -/
def accepting (queued : QueuedLogRecord) (w : LogState) : LogState :=
  { w with
    transport := w.transport.enqueue queued
    history :=
      { w.history with
        accepted := w.history.accepted ++ [{ queued with sequence := w.transport.nextSequence }]
        overwritten := if w.transport.queue.isFull then w.history.overwritten ++ [w.oldest] else w.history.overwritten
        meanwhile := w.history.meanwhile + 1 } }

end LogState

inductive Act where
  /-- `sendOrQueue`. -/
  | log (event : LogEvent)
  | update (now : UInt32)
  /-- `isConnected` before and after the attempt to reconnect. -/
  | connect (before after : Bool)
  /-- `sendDroppedNotice` reads the counter and the time. -/
  | readDropped (time : UInt32)
  | noticeSent (ok : Bool)
  | forget
  /-- The loop of `flushQueue` asks `isConnected` and copies the oldest record. -/
  | copy (connected : Bool)
  | recordSent (ok : Bool)
  | pop

/-- A step, `none` where the sending task is elsewhere. -/
def Act.step (act : Act) (w : LogState) : Option LogState :=
  match act, w.sender with
  | .log event, _ =>
    match event.queued with
    | none => some w
    | some queued => some (w.accepting queued)
  | .update now, .idle => some { w with sender := if w.transport.hasPendingOutput then .woken now else .idle }
  | .connect before after, .woken now =>
    some { w with
           transport := w.transport.tryReconnect before now
           sender := if after then .noticing else .idle }
  | .readDropped time, .noticing =>
    some { w with
           sender :=
             if w.transport.dropped = 0 then .flushing 0
             else
               match droppedNotice w.transport.dropped time with
               | none => .idle
               | some notice => .sendingNotice w.transport.dropped notice }
  | .noticeSent false, .sendingNotice _ _ => some { w with sender := .idle }
  | .noticeSent true, .sendingNotice lost _ =>
    some { w with
           sender := .forgetting lost
           history := { w.history with noticed := w.history.noticed ++ [lost] } }
  | .forget, .forgetting lost => some { w with transport := w.transport.forgetDropped lost, sender := .flushing 0 }
  | .copy connected, .flushing budget =>
    if budget < logQueueSize ∧ connected = true then
      match w.transport.queue.peek with
      | none => some { w with sender := .idle }
      | some record =>
        some { w with
               sender := .sending budget record
               history := { w.history with copied := w.oldest, meanwhile := 0 } }
    else some { w with sender := .idle }
  | .recordSent false, .sending _ _ => some { w with sender := .idle }
  | .recordSent true, .sending budget record =>
    some { w with
           sender := .popping budget record
           history := { w.history with sent := w.history.sent ++ [(w.history.copied, record)] } }
  | .pop, .popping budget record =>
    some { w with transport := w.transport.popSent record, sender := .flushing (budget + 1) }
  | _, _ => none

def LogStep (w : LogState) (act : Act) (w' : LogState) : Prop := act.step w = some w'

end OrangeBox.Logging
