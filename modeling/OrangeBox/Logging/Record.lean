import OrangeBox.Text
/-!
# Log records

`logger.h` and the appending half of `log_params.cpp`: the event a caller logs,
and the record that is kept for it, which owns copies of all its texts.
-/

namespace OrangeBox.Logging

abbrev logMaxParams : Nat := 12
abbrev logParamDataMaxLen : Nat := 160
abbrev logSourceMaxLen : Nat := 16
abbrev severityError : UInt8 := 4
abbrev logareaSystem : UInt8 := 4
abbrev aLogDropped : UInt16 := 190

/-! ## Parameters -/

/-- `LogParam`. A real is its 64 bits; a text is what a pointer points to. -/
inductive LogParam where
  | signed (value : Int64)
  | unsigned (value : UInt64)
  | real (bits : UInt64)
  | boolean (value : Bool)
  | text (value : Option (List UInt8))
  deriving DecidableEq

/-- `LogParam::Type`. -/
def LogParam.type : LogParam → UInt8
  | .signed _ => 0
  | .unsigned _ => 1
  | .real _ => 2
  | .boolean _ => 3
  | .text _ => 4

/-- The bytes of a 64-bit value in memory. -/
def littleEndian (bits : UInt64) : List UInt8 := (List.range 8).map fun i => (bits >>> (8 * i).toUInt64).toUInt8

/-- `std::isfinite`. -/
def isfinite (bits : UInt64) : Bool := (bits >>> 52) &&& 0x7ff ≠ 0x7ff

/-- The bytes that `append` copies for a value. -/
def LogParam.bytes : LogParam → Option (List UInt8)
  | .signed value => some (littleEndian value.toUInt64)
  | .unsigned value => some (littleEndian value)
  | .real bits => if isfinite bits then some (littleEndian bits) else none
  | .boolean value => some [if value then 1 else 0]
  | .text none => none
  | .text (some chars) => some ((chars.takeWhile (· ≠ 0)).take logParamDataMaxLen ++ [0])

structure LogParamBlock where
  count : UInt8
  used : UInt16
  data : Fin logParamDataMaxLen → UInt8

def LogParamBlock.empty : LogParamBlock := ⟨0, 0, fun _ => 0⟩

/-- Copy bytes into the data from a place on. -/
def LogParamBlock.store (start : Nat) (bytes : List UInt8) (data : Fin logParamDataMaxLen → UInt8) :
    Fin logParamDataMaxLen → UInt8 :=
  fun i => if start ≤ i.val ∧ i.val < start + bytes.length then bytes.getD (i.val - start) 0 else data i

/-- `append`, `none` when it refuses. -/
def LogParamBlock.append (param : LogParam) (block : LogParamBlock) : Option LogParamBlock :=
  match param.bytes with
  | none => none
  | some source =>
    if logMaxParams ≤ block.count.toNat ∨ logParamDataMaxLen < block.used.toNat ∨
        logParamDataMaxLen - block.used.toNat < source.length + 3 then none
    else
      let header := [param.type, source.length.toUInt8, (source.length / 256).toUInt8]
      some { count := block.count + 1
             used := block.used + 3 + source.length.toUInt16
             data := store block.used.toNat (header ++ source) block.data }

/-! ## Records -/

/-- `LogRecord`; the source is what a pointer points to. -/
structure LogRecord where
  severity : UInt8
  logArea : UInt8
  source : Option (List UInt8)
  message : UInt16
  timestamp : UInt32

/-- `LogEvent`; the parameters may be missing. -/
structure LogEvent where
  record : LogRecord
  params : Option (List LogParam)
  paramCount : UInt8

structure QueuedLogRecord where
  severity : UInt8
  logArea : UInt8
  source : CText (logSourceMaxLen + 1)
  message : UInt16
  timestamp : UInt32
  params : LogParamBlock
  sequence : UInt32

/-- A zeroed record. -/
def QueuedLogRecord.zero : QueuedLogRecord :=
  { severity := 0, logArea := 0, source := .empty, message := 0, timestamp := 0, params := .empty, sequence := 0 }

/-- The record `sendOrQueue` builds for an event before it takes the lock, `none`
when the event is refused. -/
def LogEvent.queued (event : LogEvent) : Option QueuedLogRecord :=
  let source := (event.record.source.getD []).takeWhile (· ≠ 0)
  if logSourceMaxLen < source.length ∨ logMaxParams < event.paramCount.toNat ∨ event.paramCount ≠ 0 ∧ event.params = none then
    none
  else
    (((event.params.getD []).take event.paramCount.toNat).foldlM (fun (block : LogParamBlock) param => block.append param) .empty).map
      fun params =>
        { severity := event.record.severity
          logArea := event.record.logArea
          source := .read _ source
          message := event.record.message
          timestamp := event.record.timestamp
          params := params
          sequence := 0 }

end OrangeBox.Logging
