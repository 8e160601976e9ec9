import OrangeBox.PassStore.Storage
/-!
# Fields of a request

How `cred_protocol.cpp` reads the JSON fields of a request: the type, the
action, numbers, dates and texts. A missing field reads as `null`.
-/

namespace OrangeBox

/-- A JSON value as ArduinoJson holds it. The contents of reals, arrays and
objects are never looked at. -/
inductive JsonVariant where
  | null
  | bool (value : Bool)
  | integer (value : Int)
  | real
  | text (chars : List UInt8)
  | array
  | object
  deriving DecidableEq

/-- The fields of an object by name, `null` where there is none. -/
abbrev JsonObject := String → JsonVariant

namespace JsonVariant

def isNull (value : JsonVariant) : Bool := value = .null

/-- `is<bool>()`, with the value. -/
def asBool : JsonVariant → Option Bool
  | .bool value => some value
  | _ => none

/-- `is<int64_t>()`, with the value. -/
def asInt64 : JsonVariant → Option Int
  | .integer value => if -2 ^ 63 ≤ value ∧ value < 2 ^ 63 then some value else none
  | _ => none

/-- `as<const char*>()`, up to the NUL where C functions stop. -/
def asText : JsonVariant → Option (List UInt8)
  | .text chars => some (chars.takeWhile (· ≠ 0))
  | _ => none

end JsonVariant

/-- An ASCII text. -/
def ascii (chars : List Char) : List UInt8 := chars.map fun ch => ch.toNat.toUInt8

/-! ## Numbers -/

namespace ParamChecks

/-- The loop over the digits. -/
def digits : List UInt8 → Int → Option Int
  | [], number => some number
  | ch :: text, number =>
    if ch < 48 ∨ ch > 57 then none
    else if number * 10 + (ch.toNat - 48) > 0xffffffff then none
    else digits text (number * 10 + (ch.toNat - 48))

/-- The number in a text, with an optional minus sign. -/
def textInteger (text : List UInt8) : Option Int :=
  match text with
  | [] => none
  | 45 :: text => if text = [] then none else (digits text 0).map (- ·)
  | text => digits text 0

def integer (value : JsonVariant) (minimum maximum : Int) : Option Int :=
  if value.asBool.isSome = true then none
  else
    let result := match value.asInt64 with
      | some result => some result
      | none => value.asText.bind textInteger
    result.filter fun result => minimum ≤ result && result ≤ maximum

end ParamChecks

/-! ## Dates -/

namespace CredProtocol

def leap (year : Int) : Bool := year.tmod 4 = 0 && (year.tmod 100 ≠ 0 || year.tmod 400 = 0)

def monthDays (year : Int) (month : Nat) : Int :=
  [31, 28, 31, 30, 31, 30, 31, 31, 30, 31, 30, 31].getD (month - 1) 0 + (if month = 2 ∧ leap year = true then 1 else 0)

def yearDays (year : Int) : Int :=
  let y := year - 1
  y * 365 + y.tdiv 4 - y.tdiv 100 + y.tdiv 400

/-- A day of the calendar as seconds, `none` if there is no such day. The open
bounds are 0. -/
def parseDate (value : JsonVariant) (endOfDay : Bool) : Option UInt64 :=
  match value.asText with
  | none => none
  | some text =>
    if text = [] ∨ text = (if endOfDay then ascii ['9', '9', '9', '9', '-', '1', '2', '-', '3', '1']
        else ascii ['0', '0', '0', '1', '-', '0', '1', '-', '0', '1']) then some 0
    else if text.length ≠ 10 ∨ text.getD 4 0 ≠ 45 ∨ text.getD 7 0 ≠ 45 then none
    else if (List.range 10).any (fun i => i ≠ 4 && i ≠ 7 && (text.getD i 0 < 48 || text.getD i 0 > 57)) = true then none
    else
      let digit (i : Nat) : Nat := (text.getD i 0).toNat - 48
      let year : Int := digit 0 * 1000 + digit 1 * 100 + digit 2 * 10 + digit 3
      let month := digit 5 * 10 + digit 6
      let day := digit 8 * 10 + digit 9
      if year < 1970 ∨ month < 1 ∨ month > 12 ∨ day < 1 ∨ day > monthDays year month then none
      else
        let days := yearDays year - yearDays 1970 + day - 1
          + ((List.range (month - 1)).map fun m => monthDays year (m + 1)).sum
        some (days.toNat.toUInt64 * 86400 + (if endOfDay then 86399 else 0))

/-! ## Type, action and texts -/

open PassStore

/-- The names of the type-specific fields. -/
structure Fields where
  id : String
  name : String
  value : String
  «from» : String
  «to» : String

def fieldsFor (type : CredType) : Fields :=
  if type = .password then ⟨"pinid", "pinname", "pinvalue", "datefrom", "dateto"⟩
  else ⟨"codeid", "codename", "codevalue", "codefrom", "codeto"⟩

def parseType (value : JsonVariant) : Option CredType :=
  match value.asText with
  | none => none
  | some text =>
    if text = ascii ['c', 't', 'P', 'i', 'n'] then some .password
    else if text = ascii ['c', 't', 'C', 'o', 'd', 'e'] then some .packetNumber
    else none

def credTypeName (type : CredType) : String :=
  if type = .password then "ctPin" else if type = .packetNumber then "ctCode" else "all"

/-- Whether the action is to delete. -/
def parseAction (value : JsonVariant) : Option Bool :=
  match value.asText with
  | none => none
  | some text =>
    if text = ascii ['d', 'e', 'l', 'e', 't', 'e', 'b', 'u', 't', 't', 'o', 'n'] then some true
    else if text = ascii ['s', 'a', 'v', 'e', 'b', 'u', 't', 't', 'o', 'n'] then some false
    else none

/-- The text copied into a `char[capacity]`, itself part of a `char[cap]`. -/
def copyText (cap : Nat) (value : JsonVariant) (capacity : Nat) : Option (CText cap) :=
  match value.asText with
  | none => none
  | some text => if text = [] ∨ text.length ≥ capacity then none else some (.read cap text)

theorem asText_noNul {value : JsonVariant} {text : List UInt8} (h : value.asText = some text) : 0 ∉ text := by
  cases value with
  | text chars =>
    obtain rfl := Option.some.inj h
    intro hm
    simpa using List.mem_takeWhile_imp hm
  | _ => contradiction

/-- A copied text is the one in the request. -/
theorem copyText_bytes {cap capacity : Nat} {value : JsonVariant} {t : CText cap}
    (h : copyText cap value capacity = some t) (hcap : capacity ≤ cap + 1) : value.asText = some t.bytes := by
  unfold copyText at h
  split at h
  · contradiction
  · rename_i text htext
    split at h
    · contradiction
    · rename_i hlen
      obtain rfl := Option.some.inj h
      obtain ⟨-, hlen⟩ := not_or.1 hlen
      have hbytes : (CText.read cap text).bytes = text := CText.read_bytes (asText_noNul htext) (by omega)
      rw [hbytes, htext]

end CredProtocol

end OrangeBox
