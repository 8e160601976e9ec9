import OrangeBox.Lib.InPlace
import OrangeBox.Logging.Messages
/-!
# Log records as JSON

`serializeLogRecord` of `log_serialization.cpp` and `sendTextFrame` of
`websocket_log_transport.cpp`. ArduinoJson, which writes the document, is the
parameter `JsonWriter`. Every record that the queue accepts fits
(`accepted_fits`).
-/

namespace OrangeBox.Logging

abbrev logWsFrameMaxLen : Nat := 1536

/-! ## The document -/

/-- What ArduinoJson writes for a character of a text and for numbers. Names of
letters, digits and underscores are written as they are. -/
structure JsonWriter where
  char : UInt8 → List UInt8
  integer : Int → List UInt8
  real : UInt64 → List UInt8

/-- A text in quotes. -/
def JsonWriter.text (w : JsonWriter) (chars : List UInt8) : List UInt8 := 34 :: (chars.flatMap w.char ++ [34])

/-- `value.set`. -/
def JsonWriter.value (w : JsonWriter) : LogParam → List UInt8
  | .signed value => w.integer value.toInt
  | .unsigned value => w.integer value.toNat
  | .real bits => w.real bits
  | .boolean value => literal (if value then "true" else "false")
  | .text chars => w.text ((chars.getD []).takeWhile (· ≠ 0))

/-- A name of a member. -/
def name (text : List UInt8) : List UInt8 := 34 :: (text ++ [34, 58])

/-- The `i`th member of `messageparams`. -/
def messageParam (w : JsonWriter) (i : Nat) (param : LogParam) : List UInt8 :=
  (if i = 0 then [] else [44]) ++ name (112 :: Decimal.text (i + 1)) ++ w.value param

/-- The members of `messageparams`, `none` when `get` is false. -/
def messageParams (w : JsonWriter) (params : LogParamBlock) : Option (List UInt8) :=
  ((List.range params.count.toNat).mapM fun i => (params.getParam i).map (messageParam w i)).map List.flatten

/-- The document. -/
def document (w : JsonWriter) (record : QueuedLogRecord) (params : List UInt8) : List UInt8 :=
  [123] ++ name (literal "_command_") ++ literal "\"c_log\"" ++
  [44] ++ name (literal "_timestamp_") ++ w.integer record.timestamp.toNat ++
  [44] ++ name (literal "data") ++ [123] ++ name (literal "source") ++ w.text record.source.bytes ++
  [44] ++ name (literal "area") ++ w.integer record.logArea.toNat ++
  [44] ++ name (literal "severity") ++ w.integer record.severity.toNat ++
  [44] ++ name (literal "message") ++ w.integer record.message.toNat ++
  [44] ++ name (literal "timestamp") ++ w.integer record.timestamp.toNat ++
  [44] ++ name (literal "messageparams") ++ [123] ++ params ++ [125, 125, 125]

/-! ## Escaping in place -/

def hexDigit (n : UInt8) : UInt8 := (literal "0123456789abcdef").getD n.toNat 0

/-- The six characters for a control character. -/
def controlEscape (c : UInt8) : List UInt8 := [92, 117, 48, 48, hexDigit (c >>> 4), hexDigit (c &&& 15)]

/-- Bytes stored into a buffer, `none` if they do not all lie in it. -/
def store (bytes : List UInt8) (start : Nat) (buffer : List UInt8) : Option (List UInt8) :=
  if start + bytes.length ≤ buffer.length then
    some (buffer.take start ++ (bytes ++ buffer.drop (start + bytes.length)))
  else none

/-- The loop of `serializeLogRecord` that goes back over the text, `none` when it
leaves the buffer. -/
def expandLoop : Nat → Nat → List UInt8 → Option (List UInt8)
  | 0, _, output => some output
  | i + 1, destination, output =>
    match output[i]? with
    | none => none
    | some c =>
      if c < 0x20 then
        if destination < 6 then none
        else (store (controlEscape c) (destination - 6) output).bind (expandLoop i (destination - 6))
      else
        if destination < 1 then none
        else (store [c] (destination - 1) output).bind (expandLoop i (destination - 1))

/-- `serializeLogRecord`: its result, `written` and the buffer after it, `none`
when it leaves the buffer. The document never runs out of memory. -/
def serializeLogRecord (w : JsonWriter) (record : QueuedLogRecord) (output : List UInt8) : Option (Bool × Nat × List UInt8) :=
  if output = [] ∨ record.params.count.toNat > logMaxParams then some (false, 0, output)
  else
    match messageParams w record.params with
    | none => some (false, 0, output)
    | some params =>
      let text := document w record params
      if output.length ≤ text.length then some (false, 0, output)
      else
        -- `serializeJson` ends the text with a NUL.
        let output := text ++ 0 :: output.drop (text.length + 1)
        let controls := text.countP (· < 0x20)
        let expanded := text.length + controls * 5
        if output.length ≤ expanded then some (false, 0, output)
        else
          (store [0] expanded output).bind fun output =>
            (expandLoop text.length expanded output).map fun output => (true, expanded, output)

/-- The frame that `sendTextFrame` hands on, `none` if it is false before. -/
def textFrame (mask : Fin 4 → UInt8) (text : List UInt8) : Option (List UInt8) :=
  if text.length > 65535 then none
  else
    let header := [0x81] ++
      (if text.length < 126 then [0x80 ||| text.length.toUInt8]
        else [0x80 ||| 126, (text.length / 256).toUInt8, text.length.toUInt8]) ++ List.ofFn mask
    if header.length + text.length > logWsFrameMaxLen then none
    else some (header ++ text.mapIdx fun i c => c ^^^ mask (Fin.ofNat 4 i))

/-! ## What the loop leaves -/

variable {w : JsonWriter} {text start buffer : List UInt8} {i destination : Nat} {ps : List LogParam} {block block' : LogParamBlock} {p : LogParam}

/-- A byte as it is in the end. -/
def escapedByte (c : UInt8) : List UInt8 := if c < 0x20 then controlEscape c else [c]

/-- A text with every control character escaped. -/
def escapeControls (text : List UInt8) : List UInt8 := text.flatMap escapedByte

theorem escapeControls_append (a b : List UInt8) : escapeControls (a ++ b) = escapeControls a ++ escapeControls b :=
  List.flatMap_append

theorem length_escapeControls (text : List UInt8) :
    (escapeControls text).length = text.length + text.countP (· < 0x20) * 5 := by
  induction text with
  | nil => rfl
  | cons c text ih =>
    have hcons : escapeControls (c :: text) = escapedByte c ++ escapeControls text := rfl
    rw [hcons, List.length_append, ih, List.countP_cons, List.length_cons]
    unfold escapedByte
    by_cases hc : c < 0x20
    · have hsix : (controlEscape c).length = 6 := rfl
      rw [if_pos hc, hsix, if_pos (decide_eq_true hc)]
      omega
    · rw [if_neg hc, if_neg (by rw [decide_eq_true_eq]; exact hc), List.length_singleton]
      omega

theorem store_eq {bytes : List UInt8} {place : Nat} (h : place + bytes.length ≤ buffer.length) :
    store bytes place buffer = some (InPlace.overwrite bytes place buffer) := if_pos h

theorem one_le_escapedByte (c : UInt8) : 1 ≤ (escapedByte c).length := by
  unfold escapedByte
  split
  · exact (by decide : 1 ≤ 6)
  · exact Nat.le_refl 1

/-- A round of the loop writes what the byte is in the end. -/
theorem expandLoop_succ (h : InPlace.Backward escapedByte text start buffer (i + 1) destination) :
    ∃ c, buffer[i]? = some c ∧ store (escapedByte c) (destination - (escapedByte c).length) buffer =
        some (InPlace.overwrite (escapedByte c) (destination - (escapedByte c).length) buffer) ∧
      expandLoop (i + 1) destination buffer = expandLoop i (destination - (escapedByte c).length)
        (InPlace.overwrite (escapedByte c) (destination - (escapedByte c).length) buffer) := by
  have hlt : i < text.length := h.le
  have hc : buffer[i]? = some text[i] := h.getElem?_eq.trans (List.getElem?_eq_getElem hlt)
  generalize text[i] = c at hc
  obtain ⟨hroom, -⟩ := h.step one_le_escapedByte hc
  have hle := h.destination_le
  have hstore : store (escapedByte c) (destination - (escapedByte c).length) buffer =
      some (InPlace.overwrite (escapedByte c) (destination - (escapedByte c).length) buffer) := store_eq (by omega)
  refine ⟨c, hc, hstore, ?_⟩
  rw [expandLoop, hc]
  dsimp only
  by_cases hcontrol : c < 0x20
  · have hesc : escapedByte c = controlEscape c := if_pos hcontrol
    have hsix : (controlEscape c).length = 6 := rfl
    rw [hesc, hsix] at hroom hstore ⊢
    rw [if_pos hcontrol, if_neg (Nat.not_lt.2 hroom), hstore, Option.bind_some]
  · have hesc : escapedByte c = [c] := if_neg hcontrol
    rw [hesc, List.length_singleton] at hroom hstore ⊢
    rw [if_neg hcontrol, if_neg (Nat.not_lt.2 hroom), hstore, Option.bind_some]

/-- The loop overwrites nothing that it has not read, and leaves the escaped text. -/
theorem expandLoop_eq (h : InPlace.Backward escapedByte text start buffer i destination) :
    expandLoop i destination buffer = some (escapeControls text ++ start.drop (escapeControls text).length) := by
  induction i generalizing destination buffer with
  | zero =>
    rw [expandLoop, h.finish]
    rfl
  | succ i ih =>
    obtain ⟨c, hc, -, hround⟩ := expandLoop_succ h
    rw [hround]
    exact ih (h.step one_le_escapedByte hc).2

/-! ## Sizes -/

/-- Standard output: a character of a text is written as it is, or as an escape
of at most six printable characters; a number takes at most 24. -/
structure JsonWriter.Standard (w : JsonWriter) : Prop where
  char : ∀ ch, w.char ch = [ch] ∨ (w.char ch).length ≤ 6 ∧ ∀ c ∈ w.char ch, ¬c < 0x20
  integer : ∀ n : Int, -2 ^ 63 ≤ n → n < 2 ^ 64 → (w.integer n).length ≤ 24 ∧ ∀ c ∈ w.integer n, ¬c < 0x20
  real : ∀ bits, isfinite bits = true → (w.real bits).length ≤ 24 ∧ ∀ c ∈ w.real bits, ¬c < 0x20

/-- The length in the end. -/
def size (text : List UInt8) : Nat := (escapeControls text).length

theorem size_append (a b : List UInt8) : size (a ++ b) = size a + size b := by
  unfold size
  rw [escapeControls_append, List.length_append]

theorem size_cons (c : UInt8) (text : List UInt8) : size (c :: text) = size [c] + size text := size_append [c] text

/-- Without control characters nothing is escaped. -/
theorem size_plain {text : List UInt8} (h : ∀ c ∈ text, ¬c < 0x20) : size text = text.length := by
  have hnone : text.countP (· < 0x20) = 0 := List.countP_eq_zero.2 fun c hc => by
    rw [decide_eq_true_eq]
    exact h c hc
  unfold size
  rw [length_escapeControls, hnone, Nat.zero_mul, Nat.add_zero]

theorem length_le_size (text : List UInt8) : text.length ≤ size text := by
  unfold size
  rw [length_escapeControls]
  omega

theorem size_name {text : List UInt8} (h : ∀ c ∈ text, ¬c < 0x20) : size (name text) = text.length + 3 := by
  unfold name
  rw [size_cons, size_append, size_plain h, show size [34] = 1 from rfl, show size [34, 58] = 2 from rfl]
  omega

/-- Six bytes for each byte of a text. -/
theorem size_text_le (hw : w.Standard) (chars : List UInt8) : size (w.text chars) ≤ 6 * chars.length + 2 := by
  have hchars : size (chars.flatMap w.char) ≤ 6 * chars.length := by
    induction chars with
    | nil => exact Nat.le_refl 0
    | cons ch chars ih =>
      have hch : size (w.char ch) ≤ 6 := by
        rcases hw.char ch with hraw | ⟨hlen, hplain⟩
        · rw [hraw]
          unfold size escapeControls
          rw [List.flatMap_singleton]
          unfold escapedByte
          split
          · exact Nat.le_refl 6
          · exact (by decide : 1 ≤ 6)
        · rw [size_plain hplain]
          exact hlen
      rw [List.flatMap_cons, size_append, List.length_cons]
      omega
  unfold JsonWriter.text
  rw [size_cons, size_append, show size [34] = 1 from rfl]
  omega

theorem size_integer_le (hw : w.Standard) {n : Int} (hlo : -2 ^ 63 ≤ n) (hhi : n < 2 ^ 64) : size (w.integer n) ≤ 24 := by
  obtain ⟨hlen, hplain⟩ := hw.integer n hlo hhi
  rw [size_plain hplain]
  exact hlen

theorem size_natCast_le (hw : w.Standard) {n : Nat} (h : n < 2 ^ 64) : size (w.integer n) ≤ 24 :=
  size_integer_le hw (by omega) (by exact_mod_cast h)

/-- A value takes at most six times the room it has in the block, less its name. -/
theorem size_value_le (hw : w.Standard) {source : List UInt8} (hp : p.bytes = some source) (hlen : source.length ≤ logParamDataMaxLen) :
    size (w.value p) + 7 ≤ 6 * p.entry.length := by
  have hentry : p.entry.length = source.length + 3 := by
    rw [LogParam.entry_eq hp, List.length_append]
    simp only [List.length_cons, List.length_nil]
    omega
  rw [hentry]
  cases p with
  | signed value =>
    obtain rfl := Option.some.inj hp
    have hle : size (w.integer value.toInt) ≤ 24 :=
      size_integer_le hw value.le_toInt (Int.lt_of_lt_of_le value.toInt_lt (by decide))
    rw [length_littleEndian]
    exact (Nat.add_le_add_right hle 7).trans (by decide)
  | unsigned value =>
    obtain rfl := Option.some.inj hp
    have hle : size (w.integer value.toNat) ≤ 24 := size_natCast_le hw value.toNat_lt
    rw [length_littleEndian]
    exact (Nat.add_le_add_right hle 7).trans (by decide)
  | real bits =>
    obtain ⟨hfinite, hs⟩ := Option.ite_none_right_eq_some.1 hp
    obtain rfl := Option.some.inj hs
    obtain ⟨hle, hplain⟩ := hw.real bits hfinite
    rw [length_littleEndian]
    change size (w.real bits) + 7 ≤ _
    rw [size_plain hplain]
    exact (Nat.add_le_add_right hle 7).trans (by decide)
  | boolean value =>
    obtain rfl := Option.some.inj hp
    cases value with
    | true =>
      change size (literal "true") + 7 ≤ 6 * (1 + 3)
      decide
    | false =>
      change size (literal "false") + 7 ≤ 6 * (1 + 3)
      decide
  | text value =>
    cases value with
    | none => contradiction
    | some chars =>
      obtain rfl := Option.some.inj hp
      have hle : size (w.text (chars.takeWhile (· ≠ 0))) ≤ 6 * (chars.takeWhile (· ≠ 0)).length + 2 := size_text_le hw _
      have h160 : logParamDataMaxLen = 160 := rfl
      rw [List.length_append, List.length_take, List.length_singleton] at hlen ⊢
      change size (w.text (chars.takeWhile (· ≠ 0))) + 7 ≤ _
      omega

theorem not_control_of_isDigit {c : UInt8} (h : Decimal.isDigit c = true) : ¬c < 0x20 := by
  simp only [Decimal.isDigit, Bool.and_eq_true, decide_eq_true_eq] at h
  intro hlt
  exact absurd (UInt8.lt_of_le_of_lt h.1 hlt) (by decide)

theorem size_messageParam_le {i : Nat} (hi : i < logMaxParams) : size (messageParam w i p) ≤ size (w.value p) + 7 := by
  have h12 : logMaxParams = 12 := rfl
  have hdigits : ∀ c ∈ 112 :: Decimal.text (i + 1), ¬c < 0x20 := by
    intro c hc
    rcases List.mem_cons.1 hc with rfl | hc
    · decide
    · exact not_control_of_isDigit (Decimal.isDigit_of_mem hc)
  have hlen : (Decimal.text (i + 1)).length ≤ 2 := (Decimal.length_text_le_iff (by decide)).2 (by omega)
  have hcomma : size (if i = 0 then [] else [44]) ≤ 1 := by
    split <;> decide
  unfold messageParam
  rw [size_append, size_append, size_name hdigits, List.length_cons]
  omega

/-! ## Accepted records -/

/-- What a block accepted, it holds. -/
theorem holds_foldlM {qs : List LogParam} (h : Holds block qs)
    (hblock : ps.foldlM (fun (block : LogParamBlock) param => block.append param) block = some block') : Holds block' (qs ++ ps) := by
  induction ps generalizing block qs with
  | nil =>
    obtain rfl := Option.some.inj hblock
    rw [List.append_nil]
    exact h
  | cons p ps ih =>
    rw [List.foldlM_cons] at hblock
    obtain ⟨next, hnext, hrest⟩ := Option.bind_eq_some_iff.1 hblock
    have hall := ih (h.append hnext) hrest
    rwa [List.append_assoc, List.singleton_append] at hall

/-- The queue accepts records with a short source and a block it has filled. -/
theorem queued_holds {event : LogEvent} {queued : QueuedLogRecord} (h : event.queued = some queued) :
    queued.source.bytes.length ≤ logSourceMaxLen ∧ ∃ ps, Holds queued.params ps := by
  unfold LogEvent.queued at h
  dsimp only at h
  obtain ⟨hpass, h⟩ := Option.ite_none_left_eq_some.1 h
  obtain ⟨block, hblock, rfl⟩ := Option.map_eq_some_iff.1 h
  refine ⟨?_, _, holds_foldlM holds_empty hblock⟩
  have hshort := (List.takeWhile_sublist (p := fun ch : UInt8 => decide (ch ≠ 0))
    (l := (event.record.source.getD []).takeWhile (· ≠ 0))).length_le
  have hsource := (not_or.1 hpass).1
  have htake := List.length_take_le (logSourceMaxLen + 1)
    (((event.record.source.getD []).takeWhile (· ≠ 0)).takeWhile (· ≠ 0))
  change ((((event.record.source.getD []).takeWhile (· ≠ 0)).takeWhile (· ≠ 0)).take (logSourceMaxLen + 1)).length ≤ _
  rw [List.length_take]
  omega

/-- The text of a parameter ends at its first NUL, so what is read back is written like the parameter. -/
theorem JsonWriter.value_value (w : JsonWriter) (p : LogParam) : w.value p.value = w.value p := by
  cases p with
  | text chars =>
    cases chars with
    | none => rfl
    | some chars =>
      have hno : 0 ∉ chars.takeWhile (· ≠ 0) := noNul_takeWhile chars
      change w.text ((chars.takeWhile (· ≠ 0)).takeWhile (· ≠ 0)) = w.text (chars.takeWhile (· ≠ 0))
      rw [takeWhile_of_noNul hno]
  | _ => rfl

/-- A member of `messageparams` takes at most six times its entry in the block. -/
theorem size_member_le (hw : w.Standard) (h : Holds block ps) {k : Nat} (hp : ps[k]? = some p) :
    size (messageParam w k p.value) ≤ 6 * p.entry.length := by
  obtain ⟨hlt, -⟩ := List.getElem?_eq_some_iff.1 hp
  have hmem : p ∈ ps := List.mem_of_getElem? hp
  obtain ⟨source, hsource⟩ := h.valid p hmem
  have hroom : source.length ≤ logParamDataMaxLen := by
    have hentry : p.entry.Sublist (ps.flatMap LogParam.entry) := by
      rw [List.flatMap_def]
      exact List.sublist_flatten_of_mem (List.mem_map_of_mem hmem)
    have hpre := hentry.length_le
    have hused := h.used_le
    rw [LogParam.entry_eq hsource, List.length_append] at hpre
    omega
  have hcount := h.count_le
  refine (size_messageParam_le (by omega)).trans ?_
  rw [w.value_value]
  exact size_value_le hw hsource hroom

/-- The members of `messageparams` take at most six times the block. -/
theorem messageParams_size (hw : w.Standard) (h : Holds block ps) :
    ∃ params, messageParams w block = some params ∧ size params ≤ 6 * logParamDataMaxLen := by
  have hmembers : ∀ k, k ≤ ps.length → ∃ ms,
      ((List.range k).mapM fun i => (block.getParam i).map (messageParam w i)) = some ms ∧
        size ms.flatten ≤ 6 * ((ps.take k).flatMap LogParam.entry).length := by
    intro k
    induction k with
    | zero =>
      intro _
      exact ⟨[], rfl, Nat.le_refl 0⟩
    | succ k ih =>
      intro hk
      obtain ⟨ms, hms, hsize⟩ := ih (by omega)
      obtain ⟨p, hp, hget⟩ := getParam_holds h (show k < ps.length from hk)
      have hlt : k < ps.length := hk
      have hmember := size_member_le hw h hp
      have hentries : ((ps.take (k + 1)).flatMap LogParam.entry).length =
          ((ps.take k).flatMap LogParam.entry).length + p.entry.length := by
        rw [List.getElem?_eq_getElem hlt, Option.some_inj] at hp
        rw [List.take_succ_eq_append_getElem hlt, hp, List.flatMap_append, List.flatMap_singleton, List.length_append]
      refine ⟨ms ++ [messageParam w k p.value], ?_, ?_⟩
      · rw [List.range_succ, List.mapM_append, hms]
        simp [hget]
      · rw [List.flatten_append, size_append, hentries]
        simp only [List.flatten_cons, List.flatten_nil, List.append_nil]
        omega
  obtain ⟨ms, hms, hsize⟩ := hmembers ps.length (Nat.le_refl _)
  rw [List.take_length] at hsize
  have hused := h.used_le
  refine ⟨ms.flatten, ?_, by omega⟩
  unfold messageParams
  rw [h.count, hms]
  rfl

/-- A document with a short source, in the end. -/
theorem size_document_le (hw : w.Standard) {record : QueuedLogRecord} {params : List UInt8}
    (hsource : record.source.bytes.length ≤ logSourceMaxLen) : size (document w record params) ≤ size params + 336 := by
  have hnumber : ∀ n : Nat, n < 2 ^ 64 → size (w.integer n) ≤ 24 := fun n hn => size_natCast_le hw hn
  have htime := hnumber record.timestamp.toNat (Nat.lt_trans record.timestamp.toNat_lt (by decide))
  have harea := hnumber record.logArea.toNat (Nat.lt_trans record.logArea.toNat_lt (by decide))
  have hseverity := hnumber record.severity.toNat (Nat.lt_trans record.severity.toNat_lt (by decide))
  have hmessage := hnumber record.message.toNat (Nat.lt_trans record.message.toNat_lt (by decide))
  have htext := size_text_le hw record.source.bytes
  have h16 : logSourceMaxLen = 16 := rfl
  unfold document
  simp only [size_append]
  rw [show size [123] = 1 from rfl, show size (name (literal "_command_")) = 12 by decide, show size (literal "\"c_log\"") = 7 by decide,
    show size [44] = 1 from rfl, show size (name (literal "_timestamp_")) = 14 by decide, show size (name (literal "data")) = 7 by decide,
    show size (name (literal "source")) = 9 by decide, show size (name (literal "area")) = 7 by decide,
    show size (name (literal "severity")) = 11 by decide, show size (name (literal "message")) = 10 by decide,
    show size (name (literal "timestamp")) = 12 by decide, show size (name (literal "messageparams")) = 16 by decide,
    show size [125, 125, 125] = 3 from rfl]
  omega

/-! ## Every accepted record is sent -/

/-- A document that fits with its escapes is serialized. -/
theorem serializeLogRecord_eq (record : QueuedLogRecord) {params : List UInt8} (output : List UInt8)
    (hcount : record.params.count.toNat ≤ logMaxParams) (hparams : messageParams w record.params = some params)
    (hfits : size (document w record params) < output.length) :
    serializeLogRecord w record output = some (true, size (document w record params),
      escapeControls (document w record params) ++ 0 :: output.drop (size (document w record params) + 1)) := by
  unfold serializeLogRecord
  generalize htext : document w record params = text at hfits ⊢
  have hle := length_le_size text
  have hsize : size text = text.length + text.countP (· < 0x20) * 5 := length_escapeControls text
  have hstart : ¬(output = [] ∨ record.params.count.toNat > logMaxParams) := by
    rw [not_or]
    refine ⟨?_, Nat.not_lt.2 hcount⟩
    rintro rfl
    exact absurd hfits (Nat.not_lt_zero _)
  rw [if_neg hstart, hparams]
  dsimp only
  rw [htext, ← hsize]
  generalize hserialized : text ++ 0 :: output.drop (text.length + 1) = buffer
  have hlen : buffer.length = output.length := by
    rw [← hserialized, List.length_append, List.length_cons, List.length_drop]
    omega
  rw [if_neg (by omega), hlen, if_neg (by omega)]
  -- The NUL goes behind the place where the text will end.
  have hroom : size text + [0].length ≤ buffer.length := by
    rw [hlen]
    exact hfits
  have hbackward : InPlace.Backward escapedByte text (InPlace.overwrite [0] (size text) buffer)
      (InPlace.overwrite [0] (size text) buffer) text.length (size text) := by
    refine .begin ?_ ?_
    · rw [InPlace.take_overwrite hle (by omega), ← hserialized, List.take_left]
    · rw [InPlace.length_overwrite hroom]
      exact Nat.le_of_lt hroom
  have hdrop : buffer.drop (size text + 1) = output.drop (size text + 1) := by
    have hpast : (text ++ [0]).length = text.length + 1 := by rw [List.length_append, List.length_singleton]
    have hsum : text.length + 1 + (size text + 1 - (text.length + 1)) = size text + 1 := by omega
    rw [← hserialized, ← List.singleton_append, ← List.append_assoc, List.drop_append, hpast, List.drop_of_length_le (by omega),
      List.nil_append, List.drop_drop, hsum]
  have hend : (InPlace.overwrite [0] (size text) buffer).drop (escapeControls text).length = 0 :: output.drop (size text + 1) := by
    rw [show (escapeControls text).length = size text from rfl, InPlace.drop_overwrite (by omega), List.length_singleton, hdrop,
      List.singleton_append]
  rw [store_eq hroom, Option.bind_some, expandLoop_eq hbackward, Option.map_some, hend]

/-- A text of the size that fits is put into a frame. -/
theorem textFrame_eq (mask : Fin 4 → UInt8) (text : List UInt8) (h : text.length + 8 ≤ logWsFrameMaxLen) :
    ∃ frame, textFrame mask text = some frame ∧ frame.length ≤ logWsFrameMaxLen := by
  have h1536 : logWsFrameMaxLen = 1536 := rfl
  unfold textFrame
  dsimp only
  rw [if_neg (by omega)]
  generalize hheader : [0x81] ++ (if text.length < 126 then [0x80 ||| text.length.toUInt8]
    else [0x80 ||| 126, (text.length / 256).toUInt8, text.length.toUInt8]) ++ List.ofFn mask = header
  have hlen : header.length ≤ 8 := by
    rw [← hheader, List.length_append, List.length_append, List.length_ofFn]
    split
    · exact (by decide : 1 + 1 + 4 ≤ 8)
    · exact (by decide : 1 + 3 + 4 ≤ 8)
  rw [if_neg (by omega)]
  refine ⟨_, rfl, ?_⟩
  rw [List.length_append, List.length_mapIdx]
  omega

/-- No record blocks the queue. Whatever event `sendOrQueue` accepts, its record
is serialized into the buffer of `sendNow`, whatever is in that buffer, and the
text fits into a frame, as long as ArduinoJson writes standard output. -/
theorem accepted_fits (w : JsonWriter) (hw : w.Standard) (event : LogEvent) (queued : QueuedLogRecord)
    (haccepted : event.queued = some queued) (sequence : UInt32) (output : List UInt8)
    (hcapacity : output.length = logWsFrameMaxLen - 8) (mask : Fin 4 → UInt8) :
    ∃ written output' frame,
      serializeLogRecord w { queued with sequence := sequence } output = some (true, written, output') ∧
        written + 8 ≤ logWsFrameMaxLen ∧ textFrame mask (output'.take written) = some frame ∧
        frame.length ≤ logWsFrameMaxLen := by
  obtain ⟨hsource, ps, hold⟩ := queued_holds haccepted
  obtain ⟨params, hparams, hsize⟩ := messageParams_size hw hold
  have h160 : logParamDataMaxLen = 160 := rfl
  have h1536 : logWsFrameMaxLen = 1536 := rfl
  have hdocument : size (document w { queued with sequence := sequence } params) ≤ size params + 336 :=
    size_document_le hw hsource
  have hcount : queued.params.count.toNat ≤ logMaxParams := by
    rw [hold.count]
    exact hold.count_le
  have hserialized := serializeLogRecord_eq { queued with sequence := sequence } output hcount hparams (by omega)
  generalize document w { queued with sequence := sequence } params = text at hdocument hserialized
  have htext : (escapeControls text ++ 0 :: output.drop (size text + 1)).take (size text) = escapeControls text :=
    List.take_left' rfl
  obtain ⟨frame, hframe, hfits⟩ := textFrame_eq mask (escapeControls text) (by
    change size text + 8 ≤ _
    omega)
  refine ⟨_, _, frame, hserialized, by omega, ?_, hfits⟩
  rw [htext]
  exact hframe

/-- ArduinoJson on texts, integers and zero. -/
def arduinoJson : JsonWriter where
  char ch :=
    if ch = 34 ∨ ch = 92 then [92, ch]
    else if ch = 8 then [92, 98]
    else if ch = 12 then [92, 102]
    else if ch = 10 then [92, 110]
    else if ch = 13 then [92, 114]
    else if ch = 9 then [92, 116]
    else if ch = 0 then controlEscape 0
    else [ch]
  integer n := (if n < 0 then [45] else []) ++ Decimal.text n.natAbs
  real _ := [48]

theorem standard_arduinoJson : arduinoJson.Standard where
  char := by
    intro ch
    have hescape : ∀ bytes : List UInt8, bytes.length ≤ 6 → (bytes.all fun c => !decide (c < 0x20)) = true →
        bytes = [ch] ∨ bytes.length ≤ 6 ∧ ∀ c ∈ bytes, ¬c < 0x20 := by
      intro bytes hlen hall
      refine Or.inr ⟨hlen, fun c hc => ?_⟩
      simpa using List.all_eq_true.1 hall c hc
    simp only [arduinoJson]
    split
    · rename_i h
      rcases h with rfl | rfl <;> exact hescape _ (by decide) (by decide)
    · repeat' split
      all_goals first
        | exact Or.inl rfl
        | exact hescape _ (by decide) (by decide)
  integer := by
    intro n hlo hhi
    have hlen : (Decimal.text n.natAbs).length ≤ 20 := (Decimal.length_text_le_iff (by decide)).2 (by omega)
    have hdigits : ∀ c ∈ Decimal.text n.natAbs, ¬c < 0x20 := fun c hc => not_control_of_isDigit (Decimal.isDigit_of_mem hc)
    simp only [arduinoJson]
    rw [List.length_append]
    constructor
    · split
      · rw [List.length_singleton]
        omega
      · rw [List.length_nil]
        omega
    · intro c hc
      rcases List.mem_append.1 hc with hsign | hc
      · split at hsign
        · rw [List.mem_singleton.1 hsign]
          decide
        · contradiction
      · exact hdigits c hc
  real := by
    intro bits _
    refine ⟨(by decide : 1 ≤ 24), fun c hc => ?_⟩
    rw [List.mem_singleton.1 hc]
    decide

/-- An event whose parameter is a control character. -/
def controlEvent : LogEvent :=
  { record := { severity := 1, logArea := 2, source := some (literal "x"), message := 3, timestamp := 4 }
    params := some [.text (some [1])]
    paramCount := 1 }

theorem accepted_fits_control :
    ∃ queued written output' frame, controlEvent.queued = some queued ∧
      serializeLogRecord arduinoJson { queued with sequence := 7 } (List.replicate 1528 0) = some (true, written, output') ∧
        written + 8 ≤ logWsFrameMaxLen ∧ textFrame (fun _ => 5) (output'.take written) = some frame ∧
        frame.length ≤ logWsFrameMaxLen := by
  have haccepted : controlEvent.queued.isSome = true := by decide
  obtain ⟨queued, hqueued⟩ := Option.isSome_iff_exists.1 haccepted
  obtain ⟨written, output', frame, h⟩ := accepted_fits arduinoJson standard_arduinoJson controlEvent queued hqueued 7
    (List.replicate 1528 0) List.length_replicate fun _ => 5
  exact ⟨queued, written, output', frame, hqueued, h⟩

end OrangeBox.Logging
