import OrangeBox.Lib.Hexadecimal
import OrangeBox.Logging.Serialization
/-!
# Control characters escaped in place

The loop of `serializeLogRecord` that goes back over the text, round by round.
It reads every byte of the text before it writes over it, and leaves the text
with each control character as `\u00XX` (`serialized_escaped`).
-/
open InPlace

namespace OrangeBox.Logging

variable {w : JsonWriter} {text start buffer : List UInt8} {i destination k : Nat}

/-! ## The rounds -/

/-- A round of the loop for the byte `i`: the destination and the buffer after it,
`none` when it leaves the buffer. -/
def expandRound (i destination : Nat) (output : List UInt8) : Option (Nat × List UInt8) :=
  match output[i]? with
  | none => none
  | some c =>
    if c < 0x20 then
      if destination < 6 then none
      else (store (controlEscape c) (destination - 6) output).map fun output => (destination - 6, output)
    else
      if destination < 1 then none
      else (store [c] (destination - 1) output).map fun output => (destination - 1, output)

/-- At most `k` rounds: `i`, the destination and the buffer after them. -/
def expandRounds : Nat → Nat × Nat × List UInt8 → Option (Nat × Nat × List UInt8)
  | k + 1, (i + 1, destination, output) => (expandRound i destination output).bind fun s => expandRounds k (i, s)
  | _, s => some s

theorem expandLoop_round (i destination : Nat) (output : List UInt8) :
    expandLoop (i + 1) destination output = (expandRound i destination output).bind fun s => expandLoop i s.1 s.2 := by
  rw [expandLoop, expandRound]
  cases output[i]? with
  | none => rfl
  | some c =>
    dsimp only
    split
    · split
      · rfl
      · rw [Option.bind_map]
        rfl
    · split
      · rfl
      · rw [Option.bind_map]
        rfl

/-- The loop is its rounds. -/
theorem expandLoop_eq_rounds (i destination : Nat) (output : List UInt8) :
    expandLoop i destination output = (expandRounds i (i, destination, output)).map fun s => s.2.2 := by
  induction i generalizing destination output with
  | zero => rfl
  | succ i ih =>
    rw [expandLoop_round, expandRounds, Option.map_bind]
    congr 1
    funext s
    exact ih s.1 s.2

/-- A round goes one byte back. -/
theorem expandRound_eq (h : Backward escapedByte text start buffer (i + 1) destination) :
    ∃ destination' buffer', expandRound i destination buffer = some (destination', buffer') ∧
      Backward escapedByte text start buffer' i destination' := by
  obtain ⟨c, hc, hstore, -⟩ := expandLoop_succ h
  obtain ⟨hroom, hnext⟩ := h.step one_le_escapedByte hc
  refine ⟨_, _, ?_, hnext⟩
  rw [expandRound, hc]
  dsimp only
  by_cases hcontrol : c < 0x20
  · have hesc : escapedByte c = controlEscape c := if_pos hcontrol
    have hsix : (controlEscape c).length = 6 := rfl
    rw [hesc, hsix] at hroom hstore ⊢
    rw [if_pos hcontrol, if_neg (Nat.not_lt.2 hroom), hstore, Option.map_some]
  · have hesc : escapedByte c = [c] := if_neg hcontrol
    rw [hesc, List.length_singleton] at hroom hstore ⊢
    rw [if_neg hcontrol, if_neg (Nat.not_lt.2 hroom), hstore, Option.map_some]

/-- No round leaves the buffer, and each leaves the bytes still to be read. -/
theorem expandRounds_eq (h : Backward escapedByte text start buffer i destination) (hk : k ≤ i) :
    ∃ destination' buffer', expandRounds k (i, destination, buffer) = some (i - k, destination', buffer') ∧
      Backward escapedByte text start buffer' (i - k) destination' := by
  induction k generalizing i destination buffer with
  | zero => exact ⟨destination, buffer, rfl, h⟩
  | succ k ih =>
    obtain ⟨i, rfl⟩ := Nat.exists_eq_add_one_of_ne_zero (Nat.ne_of_gt (Nat.lt_of_lt_of_le (Nat.succ_pos k) hk))
    obtain ⟨destination', buffer', hround, h'⟩ := expandRound_eq h
    obtain ⟨destination'', buffer'', hrounds, h''⟩ := ih h' (Nat.le_of_succ_le_succ hk)
    rw [Nat.add_sub_add_right]
    exact ⟨destination'', buffer'', by rw [expandRounds, hround, Option.bind_some, hrounds], h''⟩

/-! ## The text in the end -/

/-- A byte in a JSON text: a control character as `\u00XX`, any other as it is. -/
def jsonByte (c : UInt8) : List UInt8 := if c < 0x20 then literal "\\u00" ++ Hexadecimal.digits c else [c]

theorem controlEscape_eq {c : UInt8} (h : c < 0x20) : controlEscape c = literal "\\u00" ++ Hexadecimal.digits c := by
  have hall : ∀ n < 32, controlEscape (UInt8.ofNat n) = literal "\\u00" ++ Hexadecimal.digits (UInt8.ofNat n) := by decide
  have hc := hall c.toNat (UInt8.lt_iff_toNat_lt.1 h)
  rwa [UInt8.ofNat_toNat] at hc

theorem escapedByte_eq : escapedByte = jsonByte := by
  funext c
  unfold escapedByte jsonByte
  by_cases hc : c < 0x20
  · rw [if_pos hc, if_pos hc, controlEscape_eq hc]
  · rw [if_neg hc, if_neg hc]

/-- `expanded` of `serializeLogRecord`: `n + 5c`. -/
def expandedSize (text : List UInt8) : Nat := text.length + text.countP (· < 0x20) * 5

theorem size_eq_expandedSize (text : List UInt8) : size text = expandedSize text := length_escapeControls text

/-- A document that does not fit with its escapes is refused. -/
theorem serializeLogRecord_refused (record : QueuedLogRecord) {params : List UInt8} (output : List UInt8)
    (hparams : messageParams w record.params = some params) (hfits : output.length ≤ size (document w record params)) :
    ∃ output', serializeLogRecord w record output = some (false, 0, output') := by
  unfold serializeLogRecord
  split
  · exact ⟨output, rfl⟩
  · rw [hparams]
    dsimp only
    generalize document w record params = text at hfits ⊢
    by_cases hlen : output.length ≤ text.length
    · rw [if_pos hlen]
      exact ⟨output, rfl⟩
    · have hsame : (text ++ 0 :: output.drop (text.length + 1)).length = output.length := by
        rw [List.length_append, List.length_cons, List.length_drop]
        omega
      have hsize : size text = text.length + text.countP (· < 0x20) * 5 := size_eq_expandedSize text
      rw [if_neg hlen, if_pos (by omega)]
      exact ⟨_, rfl⟩

/-- The escaping of a serialized text of `n` bytes with `c` control characters
in a buffer of more than `n + 5c`: the text with its escapes and a NUL, and
after any number of rounds the bytes still to be read are those of the text.
In a smaller buffer nothing is written. -/
theorem serialized_escaped (w : JsonWriter) (record : QueuedLogRecord) (params : List UInt8)
    (hcount : record.params.count.toNat ≤ logMaxParams) (hparams : messageParams w record.params = some params) :
    (∀ output : List UInt8,
      (expandedSize (document w record params) < output.length →
        serializeLogRecord w record output = some (true, expandedSize (document w record params),
          (document w record params).flatMap jsonByte ++ 0 :: output.drop (expandedSize (document w record params) + 1))) ∧
      (output.length ≤ expandedSize (document w record params) →
        ∃ output', serializeLogRecord w record output = some (false, 0, output'))) ∧
    ∀ text buffer : List UInt8, buffer.take text.length = text → expandedSize text < buffer.length →
      expandLoop text.length (expandedSize text) buffer =
        (expandRounds text.length (text.length, expandedSize text, buffer)).map (fun s => s.2.2) ∧
      ∀ k ≤ text.length, ∃ destination now,
        expandRounds k (text.length, expandedSize text, buffer) = some (text.length - k, destination, now) ∧
          text.length - k ≤ destination ∧ now.length = buffer.length ∧
          now.take (text.length - k) = text.take (text.length - k) ∧
          now.drop destination = (text.drop (text.length - k)).flatMap jsonByte ++ buffer.drop (expandedSize text) := by
  constructor
  · intro output
    rw [← size_eq_expandedSize]
    refine ⟨fun hfits => ?_, fun hfits => serializeLogRecord_refused record output hparams hfits⟩
    rw [serializeLogRecord_eq record output hcount hparams hfits, ← escapedByte_eq]
    rfl
  · intro text buffer htext hfits
    refine ⟨expandLoop_eq_rounds _ _ _, fun k hk => ?_⟩
    rw [← size_eq_expandedSize] at hfits ⊢
    have hstart : Backward escapedByte text buffer buffer text.length (size text) := .begin htext (Nat.le_of_lt hfits)
    obtain ⟨destination, now, hrounds, h⟩ := expandRounds_eq hstart hk
    refine ⟨destination, now, hrounds, h.le_destination one_le_escapedByte, h.length_eq, h.unread, ?_⟩
    rw [h.written, ← escapedByte_eq]
    rfl

/-- A record whose source is a control character. -/
def controlRecord : QueuedLogRecord := { QueuedLogRecord.zero with source := ⟨[1], by decide, by decide⟩ }

theorem serialized_escaped_control : ∃ output, serializeLogRecord arduinoJson controlRecord (List.replicate 200 9) =
    some (true, expandedSize (document arduinoJson controlRecord []), (document arduinoJson controlRecord []).flatMap jsonByte ++ 0 :: output) := by
  obtain ⟨hserialized, -⟩ := serialized_escaped arduinoJson controlRecord [] (by decide) rfl
  exact ⟨_, (hserialized _).1 (by decide +kernel)⟩

end OrangeBox.Logging
