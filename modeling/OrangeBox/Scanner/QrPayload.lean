import OrangeBox.Lib.Hexadecimal
import OrangeBox.Text
/-!
# Commands of the scanner

`QrPayload::parse` of `qr_payload.h`: a command is spelled by hexadecimal digits
behind the prefix `hex`, or by a text with escapes. `Spells` is the grammar of
both, and the parser takes what it spells (`parse_spells`).
-/

namespace OrangeBox.QrPayload

/-- `hexValue`, `none` for -1. -/
def hexValue (ch : UInt8) : Option UInt8 :=
  if 48 ≤ ch ∧ ch ≤ 57 then some (ch - 48)
  else if 97 ≤ ch ∧ ch ≤ 102 then some (ch - 97 + 10)
  else if 65 ≤ ch ∧ ch ≤ 70 then some (ch - 65 + 10)
  else none

/-- A space or a tab. -/
def isBlank (ch : UInt8) : Bool := ch == 32 || ch == 9

/-- A blank, a comma, a colon or a dash. -/
def isSeparator (ch : UInt8) : Bool := isBlank ch || ch == 44 || ch == 58 || ch == 45

/-- What `parse` returns, and the `length` bytes it has stored. -/
structure Parsed where
  accepted : Bool
  stored : List UInt8
  deriving DecidableEq

/-- The loop over the digits; `high` is `none` for -1. -/
def hexLoop (capacity : Nat) : List UInt8 → Option UInt8 → List UInt8 → Parsed
  | [], high, stored => ⟨high.isNone && !stored.isEmpty, stored⟩
  | ch :: input, high, stored =>
    if isSeparator ch then hexLoop capacity input high stored
    else
      match hexValue ch, high with
      | none, _ => ⟨false, stored⟩
      | some digit, none => hexLoop capacity input (some digit) stored
      | some digit, some high =>
        if stored.length = capacity then ⟨false, stored⟩
        else hexLoop capacity input none (stored ++ [(high <<< 4) ||| digit])

/-- The value that a character gives, with `input` behind it, and what follows;
`none` for a bad `\x`. -/
def value (ch : UInt8) (input : List UInt8) : Option (UInt8 × List UInt8) :=
  if ch = 92 then
    match input with
    | [] => some (ch, [])
    | escaped :: input =>
      if escaped = 114 then some (13, input)
      else if escaped = 110 then some (10, input)
      else if escaped = 116 then some (9, input)
      else if escaped = 48 then some (0, input)
      else if escaped = 92 then some (92, input)
      else if escaped = 120 then
        match input with
        | high :: low :: input =>
          match hexValue high, hexValue low with
          | some high, some low => some ((high <<< 4) ||| low, input)
          | _, _ => none
        | _ => none
      else some (escaped, input)
  else some (ch, input)

theorem length_value {ch v : UInt8} {input rest : List UInt8} (h : value ch input = some (v, rest)) : rest.length ≤ input.length := by
  unfold value at h
  grind

/-- The loop over a text. -/
def textLoop (capacity : Nat) (input stored : List UInt8) : Parsed :=
  match input with
  | [] => ⟨true, stored⟩
  | ch :: input =>
    match _hvalue : value ch input with
    | none => ⟨false, stored⟩
    | some (v, rest) => if stored.length = capacity then ⟨false, stored⟩ else textLoop capacity rest (stored ++ [v])
termination_by input.length
decreasing_by exact Nat.lt_succ_of_le (length_value _hvalue)

/-- The prefix `hex` with a colon or a blank. -/
def hexPrefix (input : List UInt8) : Bool :=
  input.take 3 == [104, 101, 120] && (match input[3]? with
    | none => false
    | some ch => ch == 58 || isBlank ch)

/-- `parse`; the pointers may be null, `output` tells whether that one is not. -/
def parse (input : Option (List UInt8)) (output : Bool) (capacity : Nat) : Parsed :=
  match input with
  | none => ⟨false, []⟩
  | some chars =>
    if output = false then ⟨false, []⟩
    else
      let input := (chars.takeWhile (· ≠ 0)).dropWhile isBlank
      if hexPrefix input then
        let input := (input.drop 3).dropWhile isBlank
        hexLoop capacity (if input.head? = some 58 then input.tail else input) none []
      else textLoop capacity input []

/-! ## The grammar -/

/-- Digits among separators. -/
inductive Digits : List UInt8 → List Nat → Prop
  | nil : Digits [] []
  | separator {ch : UInt8} {chars : List UInt8} {ds : List Nat} (h : isSeparator ch = true) (hrest : Digits chars ds) :
      Digits (ch :: chars) ds
  | digit {ch : UInt8} {n : Nat} {chars : List UInt8} {ds : List Nat} (h : Hexadecimal.IsDigit ch n) (hrest : Digits chars ds) :
      Digits (ch :: chars) (n :: ds)

/-- The characters of one byte of a text. -/
inductive Item : List UInt8 → UInt8 → Prop
  | plain {ch : UInt8} (h : ch ≠ 92) : Item [ch] ch
  | cr : Item [92, 114] 13
  | lf : Item [92, 110] 10
  | tab : Item [92, 116] 9
  | nul : Item [92, 48] 0
  | hex {high low v : UInt8} {n m : Nat} (hhigh : Hexadecimal.IsDigit high n) (hlow : Hexadecimal.IsDigit low m)
      (hv : Hexadecimal.nibbles v = [n, m]) : Item [92, 120, high, low] v
  | itself {ch : UInt8} (h : ch ∉ [114, 110, 116, 48, 120]) : Item [92, ch] ch

/-- A text and its bytes. A backslash at its end stands for itself. -/
inductive Unescapes : List UInt8 → List UInt8 → Prop
  | nil : Unescapes [] []
  | backslash : Unescapes [92] [92]
  | item {chars text bytes : List UInt8} {v : UInt8} (h : Item chars v) (hrest : Unescapes text bytes) :
      Unescapes (chars ++ text) (v :: bytes)

/-- `hex` and a colon or a blank. -/
def IsHex (text : List UInt8) : Prop := ∃ ch body, text = 104 :: 101 :: 120 :: ch :: body ∧ (ch = 58 ∨ isBlank ch = true)

/-- A text that begins with `hex` and a colon or a blank spells bytes by their
digits, at least one byte; another spells them with escapes. -/
inductive Spells : List UInt8 → List UInt8 → Prop
  | hex {ch : UInt8} {body bytes : List UInt8} (hch : ch = 58 ∨ isBlank ch = true)
      (h : Digits body (bytes.flatMap Hexadecimal.nibbles)) (hne : bytes ≠ []) :
      Spells (104 :: 101 :: 120 :: ch :: body) bytes
  | text {text bytes : List UInt8} (hnot : ¬IsHex text) (h : Unescapes text bytes) : Spells text bytes

variable {capacity n : Nat} {ch v : UInt8} {high : Option UInt8} {input text rest chars body stored bytes : List UInt8} {ds : List Nat}

/-! ## Digits -/

theorem hexValue_iff : hexValue ch = some v ↔ Hexadecimal.IsDigit ch v.toNat := by
  have hlt := ch.toNat_lt
  have hv := v.toNat_lt
  rw [Hexadecimal.isDigit_iff]
  unfold hexValue
  simp only [UInt8.le_iff_toNat_le, UInt8.reduceToNat]
  split_ifs <;> simp only [Option.some_inj, ← UInt8.toNat_inj, UInt8.toNat_add, UInt8.toNat_sub, UInt8.reduceToNat,
    false_iff] <;> omega

theorem isSeparator_iff : isSeparator ch = true ↔ ch = 32 ∨ ch = 9 ∨ ch = 44 ∨ ch = 58 ∨ ch = 45 := by
  simp only [isSeparator, isBlank, Bool.or_eq_true, beq_iff_eq, or_assoc]

theorem not_separator_of_isDigit (h : Hexadecimal.IsDigit ch n) : ¬isSeparator ch = true := by
  intro hsep
  rw [Hexadecimal.isDigit_iff] at h
  rcases isSeparator_iff.1 hsep with rfl | rfl | rfl | rfl | rfl <;> simp only [UInt8.reduceToNat] at h <;> omega

theorem hexValue_of_isDigit (h : Hexadecimal.IsDigit ch n) : ∃ digit, hexValue ch = some digit ∧ digit.toNat = n := by
  have hn : n.toUInt8.toNat = n := UInt8.toNat_ofNat_of_lt' (Nat.lt_trans h.lt (by decide))
  exact ⟨n.toUInt8, hexValue_iff.2 (by rwa [hn]), hn⟩

theorem hexLoop_separator (h : isSeparator ch = true) : hexLoop capacity (ch :: input) high stored = hexLoop capacity input high stored := by
  rw [hexLoop.eq_def]
  exact if_pos h

theorem hexLoop_bad (h : ¬isSeparator ch = true) (hvalue : hexValue ch = none) :
    hexLoop capacity (ch :: input) high stored = ⟨false, stored⟩ := by
  rw [hexLoop.eq_def]
  dsimp only
  rw [if_neg h, hvalue]

theorem hexLoop_high {digit : UInt8} (hvalue : hexValue ch = some digit) :
    hexLoop capacity (ch :: input) none stored = hexLoop capacity input (some digit) stored := by
  rw [hexLoop.eq_def]
  dsimp only
  rw [if_neg (not_separator_of_isDigit (hexValue_iff.1 hvalue)), hvalue]

theorem hexLoop_low {digit first : UInt8} (hvalue : hexValue ch = some digit) :
    hexLoop capacity (ch :: input) (some first) stored =
      if stored.length = capacity then ⟨false, stored⟩ else hexLoop capacity input none (stored ++ [(first <<< 4) ||| digit]) := by
  rw [hexLoop.eq_def]
  dsimp only
  rw [if_neg (not_separator_of_isDigit (hexValue_iff.1 hvalue)), hvalue]

/-- The digit that waits for another. -/
def pending (high : Option UInt8) : List Nat := (high.map UInt8.toNat).toList

/-- What the loop accepts is spelled by the digits that it has read. -/
theorem digits_of_hexLoop (hhigh : ∀ digit ∈ high, digit.toNat < 16) (hst : stored.length ≤ capacity)
    (h : hexLoop capacity input high stored = ⟨true, bytes⟩) :
    ∃ ds new, Digits input ds ∧ pending high ++ ds = new.flatMap Hexadecimal.nibbles ∧ bytes = stored ++ new ∧
      bytes ≠ [] ∧ bytes.length ≤ capacity := by
  induction input generalizing high stored with
  | nil =>
    simp only [hexLoop, Parsed.mk.injEq, Bool.and_eq_true, Option.isNone_iff_eq_none, Bool.not_eq_true', List.isEmpty_eq_false_iff] at h
    obtain ⟨⟨rfl, hne⟩, rfl⟩ := h
    exact ⟨[], [], .nil, rfl, (List.append_nil _).symm, hne, hst⟩
  | cons ch input ih =>
    by_cases hsep : isSeparator ch = true
    · rw [hexLoop_separator hsep] at h
      obtain ⟨ds, new, hds, hrest⟩ := ih hhigh hst h
      exact ⟨ds, new, .separator hsep hds, hrest⟩
    cases hvalue : hexValue ch with
    | none =>
      rw [hexLoop_bad hsep hvalue] at h
      cases h
    | some digit =>
      have hdigit := hexValue_iff.1 hvalue
      cases high with
      | none =>
        rw [hexLoop_high hvalue] at h
        obtain ⟨ds, new, hds, hspell, hrest⟩ := ih (by simpa using hdigit.lt) hst h
        exact ⟨digit.toNat :: ds, new, .digit hdigit hds, hspell, hrest⟩
      | some first =>
        rw [hexLoop_low hvalue] at h
        split at h
        · cases h
        have hgrown : (stored ++ [(first <<< 4) ||| digit]).length ≤ capacity := by
          rw [List.length_append, List.length_singleton]
          omega
        obtain ⟨ds, new, hds, hspell, hbytes, hrest⟩ := ih (by simp) hgrown h
        refine ⟨digit.toNat :: ds, ((first <<< 4) ||| digit) :: new, .digit hdigit hds, ?_, ?_, hrest⟩
        · rw [List.flatMap_cons, Hexadecimal.nibbles_join (hhigh first rfl) hdigit.lt, ← hspell]
          rfl
        · rw [hbytes, List.append_assoc, List.singleton_append]

/-- The loop accepts what the digits spell, if there is room. -/
theorem hexLoop_of_digits {new : List UInt8} (hdigits : Digits input ds) (hhigh : ∀ digit ∈ high, digit.toNat < 16)
    (hspell : pending high ++ ds = new.flatMap Hexadecimal.nibbles) (hne : stored ++ new ≠ [])
    (hfits : (stored ++ new).length ≤ capacity) : hexLoop capacity input high stored = ⟨true, stored ++ new⟩ := by
  induction hdigits generalizing high stored new with
  | nil =>
    have hlen := congrArg List.length hspell
    rw [Hexadecimal.length_nibbles, List.append_nil] at hlen
    cases high with
    | none =>
      have hnil : new = [] := by
        apply List.eq_nil_of_length_eq_zero
        change 0 = _ at hlen
        omega
      rw [hnil, List.append_nil] at hne ⊢
      simp [hexLoop, hne]
    | some high =>
      change 1 = _ at hlen
      omega
  | separator hsep hrest ih =>
    rw [hexLoop_separator hsep]
    exact ih hhigh hspell hne hfits
  | digit hdigit hrest ih =>
    obtain ⟨digit, hvalue, rfl⟩ := hexValue_of_isDigit hdigit
    cases high with
    | none =>
      rw [hexLoop_high hvalue]
      exact ih (by simpa using hdigit.lt) hspell hne hfits
    | some first =>
      -- The second digit of a byte completes the first of the bytes that are spelled.
      cases new with
      | nil => cases hspell
      | cons byte new =>
        obtain ⟨hfirst, hspell⟩ := List.cons.inj hspell
        obtain ⟨hsecond, hspell⟩ := List.cons.inj hspell
        have hbyte : (first <<< 4) ||| digit = byte := by
          apply Hexadecimal.nibbles_inj
          rw [Hexadecimal.nibbles_join (hhigh first rfl) hdigit.lt, hfirst, hsecond]
          rfl
        rw [List.length_append, List.length_cons] at hfits
        rw [hexLoop_low hvalue, if_neg (by omega), hbyte, List.append_cons stored byte new]
        refine ih (by simp) ?_ (by simp) ?_
        · exact hspell
        · simp only [List.length_append, List.length_singleton]
          omega

/-- Separators in front do not matter. -/
theorem digits_separators (h : ∀ ch ∈ chars, isSeparator ch = true) : Digits (chars ++ body) ds ↔ Digits body ds := by
  induction chars with
  | nil => rfl
  | cons ch chars ih =>
    have hsep := h ch List.mem_cons_self
    rw [← ih fun c hc => h c (List.mem_cons_of_mem _ hc), List.cons_append]
    constructor
    · intro hall
      cases hall with
      | separator _ hrest => exact hrest
      | digit hdigit _ => exact absurd hsep (not_separator_of_isDigit hdigit)
    · exact .separator hsep

theorem Digits.noNul (h : Digits chars ds) : 0 ∉ chars := by
  induction h with
  | nil => exact List.not_mem_nil
  | separator hsep _ ih =>
    rw [List.mem_cons, not_or]
    refine ⟨?_, ih⟩
    rintro rfl
    cases hsep
  | digit hdigit _ ih =>
    rw [List.mem_cons, not_or]
    refine ⟨?_, ih⟩
    rintro rfl
    rw [Hexadecimal.isDigit_iff] at hdigit
    simp only [UInt8.reduceToNat] at hdigit
    omega

/-! ## Escapes -/

theorem nibbles_of_digits {high low : UInt8} {m : Nat} (hhigh : Hexadecimal.IsDigit high n) (hlow : Hexadecimal.IsDigit low m)
    (hv : Hexadecimal.nibbles v = [n, m]) : ∃ first second, hexValue high = some first ∧ hexValue low = some second ∧
      (first <<< 4) ||| second = v := by
  obtain ⟨first, hfirst, rfl⟩ := hexValue_of_isDigit hhigh
  obtain ⟨second, hsecond, rfl⟩ := hexValue_of_isDigit hlow
  refine ⟨first, second, hfirst, hsecond, Hexadecimal.nibbles_inj ?_⟩
  rw [Hexadecimal.nibbles_join hhigh.lt hlow.lt, hv]

/-- An item is read whole. -/
theorem value_of_item (rest : List UInt8) (h : Item chars v) : ∃ ch tail, chars = ch :: tail ∧ value ch (tail ++ rest) = some (v, rest) := by
  cases h with
  | plain h => exact ⟨_, [], rfl, if_neg h⟩
  | cr => exact ⟨92, [114], rfl, rfl⟩
  | lf => exact ⟨92, [110], rfl, rfl⟩
  | tab => exact ⟨92, [116], rfl, rfl⟩
  | nul => exact ⟨92, [48], rfl, rfl⟩
  | hex hhigh hlow hv =>
    obtain ⟨first, second, hfirst, hsecond, rfl⟩ := nibbles_of_digits hhigh hlow hv
    refine ⟨92, _, rfl, ?_⟩
    simp [value, hfirst, hsecond]
  | itself h =>
    refine ⟨92, _, rfl, ?_⟩
    simp only [List.mem_cons, List.not_mem_nil, or_false, not_or] at h
    simp only [value, List.singleton_append, h, if_false, if_true]
    split_ifs with hback
    · rw [hback]
    · rfl

theorem Unescapes.eq_nil (h : Unescapes [] bytes) : bytes = [] := by
  generalize htext : ([] : List UInt8) = text at h
  cases h with
  | nil => rfl
  | backslash => cases htext
  | item hitem _ =>
    obtain ⟨ch, tail, rfl, _⟩ := value_of_item [] hitem
    cases htext

/-- What is read is an item, or a backslash at the end. -/
theorem item_of_value (h : value ch input = some (v, rest)) :
    (∃ chars, ch :: input = chars ++ rest ∧ Item chars v) ∨ (ch = 92 ∧ input = [] ∧ v = 92 ∧ rest = []) := by
  unfold value at h
  by_cases hch : ch = 92
  swap
  · rw [if_neg hch] at h
    cases h
    exact Or.inl ⟨[ch], rfl, .plain hch⟩
  rw [if_pos hch] at h
  subst hch
  cases input with
  | nil =>
    cases h
    exact Or.inr ⟨rfl, rfl, rfl, rfl⟩
  | cons escaped input =>
    left
    dsimp only at h
    split_ifs at h with hr hn ht h0 hback hx
    · cases h
      exact ⟨[92, 114], by rw [hr]; rfl, .cr⟩
    · cases h
      exact ⟨[92, 110], by rw [hn]; rfl, .lf⟩
    · cases h
      exact ⟨[92, 116], by rw [ht]; rfl, .tab⟩
    · cases h
      exact ⟨[92, 48], by rw [h0]; rfl, .nul⟩
    · cases h
      exact ⟨[92, 92], by rw [hback]; rfl, .itself (by decide)⟩
    · -- Two hexadecimal digits follow, or the text is refused.
      split at h
      · rename_i high low input
        cases hhigh : hexValue high with
        | none =>
          rw [hhigh] at h
          cases h
        | some first =>
          cases hlow : hexValue low with
          | none =>
            rw [hhigh, hlow] at h
            cases h
          | some second =>
            rw [hhigh, hlow] at h
            cases h
            have hfirst := hexValue_iff.1 hhigh
            have hsecond := hexValue_iff.1 hlow
            exact ⟨[92, 120, high, low], by rw [hx]; rfl, .hex hfirst hsecond (Hexadecimal.nibbles_join hfirst.lt hsecond.lt)⟩
      · cases h
    · obtain ⟨rfl, rfl⟩ := Prod.mk.inj (Option.some.inj h)
      refine ⟨[92, escaped], rfl, .itself ?_⟩
      simp [hr, hn, ht, h0, hx]

theorem textLoop_cons : textLoop capacity (ch :: input) stored = match value ch input with
    | none => ⟨false, stored⟩
    | some (v, rest) => if stored.length = capacity then ⟨false, stored⟩ else textLoop capacity rest (stored ++ [v]) := by
  rw [textLoop.eq_def]
  dsimp only
  split <;> rename_i h <;> rw [h]

/-- What the loop accepts, its items spell. -/
theorem unescapes_of_textLoop (hst : stored.length ≤ capacity) (h : textLoop capacity input stored = ⟨true, bytes⟩) :
    ∃ new, Unescapes input new ∧ bytes = stored ++ new ∧ bytes.length ≤ capacity := by
  induction hlen : input.length using Nat.strong_induction_on generalizing input stored with
  | _ len ih =>
    cases input with
    | nil =>
      rw [textLoop.eq_def] at h
      cases h
      exact ⟨[], .nil, (List.append_nil _).symm, hst⟩
    | cons ch input =>
      rw [textLoop_cons] at h
      cases hvalue : value ch input with
      | none =>
        rw [hvalue] at h
        cases h
      | some next =>
        obtain ⟨v, rest⟩ := next
        rw [hvalue] at h
        dsimp only at h
        split at h
        · cases h
        have hgrown : (stored ++ [v]).length ≤ capacity := by
          rw [List.length_append, List.length_singleton]
          omega
        have hshorter : rest.length < len := by
          rw [← hlen]
          exact Nat.lt_succ_of_le (length_value hvalue)
        obtain ⟨new, hnew, hbytes, hfits⟩ := ih _ hshorter hgrown h rfl
        refine ⟨v :: new, ?_, ?_, hfits⟩
        · rcases item_of_value hvalue with ⟨chars, hchars, hitem⟩ | ⟨rfl, rfl, rfl, rfl⟩
          · rw [hchars]
            exact .item hitem hnew
          · rw [hnew.eq_nil]
            exact .backslash
        · rw [hbytes, List.append_assoc, List.singleton_append]

/-- The loop accepts what the items spell, if there is room. -/
theorem textLoop_of_unescapes {new : List UInt8} (h : Unescapes input new) (hfits : (stored ++ new).length ≤ capacity) :
    textLoop capacity input stored = ⟨true, stored ++ new⟩ := by
  induction h generalizing stored with
  | nil =>
    rw [textLoop.eq_def, List.append_nil]
  | backslash =>
    rw [List.length_append, List.length_singleton] at hfits
    rw [textLoop_cons]
    change (if stored.length = capacity then _ else textLoop capacity [] (stored ++ [92])) = _
    rw [if_neg (by omega), textLoop.eq_def]
  | @item _ _ bytes v hitem hrest ih =>
    obtain ⟨ch, tail, rfl, hvalue⟩ := value_of_item _ hitem
    rw [List.cons_append, textLoop_cons, hvalue]
    rw [List.length_append, List.length_cons] at hfits
    dsimp only
    rw [if_neg (by omega), List.append_cons stored v bytes]
    apply ih
    simp only [List.length_append, List.length_singleton]
    omega

/-! ## No more than the capacity -/

theorem length_hexLoop (hst : stored.length ≤ capacity) : (hexLoop capacity input high stored).stored.length ≤ capacity := by
  induction input generalizing high stored with
  | nil => exact hst
  | cons ch input ih =>
    by_cases hsep : isSeparator ch = true
    · rw [hexLoop_separator hsep]
      exact ih hst
    cases hvalue : hexValue ch with
    | none =>
      rw [hexLoop_bad hsep hvalue]
      exact hst
    | some digit =>
      cases high with
      | none =>
        rw [hexLoop_high hvalue]
        exact ih hst
      | some first =>
        rw [hexLoop_low hvalue]
        split
        · exact hst
        · apply ih
          rw [List.length_append, List.length_singleton]
          omega

theorem length_textLoop (hst : stored.length ≤ capacity) : (textLoop capacity input stored).stored.length ≤ capacity := by
  induction hlen : input.length using Nat.strong_induction_on generalizing input stored with
  | _ len ih =>
    cases input with
    | nil =>
      rw [textLoop.eq_def]
      exact hst
    | cons ch input =>
      rw [textLoop_cons]
      cases hvalue : value ch input with
      | none => exact hst
      | some next =>
        dsimp only
        split
        · exact hst
        · refine ih _ ?_ ?_ rfl
          · rw [← hlen]
            exact Nat.lt_succ_of_le (length_value hvalue)
          · rw [List.length_append, List.length_singleton]
            omega

/-! ## The parser -/

theorem hexPrefix_iff : hexPrefix text = true ↔ IsHex text := by
  constructor
  · intro h
    obtain ⟨htake, h⟩ := (Bool.and_eq_true _ _).mp h
    rw [beq_iff_eq] at htake
    cases hthird : text[3]? with
    | none =>
      rw [hthird] at h
      cases h
    | some ch =>
      rw [hthird] at h
      obtain ⟨hlt, hch⟩ := List.getElem?_eq_some_iff.1 hthird
      refine ⟨ch, text.drop 4, ?_, by simpa using h⟩
      calc text = text.take 3 ++ text.drop 3 := (List.take_append_drop 3 text).symm
        _ = 104 :: 101 :: 120 :: ch :: text.drop 4 := by
          rw [htake, List.drop_eq_getElem_cons hlt, hch]
          rfl
  · rintro ⟨ch, body, rfl, hch⟩
    simpa [hexPrefix] using hch

/-- The blanks and the colon that are skipped behind the prefix do not matter. -/
theorem digits_skip : Digits (if (text.dropWhile isBlank).head? = some 58 then (text.dropWhile isBlank).tail else text.dropWhile isBlank) ds ↔
    Digits text ds := by
  have hblanks : ∀ ch ∈ text.takeWhile isBlank, isSeparator ch = true := by
    intro ch hch
    have hblank := List.mem_takeWhile_imp hch
    unfold isSeparator
    rw [hblank]
    rfl
  have hskip : Digits text ds ↔ Digits (text.dropWhile isBlank) ds := by
    conv_lhs => rw [← List.takeWhile_append_dropWhile (p := isBlank) (l := text)]
    exact digits_separators hblanks
  rw [hskip]
  split
  · rename_i hcolon
    obtain ⟨tail, htail⟩ := List.head?_eq_some_iff.1 hcolon
    have hcolons : ∀ ch ∈ ([58] : List UInt8), isSeparator ch = true := by simp [isSeparator]
    rw [htail]
    exact (digits_separators hcolons).symm
  · rfl

/-- A text is accepted if it spells bytes and they fit. -/
theorem parse_iff (h0 : 0 ∉ text) :
    parse (some text) true capacity = ⟨true, bytes⟩ ↔ Spells (text.dropWhile isBlank) bytes ∧ bytes.length ≤ capacity := by
  have hparse : parse (some text) true capacity = if hexPrefix (text.dropWhile isBlank) then
      hexLoop capacity (if (((text.dropWhile isBlank).drop 3).dropWhile isBlank).head? = some 58 then
        (((text.dropWhile isBlank).drop 3).dropWhile isBlank).tail else ((text.dropWhile isBlank).drop 3).dropWhile isBlank) none []
      else textLoop capacity (text.dropWhile isBlank) [] := by
    simp only [parse, Bool.true_eq_false, if_false, takeWhile_of_noNul h0]
  rw [hparse]
  generalize text.dropWhile isBlank = text
  by_cases hhex : IsHex text
  · rw [if_pos (hexPrefix_iff.2 hhex)]
    obtain ⟨ch, body, rfl, hch⟩ := hhex
    have hsep : ∀ c ∈ [ch], isSeparator c = true := by
      intro c hc
      rw [List.mem_singleton.1 hc]
      rcases hch with rfl | hblank
      · rfl
      · simp [isSeparator, hblank]
    have hbody : ∀ ds, Digits (ch :: body) ds ↔ Digits body ds := fun _ => digits_separators hsep
    constructor
    · intro h
      obtain ⟨ds, new, hds, hspell, hbytes, hne, hfits⟩ := digits_of_hexLoop (by simp) (Nat.zero_le _) h
      have hall : Digits (ch :: body) ds := digits_skip.1 hds
      refine ⟨.hex hch ?_ hne, hfits⟩
      rw [hbytes, List.nil_append, ← hspell]
      exact (hbody ds).1 hall
    · rintro ⟨hspells, hfits⟩
      cases hspells with
      | hex _ h hne =>
        have hall := digits_skip.2 ((hbody _).2 h)
        exact hexLoop_of_digits hall (by simp) rfl hne hfits
      | text hnot _ => exact absurd ⟨_, _, rfl, hch⟩ hnot
  · rw [if_neg (fun h => hhex (hexPrefix_iff.1 h))]
    constructor
    · intro h
      obtain ⟨new, hnew, rfl, hfits⟩ := unescapes_of_textLoop (Nat.zero_le _) h
      exact ⟨.text hhex hnew, hfits⟩
    · rintro ⟨hspells, hfits⟩
      cases hspells with
      | hex hch _ _ => exact absurd ⟨_, _, rfl, hch⟩ hhex
      | text _ h => exact textLoop_of_unescapes h hfits

theorem Digits.lt (h : Digits chars ds) : ∀ n ∈ ds, n < 16 := by
  induction h with
  | nil => exact fun _ hn => absurd hn List.not_mem_nil
  | separator _ _ ih => exact ih
  | digit hdigit _ ih =>
    intro n hn
    rcases List.mem_cons.1 hn with rfl | hn
    · exact hdigit.lt
    · exact ih n hn

/-- Digits spell bytes when their number is even, and not zero. -/
theorem exists_spells_iff (hch : ch = 58 ∨ isBlank ch = true) :
    (∃ bytes, Spells (104 :: 101 :: 120 :: ch :: body) bytes ∧ bytes.length ≤ capacity) ↔
      ∃ ds, Digits body ds ∧ Even ds.length ∧ ds ≠ [] ∧ ds.length ≤ 2 * capacity := by
  constructor
  · rintro ⟨bytes, hspells, hfits⟩
    cases hspells with
    | hex _ h hne =>
      refine ⟨_, h, (Hexadecimal.exists_bytes_iff h.lt).1 ⟨bytes, rfl⟩, ?_, ?_⟩
      · intro hnil
        have hlen := congrArg List.length hnil
        rw [Hexadecimal.length_nibbles] at hlen
        have hpos := List.length_pos_iff.2 hne
        change _ = 0 at hlen
        omega
      · rw [Hexadecimal.length_nibbles]
        omega
    | text hnot _ => exact absurd ⟨_, _, rfl, hch⟩ hnot
  · rintro ⟨ds, h, heven, hne, hfits⟩
    obtain ⟨bytes, rfl⟩ := (Hexadecimal.exists_bytes_iff h.lt).2 heven
    rw [Hexadecimal.length_nibbles] at hfits
    refine ⟨bytes, .hex hch h ?_, by omega⟩
    rintro rfl
    exact hne rfl

/-! ## Spelling -/

/-- A byte as an escape of two digits. -/
def escapeHex (byte : UInt8) : List UInt8 := 92 :: 120 :: Hexadecimal.digits byte

theorem isDigit_nibbles (byte : UInt8) :
    ∃ high low, Hexadecimal.digits byte = [high, low] ∧ Hexadecimal.IsDigit high (byte.toNat / 16) ∧
      Hexadecimal.IsDigit low (byte.toNat % 16) := by
  have hlt : byte.toNat < 256 := byte.toNat_lt
  exact ⟨_, _, rfl, Hexadecimal.isDigit_digit (by omega), Hexadecimal.isDigit_digit (by omega)⟩

/-- Every byte sequence has digits. -/
theorem digits_digits (bytes : List UInt8) : Digits (bytes.flatMap Hexadecimal.digits) (bytes.flatMap Hexadecimal.nibbles) := by
  induction bytes with
  | nil => exact .nil
  | cons byte bytes ih =>
    obtain ⟨high, low, hdigits, hhigh, hlow⟩ := isDigit_nibbles byte
    rw [List.flatMap_cons, List.flatMap_cons, hdigits]
    exact .digit hhigh (.digit hlow ih)

theorem unescapes_escapeHex (bytes : List UInt8) : Unescapes (bytes.flatMap escapeHex) bytes := by
  induction bytes with
  | nil => exact .nil
  | cons byte bytes ih =>
    obtain ⟨high, low, hdigits, hhigh, hlow⟩ := isDigit_nibbles byte
    rw [List.flatMap_cons, escapeHex, hdigits]
    exact .item (.hex hhigh hlow rfl) ih

theorem noNul_escapeHex (bytes : List UInt8) : 0 ∉ bytes.flatMap escapeHex := by
  intro h
  obtain ⟨byte, _, hbyte⟩ := List.mem_flatMap.1 h
  have hdigits : 0 ∉ Hexadecimal.digits byte := by
    have hone := (digits_digits [byte]).noNul
    rwa [List.flatMap_singleton] at hone
  rcases List.mem_cons.1 hbyte with h92 | hbyte
  · cases h92
  rcases List.mem_cons.1 hbyte with hx | hbyte
  · cases hx
  exact hdigits hbyte

/-- The first character decides whether blanks are dropped. -/
theorem dropWhile_of_head (h : isBlank ch = false) : (ch :: text).dropWhile isBlank = ch :: text :=
  List.dropWhile_cons_of_neg (by rw [h]; exact Bool.false_ne_true)

/-- `parse` never stores more than the capacity. It accepts exactly the spelled
bytes, behind any blanks, that fit; digits when their number is even, not zero,
and at most twice the capacity. So every byte sequence that fits is obtained
from its `\x` escapes, and one that is not empty from its digits with any
separators between them. -/
theorem parse_spells (capacity : Nat) :
    (∀ input output, (parse input output capacity).stored.length ≤ capacity) ∧
    (∀ text bytes, 0 ∉ text → (parse (some text) true capacity = ⟨true, bytes⟩ ↔
      Spells (text.dropWhile isBlank) bytes ∧ bytes.length ≤ capacity)) ∧
    (∀ ch body, ch = 58 ∨ isBlank ch = true →
      ((∃ bytes, Spells (104 :: 101 :: 120 :: ch :: body) bytes ∧ bytes.length ≤ capacity) ↔
        ∃ ds, Digits body ds ∧ Even ds.length ∧ ds ≠ [] ∧ ds.length ≤ 2 * capacity)) ∧
    (∀ bytes, bytes.length ≤ capacity → parse (some (bytes.flatMap escapeHex)) true capacity = ⟨true, bytes⟩) ∧
    ∀ ch body bytes, ch = 58 ∨ isBlank ch = true → Digits body (bytes.flatMap Hexadecimal.nibbles) → bytes ≠ [] →
      bytes.length ≤ capacity → parse (some (104 :: 101 :: 120 :: ch :: body)) true capacity = ⟨true, bytes⟩ := by
  refine ⟨?_, fun text bytes h0 => parse_iff h0, fun ch body hch => exists_spells_iff hch, ?_, ?_⟩
  · intro input output
    unfold parse
    cases input with
    | none => exact Nat.zero_le _
    | some chars =>
      dsimp only
      split_ifs
      · exact Nat.zero_le _
      · exact length_hexLoop (Nat.zero_le _)
      · exact length_hexLoop (Nat.zero_le _)
      · exact length_textLoop (Nat.zero_le _)
  · intro bytes hfits
    refine (parse_iff (noNul_escapeHex bytes)).2 ⟨?_, hfits⟩
    have hspell := unescapes_escapeHex bytes
    cases bytes with
    | nil => exact .text (fun ⟨ch, body, h, _⟩ => by cases h) .nil
    | cons byte bytes =>
      rw [List.flatMap_cons, escapeHex, List.cons_append] at hspell ⊢
      rw [dropWhile_of_head rfl]
      exact .text (fun ⟨ch, body, h, _⟩ => by cases h) hspell
  · intro ch body bytes hch hdigits hne hfits
    have h0 : 0 ∉ 104 :: 101 :: 120 :: ch :: body := by
      have hnul : ch ≠ 0 := by
        rintro rfl
        rcases hch with h | h <;> cases h
      simp [hdigits.noNul, hnul.symm]
    refine (parse_iff h0).2 ⟨?_, hfits⟩
    rw [dropWhile_of_head rfl]
    exact .hex hch hdigits hne

/-- The bytes 7E, 00 and FF. -/
theorem parse_spells_hex : parse (some (literal " hex: 7E 00 FF")) true 8 = ⟨true, [0x7e, 0, 0xff]⟩ := by
  have htext : (literal " hex: 7E 00 FF").dropWhile isBlank =
      [104, 101, 120, 58, 32, 55, 69, 32, 48, 48, 32, 70, 70] := by decide
  refine ((parse_spells 8).2.1 _ _ (by decide)).2 ⟨?_, by decide⟩
  rw [htext]
  have h0 : Hexadecimal.IsDigit 48 0 := Hexadecimal.isDigit_iff.2 (by decide)
  have h7 : Hexadecimal.IsDigit 55 7 := Hexadecimal.isDigit_iff.2 (by decide)
  have hE : Hexadecimal.IsDigit 69 14 := Hexadecimal.isDigit_iff.2 (by decide)
  have hF : Hexadecimal.IsDigit 70 15 := Hexadecimal.isDigit_iff.2 (by decide)
  refine .hex (Or.inl rfl) ?_ (by decide)
  exact .separator rfl (.digit h7 (.digit hE (.separator rfl (.digit h0 (.digit h0 (.separator rfl (.digit hF (.digit hF .nil))))))))

end OrangeBox.QrPayload
