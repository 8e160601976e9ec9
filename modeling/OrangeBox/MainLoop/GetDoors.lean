import OrangeBox.Lib.Strtoul
import OrangeBox.CredProtocol.Numbers
import OrangeBox.MainLoop.Loop
/-!
# The door number of a request

`handleGetDoors` of `main.cpp`, which reads its door number with `strtoul`, and
`handleOpenBox`, which reads it with `ParamChecks::integer`. They agree on every
value but the odd spellings of `OddSpelling` (`doors_agree_iff`).
-/
open OrangeBox.ParamChecks Strtoul

namespace OrangeBox.MainLoop

variable {value : JsonVariant} {text : List UInt8} {door : UInt8}

abbrev missingDoorNumber : String := "R17"
abbrev invalidDoorNumber : String := "R18"
abbrev invalidDoorFormat : String := "R19"

/-- `is<unsigned long>()`, with the value. -/
def asUnsignedLong : JsonVariant → Option Nat
  | .integer value => if 0 ≤ value ∧ value < 2 ^ 32 then some value.toNat else none
  | _ => none

/-- The last check of the number; 255 is no door. -/
def doorOf (lnum : Nat) : Except String UInt8 := if lnum > 254 then .error invalidDoorNumber else .ok lnum.toUInt8

/-- The door that `handleGetDoors` reads, or the result code it answers. -/
def requestedDoor (doorNumValue : JsonVariant) : Except String UInt8 :=
  if doorNumValue.isNull = true then .error missingDoorNumber
  else
    match doorNumValue.asText with
    | some doorNumStr =>
      if doorNumStr = [] then .error missingDoorNumber
      else if (strtoul doorNumStr).2 ≠ [] then .error invalidDoorNumber
      else doorOf (strtoul doorNumStr).1
    | none =>
      match asUnsignedLong doorNumValue with
      | some lnum => doorOf lnum
      | none => .error invalidDoorFormat

/-- `handleGetDoors`: the result code, or the state that is sent for the door,
nothing if it is unknown. -/
def handleGetDoors (readDoorState : UInt8 → UInt8) (doorNumValue : JsonVariant) : Except String (Option (UInt8 × UInt8)) :=
  (requestedDoor doorNumValue).map fun doorNum =>
    if readDoorState doorNum ≠ PassStore.doorUnknown then some (doorNum, readDoorState doorNum) else none

/-! ## What the two handlers read -/

theorem doorOf_eq_ok {lnum : Nat} : doorOf lnum = .ok door ↔ lnum = door.toNat ∧ lnum ≤ 254 := by
  unfold doorOf
  by_cases h : lnum > 254
  · rw [if_pos h]
    exact ⟨fun he => (by cases he), fun he => (by omega)⟩
  · rw [if_neg h, Except.ok.injEq]
    have hcast : lnum.toUInt8.toNat = lnum := Nat.mod_eq_of_lt (by omega)
    constructor
    · rintro rfl
      exact ⟨hcast.symm, by omega⟩
    · rintro ⟨he, -⟩
      exact UInt8.toNat_inj.1 (hcast.trans he)

/-- A spelling that `strtoul` reads as a door. -/
def IsSpelling (text : List UInt8) (door : UInt8) : Prop :=
  ∃ blanks sign digits, Spelled text blanks sign digits ∧ number (sign = [45]) (Decimal.value digits) = door.toNat

theorem requestedDoor_iff : requestedDoor value = .ok door ↔
    door.toNat ≤ 254 ∧ (value = .integer door.toNat ∨ ∃ text, value.asText = some text ∧ IsSpelling text door) := by
  cases value with
  | integer v =>
    have hread : requestedDoor (.integer v) = match asUnsignedLong (.integer v) with
        | some lnum => doorOf lnum
        | none => .error invalidDoorFormat := rfl
    rw [hread, asUnsignedLong, JsonVariant.integer.injEq]
    by_cases hv : 0 ≤ v ∧ v < 2 ^ 32
    · rw [if_pos hv]
      dsimp only
      rw [doorOf_eq_ok]
      constructor
      · rintro ⟨he, hle⟩
        exact ⟨by omega, Or.inl (by omega)⟩
      · rintro ⟨hle, he | ⟨text, htext, -⟩⟩
        · exact ⟨by omega, by omega⟩
        · exact absurd htext.symm (Option.some_ne_none text)
    · rw [if_neg hv]
      refine ⟨fun he => (by cases he), ?_⟩
      rintro ⟨hle, he | ⟨text, htext, -⟩⟩
      · exact absurd ⟨by omega, by omega⟩ hv
      · exact absurd htext.symm (Option.some_ne_none text)
  | text chars =>
    have hread : requestedDoor (.text chars) = if chars.takeWhile (· ≠ 0) = [] then .error missingDoorNumber
        else if (strtoul (chars.takeWhile (· ≠ 0))).2 ≠ [] then .error invalidDoorNumber
        else doorOf (strtoul (chars.takeWhile (· ≠ 0))).1 := rfl
    rw [hread]
    -- Only the text up to its first NUL matters.
    have hshape : (door.toNat ≤ 254 ∧ (JsonVariant.text chars = .integer door.toNat ∨
        ∃ text, (JsonVariant.text chars).asText = some text ∧ IsSpelling text door)) ↔
        door.toNat ≤ 254 ∧ IsSpelling (chars.takeWhile (· ≠ 0)) door := by
      refine and_congr_right fun _ => ⟨?_, fun h => Or.inr ⟨_, rfl, h⟩⟩
      rintro (he | ⟨text, he, h⟩)
      · cases he
      · obtain rfl := Option.some.inj he
        exact h
    rw [hshape]
    generalize chars.takeWhile (· ≠ 0) = text
    by_cases hnil : text = []
    · rw [if_pos hnil]
      refine ⟨fun he => (by cases he), ?_⟩
      rintro ⟨-, blanks, sign, digits, hs, -⟩
      have hempty := hs.text_eq
      rw [hnil, List.nil_eq, List.append_eq_nil_iff, List.append_eq_nil_iff] at hempty
      exact absurd hempty.2.2 hs.ne_nil
    · rw [if_neg hnil]
      have hwhole : IsSpelling text door ↔ strtoul text = (door.toNat, []) := (reads_iff hnil).symm
      rw [hwhole]
      by_cases hrest : (strtoul text).2 ≠ []
      · rw [if_pos hrest]
        refine ⟨fun he => (by cases he), ?_⟩
        rintro ⟨-, he⟩
        exact absurd (by rw [he]) hrest
      · rw [if_neg hrest, doorOf_eq_ok]
        constructor
        · rintro ⟨he, hle⟩
          exact ⟨by omega, Prod.ext he (not_not.1 hrest)⟩
        · rintro ⟨hle, he⟩
          rw [he]
          exact ⟨rfl, hle⟩
  | _ =>
    refine ⟨fun h => (by cases h), ?_⟩
    rintro ⟨-, hvalue | ⟨text, htext, -⟩⟩
    · cases hvalue
    · exact absurd htext.symm (Option.some_ne_none text)

/-- What both commands document: a door number, or its digits. -/
def IsDoor (value : JsonVariant) (door : UInt8) : Prop :=
  door.toNat ≤ 254 ∧ (value = .integer door.toNat ∨
    ∃ digits, value = .text digits ∧ digits ≠ [] ∧ (∀ ch ∈ digits, Decimal.isDigit ch = true) ∧ Decimal.value digits = door.toNat)

/-- Both commands take the value for the door, if it is one. -/
def Agree (value : JsonVariant) : Prop :=
  ∀ door, (requestedDoor value = .ok door ↔ IsDoor value door) ∧ (integer value 0 254 = some (door.toNat : Int) ↔ IsDoor value door)

/-- A text that `strtoul` reads as a door up to its first NUL, but which is not
just digits: there is white space, a sign, or that NUL. A minus sign goes with 0
and with the numbers that wrap around to a door. -/
def OddSpelling (value : JsonVariant) : Prop :=
  ∃ blanks sign digits tail, value = .text (blanks ++ (sign ++ digits) ++ tail) ∧ blanks ++ sign ++ tail ≠ [] ∧
    (∀ ch ∈ blanks, isSpace ch = true) ∧ (sign = [] ∨ sign = [43] ∨ sign = [45]) ∧
    digits ≠ [] ∧ (∀ ch ∈ digits, Decimal.isDigit ch = true) ∧ (tail = [] ∨ ∃ rest, tail = 0 :: rest) ∧
    if sign = [45] then Decimal.value digits = 0 ∨ 2 ^ 32 - 254 ≤ Decimal.value digits ∧ Decimal.value digits < 2 ^ 32
    else Decimal.value digits ≤ 254

theorem number_le_iff {negative : Bool} {magnitude : Nat} : number negative magnitude ≤ 254 ↔
    if negative = true then magnitude = 0 ∨ 2 ^ 32 - 254 ≤ magnitude ∧ magnitude < 2 ^ 32 else magnitude ≤ 254 := by
  unfold number
  cases negative <;> simp only [Bool.false_eq_true, if_true, if_false] <;> split <;> omega

theorem IsDoor.requestedDoor (h : IsDoor value door) : MainLoop.requestedDoor value = .ok door := by
  obtain ⟨hle, hvalue⟩ := h
  rw [requestedDoor_iff]
  refine ⟨hle, hvalue.imp id ?_⟩
  rintro ⟨digits, rfl, hne, hall, hval⟩
  have hwhole : digits.takeWhile (· ≠ 0) = digits :=
    takeWhile_of_noNul (noNul_of_digits hall)
  refine ⟨digits, congrArg some hwhole, [], [], digits, ⟨rfl, ?_, Or.inl rfl, hne, hall⟩, ?_⟩
  · intro ch hch
    exact absurd hch List.not_mem_nil
  · rw [hval]
    unfold number
    rw [if_neg (by omega), if_neg (by decide)]

theorem IsDoor.integer (h : IsDoor value door) : ParamChecks.integer value 0 254 = some (door.toNat : Int) := by
  obtain ⟨hle, hvalue⟩ := h
  rw [integer_iff (by decide) (by decide)]
  refine ⟨by omega, hvalue.imp id ?_⟩
  rintro ⟨digits, rfl, hne, hall, hval⟩
  have hwhole : digits.takeWhile (· ≠ 0) = digits :=
    takeWhile_of_noNul (noNul_of_digits hall)
  exact ⟨digits, congrArg some hwhole, hval ▸ IsNumeral.nonneg digits hne hall⟩

/-- What `opendoor` takes, `get_door` takes as well. -/
theorem requestedDoor_of_integer (h : ParamChecks.integer value 0 254 = some (door.toNat : Int)) :
    requestedDoor value = .ok door := by
  obtain ⟨⟨-, hle⟩, hvalue⟩ := (integer_iff (by decide) (by decide)).1 h
  rw [requestedDoor_iff]
  refine ⟨by omega, hvalue.imp id ?_⟩
  rintro ⟨text, htext, hnum⟩
  refine ⟨text, htext, ?_⟩
  generalize hn : (door.toNat : Int) = n at hnum hle
  cases hnum with
  | nonneg _ hne hall =>
    refine ⟨[], [], text, ⟨rfl, by simp, Or.inl rfl, hne, hall⟩, ?_⟩
    unfold number
    rw [if_neg (by omega), if_neg (by decide)]
    omega
  | negative digits hne hall =>
    -- Only minus zero is a door.
    refine ⟨[], [45], digits, ⟨rfl, by simp, Or.inr (Or.inr rfl), hne, hall⟩, ?_⟩
    have hzero : Decimal.value digits = 0 := by omega
    unfold number
    rw [hzero, if_neg (by decide), if_pos (by decide)]
    omega

/-- An odd spelling is a door for `get_door`, but not one that is documented. -/
theorem OddSpelling.not_agree (h : OddSpelling value) : ¬Agree value := by
  obtain ⟨blanks, sign, digits, tail, rfl, hodd, hblanks, hsign, hne, hall, htail, hbound⟩ := h
  intro hagree
  have hspelled : Spelled (blanks ++ (sign ++ digits)) blanks sign digits := ⟨rfl, hblanks, hsign, hne, hall⟩
  have hle : number (sign = [45]) (Decimal.value digits) ≤ 254 := by
    rw [number_le_iff]
    simpa using hbound
  have hcast : (number (sign = [45]) (Decimal.value digits)).toUInt8.toNat = number (sign = [45]) (Decimal.value digits) :=
    Nat.mod_eq_of_lt (by omega)
  -- Up to the NUL, `get_door` sees the number.
  have htext : (JsonVariant.text (blanks ++ (sign ++ digits) ++ tail)).asText = some (blanks ++ (sign ++ digits)) := by
    have hno : 0 ∉ blanks ++ (sign ++ digits) := by
      rw [List.mem_append, List.mem_append, not_or, not_or]
      refine ⟨fun hz => absurd (hblanks 0 hz) (by decide), fun hz => ?_, noNul_of_digits hall⟩
      rcases hsign with rfl | rfl | rfl
      · exact absurd hz List.not_mem_nil
      · exact absurd hz (by decide)
      · exact absurd hz (by decide)
    rcases htail with rfl | ⟨rest, rfl⟩
    · rw [List.append_nil]
      exact congrArg some (takeWhile_of_noNul hno)
    · exact congrArg some (takeWhile_nul hno)
  obtain ⟨-, hvalue | ⟨ds, he, -, hds, -⟩⟩ := (hagree (number (sign = [45]) (Decimal.value digits)).toUInt8).1.1
    (requestedDoor_iff.2 ⟨by omega, Or.inr ⟨_, htext, blanks, sign, digits, hspelled, hcast.symm⟩⟩)
  · cases hvalue
  · obtain rfl := JsonVariant.text.inj he
    -- Everything beside the digits would be a digit too.
    have hnone : ∀ ch ∈ blanks ++ sign ++ tail, False := by
      intro ch hch
      have hdigit : Decimal.isDigit ch = true := hds ch (by
        simp only [List.mem_append] at hch ⊢
        tauto)
      rw [List.mem_append, List.mem_append] at hch
      rcases hch with (hb | hs) | ht
      · exact absurd (hblanks ch hb) (by rw [not_isSpace_of_isDigit hdigit]; decide)
      · rcases hsign with rfl | rfl | rfl
        · exact absurd hs List.not_mem_nil
        · rw [List.mem_singleton.1 hs] at hdigit
          exact absurd hdigit (by decide)
        · rw [List.mem_singleton.1 hs] at hdigit
          exact absurd hdigit (by decide)
      · rcases htail with rfl | ⟨rest, rfl⟩
        · exact absurd ht List.not_mem_nil
        · exact absurd (hds 0 (by simp)) (by decide)
    exact hodd (List.eq_nil_iff_forall_not_mem.2 hnone)

/-- Beside the odd spellings, `get_door` takes what is documented. -/
theorem isDoor_of_requestedDoor (hodd : ¬OddSpelling value) (h : requestedDoor value = .ok door) : IsDoor value door := by
  obtain ⟨hle, hvalue⟩ := requestedDoor_iff.1 h
  refine ⟨hle, hvalue.imp id ?_⟩
  rintro ⟨text, htext, blanks, sign, digits, hs, hnumber⟩
  have hbound : if sign = [45] then Decimal.value digits = 0 ∨ 2 ^ 32 - 254 ≤ Decimal.value digits ∧ Decimal.value digits < 2 ^ 32
      else Decimal.value digits ≤ 254 := by
    have hnum := number_le_iff.1 (hnumber.trans_le hle)
    simpa using hnum
  cases value with
  | text chars =>
    obtain rfl := Option.some.inj htext
    have hplain : ∀ tail, chars = chars.takeWhile (· ≠ 0) ++ tail → (tail = [] ∨ ∃ rest, tail = 0 :: rest) →
        blanks ++ sign ++ tail = [] := by
      intro tail hchars htail
      by_contra hne
      refine hodd ⟨blanks, sign, digits, tail, ?_, hne, hs.blanks, hs.sign, hs.ne_nil, hs.digits, htail, hbound⟩
      rw [← hs.text_eq, ← hchars]
    rcases eq_takeWhile_nul chars with ⟨-, hwhole⟩ | ⟨rest, hsplit⟩
    · have hnil := hplain [] (by rw [List.append_nil, hwhole]) (Or.inl rfl)
      rw [List.append_eq_nil_iff, List.append_eq_nil_iff] at hnil
      obtain ⟨⟨rfl, rfl⟩, -⟩ := hnil
      have hchars : chars = digits := hwhole.symm.trans hs.text_eq
      refine ⟨digits, congrArg JsonVariant.text hchars, hs.ne_nil, hs.digits, ?_⟩
      rw [← hnumber]
      unfold number
      rw [if_neg (by decide)] at hbound
      rw [if_neg (by omega), if_neg (by decide)]
    · have hnil := hplain (0 :: rest) hsplit (Or.inr ⟨rest, rfl⟩)
      simp at hnil
  | _ => contradiction

/-- `get_door` and `opendoor` read the same door from a value, and both just what
is documented, exactly if the value is no odd spelling. -/
theorem doors_agree_iff (value : JsonVariant) : Agree value ↔ ¬OddSpelling value := by
  constructor
  · intro hagree hodd
    exact hodd.not_agree hagree
  · intro hodd door
    refine ⟨⟨isDoor_of_requestedDoor hodd, IsDoor.requestedDoor⟩, fun h => ?_, IsDoor.integer⟩
    exact isDoor_of_requestedDoor hodd (requestedDoor_of_integer h)

/-- Minus 4294967291 opens nothing, but is door 5 for `get_door`. -/
theorem wrapped_door_listed :
    requestedDoor (.text (ascii ['-', '4', '2', '9', '4', '9', '6', '7', '2', '9', '1'])) = .ok 5 ∧
      ParamChecks.integer (.text (ascii ['-', '4', '2', '9', '4', '9', '6', '7', '2', '9', '1'])) 0 254 = none ∧
      ¬Agree (.text (ascii ['-', '4', '2', '9', '4', '9', '6', '7', '2', '9', '1'])) := by
  have hdoor : requestedDoor (.text (ascii ['-', '4', '2', '9', '4', '9', '6', '7', '2', '9', '1'])) = .ok 5 := by decide
  refine ⟨hdoor, by decide, fun h => ?_⟩
  have hnone : ParamChecks.integer (.text (ascii ['-', '4', '2', '9', '4', '9', '6', '7', '2', '9', '1'])) 0 254 ≠ some 5 := by
    decide
  exact hnone ((h 5).2.2 ((h 5).1.1 hdoor))

end OrangeBox.MainLoop
