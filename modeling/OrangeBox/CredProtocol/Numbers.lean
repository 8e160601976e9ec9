import OrangeBox.Lib.Decimal
import OrangeBox.CredProtocol.Request
/-!
# Numbers of a request

`ParamChecks::integer` takes exactly the numbers within the bounds, as JSON
integers or as decimal texts. The exception is a text with a NUL, which is read
up to there (`integer_exact_iff`).
-/

namespace OrangeBox.ParamChecks

variable {value : JsonVariant} {text ds : List UInt8} {minimum maximum n : Int} {number : Nat} {ch : UInt8}

/-- A text of an optional minus sign and digits, and its value. -/
inductive IsNumeral : List UInt8 → Int → Prop
  | nonneg (ds : List UInt8) (hne : ds ≠ []) (hall : ∀ ch ∈ ds, Decimal.isDigit ch = true) :
      IsNumeral ds (Decimal.value ds)
  | negative (ds : List UInt8) (hne : ds ≠ []) (hall : ∀ ch ∈ ds, Decimal.isDigit ch = true) :
      IsNumeral (45 :: ds) (-Decimal.value ds)

theorem isDigit_iff : Decimal.isDigit ch = true ↔ ¬(ch < 48 ∨ ch > 57) := by
  simp only [Decimal.isDigit, Bool.and_eq_true, decide_eq_true_eq, not_or, gt_iff_lt, UInt8.not_lt]

theorem noNul_of_digits (hall : ∀ ch ∈ ds, Decimal.isDigit ch = true) : 0 ∉ ds := fun h => absurd (hall 0 h) (by decide)

theorem IsNumeral.noNul (h : IsNumeral text n) : 0 ∉ text := by
  cases h with
  | nonneg _ hne hall => exact noNul_of_digits hall
  | negative _ hne hall =>
    rw [List.mem_cons, not_or]
    exact ⟨by decide, noNul_of_digits hall⟩

/-- A text has one value. -/
theorem IsNumeral.unique {m : Int} (h : IsNumeral text n) (h' : IsNumeral text m) : n = m := by
  cases h with
  | nonneg _ _ hall =>
    cases h' with
    | nonneg => rfl
    | negative => exact absurd (hall 45 List.mem_cons_self) (by decide)
  | negative ds _ hall =>
    cases h' with
    | nonneg _ _ hall' => exact absurd (hall' 45 List.mem_cons_self) (by decide)
    | negative => rfl

/-! ## The loop over the digits -/

theorem push_natCast (number : Nat) (h : Decimal.isDigit ch = true) :
    ((Decimal.push number ch : Nat) : Int) = (number : Int) * 10 + (ch.toNat - 48) := by
  have hle : 48 ≤ ch.toNat := by
    simp only [Decimal.isDigit, Bool.and_eq_true, decide_eq_true_eq] at h
    exact UInt8.le_iff_toNat_le.1 h.1
  unfold Decimal.push
  push_cast
  omega

/-- The cut-off drops the texts whose value needs more than 32 bits, and no
others: reading on only makes the number larger. -/
theorem digits_iff (hnumber : number ≤ 0xffffffff) : digits text number = some n ↔
    (∀ ch ∈ text, Decimal.isDigit ch = true) ∧ text.foldl Decimal.push number ≤ 0xffffffff ∧
      n = (text.foldl Decimal.push number : Nat) := by
  induction text generalizing number with
  | nil =>
    rw [digits, Option.some_inj]
    exact ⟨fun h => ⟨fun ch hch => absurd hch List.not_mem_nil, hnumber, h.symm⟩, fun h => h.2.2.symm⟩
  | cons ch text ih =>
    rw [digits]
    by_cases hdigit : Decimal.isDigit ch = true
    · have hpush := push_natCast number hdigit
      rw [if_neg (isDigit_iff.1 hdigit), ← hpush, List.foldl_cons]
      by_cases hcut : ((Decimal.push number ch : Nat) : Int) > 0xffffffff
      · rw [if_pos hcut]
        have hle := Decimal.le_foldl_push text (Decimal.push number ch)
        refine ⟨fun h => absurd h.symm (Option.some_ne_none n), fun h => absurd h.2.1 ?_⟩
        omega
      · rw [if_neg hcut, ih (by omega), List.forall_mem_cons]
        exact ⟨fun h => ⟨⟨hdigit, h.1⟩, h.2⟩, fun h => ⟨h.1.2, h.2⟩⟩
    · have hbad := not_not.1 (mt isDigit_iff.2 hdigit)
      rw [if_pos hbad]
      exact ⟨fun h => absurd h.symm (Option.some_ne_none n), fun h => absurd (h.1 ch List.mem_cons_self) hdigit⟩

theorem digits_zero_iff : digits ds 0 = some n ↔
    (∀ ch ∈ ds, Decimal.isDigit ch = true) ∧ Decimal.value ds ≤ 0xffffffff ∧ n = Decimal.value ds :=
  digits_iff (Nat.zero_le 0xffffffff)

/-- A text of a number of 32 bits and a sign. -/
theorem textInteger_iff : textInteger text = some n ↔ IsNumeral text n ∧ -2 ^ 32 < n ∧ n < 2 ^ 32 := by
  unfold textInteger
  split
  · refine ⟨fun h => absurd h.symm (Option.some_ne_none n), fun h => ?_⟩
    cases h.1 with
    | nonneg _ hne hall => exact absurd rfl hne
  · rename_i ds
    by_cases hne : ds = []
    · rw [if_pos hne]
      refine ⟨fun h => absurd h.symm (Option.some_ne_none n), fun h => ?_⟩
      cases h.1 with
      | nonneg _ _ hall => exact absurd (hall 45 List.mem_cons_self) (by decide)
      | negative _ hne' _ => exact absurd hne hne'
    · rw [if_neg hne, Option.map_eq_some_iff]
      constructor
      · rintro ⟨m, hm, rfl⟩
        obtain ⟨hall, hle, rfl⟩ := digits_zero_iff.1 hm
        refine ⟨IsNumeral.negative ds hne hall, ?_⟩
        omega
      · rintro ⟨hnum, hlo, -⟩
        cases hnum with
        | nonneg _ _ hall => exact absurd (hall 45 List.mem_cons_self) (by decide)
        | negative _ _ hall =>
          refine ⟨Decimal.value ds, digits_zero_iff.2 ⟨hall, ?_, rfl⟩, rfl⟩
          omega
  · rename_i hnil hminus
    rw [digits_zero_iff]
    constructor
    · rintro ⟨hall, hle, rfl⟩
      refine ⟨IsNumeral.nonneg text hnil hall, ?_⟩
      omega
    · rintro ⟨hnum, -, hhi⟩
      cases hnum with
      | nonneg _ _ hall =>
        refine ⟨hall, ?_, rfl⟩
        omega
      | negative ds _ _ => exact absurd rfl (hminus ds)

/-! ## The whole check -/

/-- What is accepted: a JSON integer or a text, up to its first NUL. -/
theorem integer_iff (hmin : -2 ^ 32 < minimum) (hmax : maximum < 2 ^ 32) : integer value minimum maximum = some n ↔
    (minimum ≤ n ∧ n ≤ maximum) ∧ (value = .integer n ∨ ∃ text, value.asText = some text ∧ IsNumeral text n) := by
  have hrefused : ∀ {read : Option Int}, (read.filter fun result => minimum ≤ result && result ≤ maximum) = some n ↔
      read = some n ∧ minimum ≤ n ∧ n ≤ maximum := by
    intro read
    rw [Option.filter_eq_some_iff, Bool.and_eq_true, decide_eq_true_eq, decide_eq_true_eq]
  cases value with
  | integer m =>
    have hint : integer (.integer m) minimum maximum =
        ((JsonVariant.asInt64 (.integer m)).filter fun result => minimum ≤ result && result ≤ maximum) := by
      unfold integer JsonVariant.asInt64
      by_cases hm : -2 ^ 63 ≤ m ∧ m < 2 ^ 63
      · simp only [if_pos hm]
        rfl
      · simp only [if_neg hm]
        rfl
    rw [hint, hrefused, JsonVariant.asInt64, Option.ite_none_right_eq_some, Option.some_inj, JsonVariant.integer.injEq]
    constructor
    · rintro ⟨⟨-, rfl⟩, hin⟩
      exact ⟨hin, Or.inl rfl⟩
    · rintro ⟨hin, rfl | ⟨text, htext, -⟩⟩
      · exact ⟨⟨by omega, rfl⟩, hin⟩
      · exact absurd htext.symm (Option.some_ne_none text)
  | text chars =>
    have htext : integer (.text chars) minimum maximum =
        ((textInteger (chars.takeWhile (· ≠ 0))).filter fun result => minimum ≤ result && result ≤ maximum) := rfl
    rw [htext, hrefused, textInteger_iff]
    constructor
    · rintro ⟨⟨hnum, -⟩, hin⟩
      exact ⟨hin, Or.inr ⟨_, rfl, hnum⟩⟩
    · rintro ⟨hin, hvalue | ⟨text, he, hnum⟩⟩
      · cases hvalue
      · obtain rfl := Option.some.inj he
        exact ⟨⟨hnum, by omega, by omega⟩, hin⟩
  | _ =>
    refine ⟨fun h => absurd h.symm (Option.some_ne_none n), ?_⟩
    rintro ⟨-, hvalue | ⟨text, htext, -⟩⟩
    · cases hvalue
    · exact absurd htext.symm (Option.some_ne_none text)

/-- Every value of `number`, and each product on the way to it. -/
def digitSteps : List UInt8 → Int → List Int
  | [], _ => []
  | ch :: text, number =>
    if ch < 48 ∨ ch > 57 then []
    else if number * 10 + (ch.toNat - 48) > 0xffffffff then [number * 10, number * 10 + (ch.toNat - 48)]
    else [number * 10, number * 10 + (ch.toNat - 48)] ++ digitSteps text (number * 10 + (ch.toNat - 48))

/-- Nothing is multiplied before it was cut off. -/
theorem digitSteps_bounds {number : Int} (hlo : 0 ≤ number) (hhi : number ≤ 0xffffffff) :
    ∀ m ∈ digitSteps text number, 0 ≤ m ∧ m < 2 ^ 36 := by
  induction text generalizing number with
  | nil =>
    intro m hm
    exact absurd hm List.not_mem_nil
  | cons ch text ih =>
    rw [digitSteps]
    by_cases hbad : ch < 48 ∨ ch > 57
    · rw [if_pos hbad]
      intro m hm
      exact absurd hm List.not_mem_nil
    · have hdigit := isDigit_iff.2 hbad
      simp only [Decimal.isDigit, Bool.and_eq_true, decide_eq_true_eq] at hdigit
      have h48 : 48 ≤ ch.toNat := UInt8.le_iff_toNat_le.1 hdigit.1
      have h57 : ch.toNat ≤ 57 := UInt8.le_iff_toNat_le.1 hdigit.2
      rw [if_neg hbad]
      by_cases hcut : number * 10 + (ch.toNat - 48) > 0xffffffff
      · rw [if_pos hcut]
        intro m hm
        rcases List.mem_pair.1 hm with rfl | rfl <;> omega
      · rw [if_neg hcut]
        intro m hm
        rcases List.mem_append.1 hm with hm | hm
        · rcases List.mem_pair.1 hm with rfl | rfl <;> omega
        · exact ih (by omega) (by omega) m hm

/-- The result is the last of them. -/
theorem digits_mem_steps {number : Int} (h : digits text number = some n) : n = number ∨ n ∈ digitSteps text number := by
  induction text generalizing number with
  | nil => exact Or.inl (Option.some.inj h).symm
  | cons ch text ih =>
    rw [digits] at h
    rw [digitSteps]
    by_cases hbad : ch < 48 ∨ ch > 57
    · rw [if_pos hbad] at h
      contradiction
    · rw [if_neg hbad] at h ⊢
      by_cases hcut : number * 10 + (ch.toNat - 48) > 0xffffffff
      · rw [if_pos hcut] at h
        contradiction
      · rw [if_neg hcut] at h ⊢
        right
        rcases ih h with rfl | hm
        · simp
        · exact List.mem_append_right _ hm

/-- The digits behind the sign. -/
def digitsOf : List UInt8 → List UInt8
  | 45 :: text => text
  | text => text

/-- `integer` takes the value exactly if it is a number within the bounds. -/
def Exact (value : JsonVariant) (minimum maximum : Int) : Prop :=
  ∀ n, integer value minimum maximum = some n ↔
    (minimum ≤ n ∧ n ≤ maximum) ∧ (value = .integer n ∨ ∃ text, value = .text text ∧ IsNumeral text n)

/-- A text that is a number within the bounds up to a NUL in it. -/
def CutNumber (value : JsonVariant) (minimum maximum : Int) : Prop :=
  ∃ head tail n, value = .text (head ++ 0 :: tail) ∧ IsNumeral head n ∧ minimum ≤ n ∧ n ≤ maximum

theorem exact_iff (hmin : -2 ^ 32 < minimum) (hmax : maximum < 2 ^ 32) :
    Exact value minimum maximum ↔ ¬CutNumber value minimum maximum := by
  constructor
  · rintro hexact ⟨head, tail, n, rfl, hnum, hin⟩
    have hread : integer (.text (head ++ 0 :: tail)) minimum maximum = some n :=
      (integer_iff hmin hmax).2 ⟨hin, Or.inr ⟨head, congrArg some (takeWhile_nul hnum.noNul), hnum⟩⟩
    obtain ⟨-, hvalue | ⟨text, he, hnum'⟩⟩ := (hexact n).1 hread
    · cases hvalue
    · obtain rfl := JsonVariant.text.inj he
      exact hnum'.noNul (by simp)
  · intro hcut n
    rw [integer_iff hmin hmax]
    refine and_congr_right fun hin => or_congr_right ?_
    constructor
    · rintro ⟨text, htext, hnum⟩
      cases value with
      | text chars =>
        obtain rfl := Option.some.inj htext
        rcases eq_takeWhile_nul chars with ⟨-, hwhole⟩ | ⟨tail, hsplit⟩
        · exact ⟨chars, rfl, hwhole ▸ hnum⟩
        · exact absurd ⟨_, tail, n, congrArg JsonVariant.text hsplit, hnum, hin⟩ hcut
      | _ => contradiction
    · rintro ⟨text, rfl, hnum⟩
      have hwhole : text.takeWhile (· ≠ 0) = text :=
        takeWhile_of_noNul hnum.noNul
      exact ⟨text, congrArg some hwhole, hnum⟩

/-- The number fields of a request, for every value and all bounds within 32
bits and a sign. A value is taken exactly unless it is a text with a NUL that is
a number within the bounds up to there; no step of the loop leaves 64 bits; a
number is the same to the check as a JSON integer and as a text. -/
theorem integer_exact_iff (value : JsonVariant) (minimum maximum : Int) (hmin : -2 ^ 32 < minimum) (hmax : maximum < 2 ^ 32) :
    (Exact value minimum maximum ↔ ¬CutNumber value minimum maximum) ∧
    (∀ text, (∀ m ∈ digitSteps (digitsOf text) 0, -2 ^ 63 < m ∧ m < 2 ^ 63) ∧
      ∀ n, digits (digitsOf text) 0 = some n → n = 0 ∨ n ∈ digitSteps (digitsOf text) 0) ∧
    ∀ text n, IsNumeral text n → integer (.text text) minimum maximum = integer (.integer n) minimum maximum := by
  refine ⟨exact_iff hmin hmax, fun text => ⟨fun m hm => ?_, fun n => digits_mem_steps⟩, fun text n hnum => ?_⟩
  · have hbounds := digitSteps_bounds (by decide) (by decide) m hm
    omega
  · have hwhole : (JsonVariant.text text).asText = some text :=
      congrArg some (takeWhile_of_noNul hnum.noNul)
    refine Option.ext fun m => ?_
    rw [integer_iff hmin hmax, integer_iff hmin hmax]
    refine and_congr_right fun _ => ?_
    constructor
    · rintro (hvalue | ⟨text', he, hm⟩)
      · cases hvalue
      · obtain rfl := Option.some.inj (hwhole.symm.trans he)
        exact Or.inl (congrArg JsonVariant.integer (hnum.unique hm))
    · rintro (hvalue | ⟨text', he, -⟩)
      · obtain rfl := JsonVariant.integer.inj hvalue
        exact Or.inr ⟨text, hwhole, hnum⟩
      · exact absurd he.symm (Option.some_ne_none text')

/-- The number 5 as a text, for an amount. -/
theorem integer_exact_five : Exact (.text [53]) (-1) 0x7fffffff := by
  refine (integer_exact_iff (.text [53]) (-1) 0x7fffffff (by decide) (by decide)).1.2 ?_
  rintro ⟨head, tail, n, hvalue, -⟩
  have hmem : (0 : UInt8) ∈ ([53] : List UInt8) := JsonVariant.text.inj hvalue ▸ by simp
  exact absurd hmem (by decide)

/-- `"5\u0000x"` is taken for 5. -/
theorem cut_number_taken : ¬Exact (.text [53, 0, 120]) 0 254 := by
  intro h
  obtain ⟨-, hvalue | ⟨text, he, hnum⟩⟩ := (h 5).1 (by decide)
  · cases hvalue
  · obtain rfl := JsonVariant.text.inj he
    exact hnum.noNul (by decide)

end OrangeBox.ParamChecks
