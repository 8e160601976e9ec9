import OrangeBox.Lib.Decimal
/-!
# `strtoul`

The C function for base 10 and an `unsigned long` of 32 bits. It skips white
space, takes a plus or a minus sign, negates in unsigned arithmetic and
saturates; `reads_iff` says which texts it reads to their end.
-/

namespace Strtoul

/-- `isspace` in the C locale. -/
def isSpace (ch : UInt8) : Bool := ch = 32 || (9 ≤ ch && ch ≤ 13)

/-- The number that a sign and digits stand for. -/
def number (negative : Bool) (magnitude : Nat) : Nat :=
  if 2 ^ 32 ≤ magnitude then 2 ^ 32 - 1
  else if negative then (2 ^ 32 - magnitude) % 2 ^ 32
  else magnitude

/-- `strtoul(text, &end, 10)`: the number, and the text from `end` on. -/
def strtoul (text : List UInt8) : Nat × List UInt8 :=
  let body := text.dropWhile isSpace
  let unsigned := if body.head? = some 43 ∨ body.head? = some 45 then body.tail else body
  let digits := unsigned.takeWhile Decimal.isDigit
  if digits = [] then (0, text)
  else (number (body.head? = some 45) (Decimal.value digits), unsigned.dropWhile Decimal.isDigit)

/-- A number that is read to its end: white space, a sign and digits. -/
structure Spelled (text blanks sign digits : List UInt8) : Prop where
  text_eq : text = blanks ++ (sign ++ digits)
  blanks : ∀ ch ∈ blanks, isSpace ch = true
  sign : sign = [] ∨ sign = [43] ∨ sign = [45]
  ne_nil : digits ≠ []
  digits : ∀ ch ∈ digits, Decimal.isDigit ch = true

variable {text blanks sign digits : List UInt8}

theorem not_isSpace_of_isDigit {ch : UInt8} (h : Decimal.isDigit ch = true) : isSpace ch = false := by
  simp only [Decimal.isDigit, Bool.and_eq_true, decide_eq_true_eq, UInt8.le_iff_toNat_le] at h
  simp only [isSpace, Bool.or_eq_false_iff, Bool.and_eq_false_iff, decide_eq_false_iff_not, UInt8.le_iff_toNat_le,
    ← UInt8.toNat_inj]
  have h48 : (48 : UInt8).toNat = 48 := rfl
  have h57 : (57 : UInt8).toNat = 57 := rfl
  have h32 : (32 : UInt8).toNat = 32 := rfl
  have h13 : (13 : UInt8).toNat = 13 := rfl
  omega

/-- The head of the number is no sign, nor white space. -/
theorem Spelled.head_digits (h : Spelled text blanks sign digits) :
    ∃ ch ds, digits = ch :: ds ∧ isSpace ch = false ∧ ch ≠ 43 ∧ ch ≠ 45 := by
  cases digits with
  | nil => exact absurd rfl h.ne_nil
  | cons ch ds =>
    have hdigit := h.digits ch List.mem_cons_self
    refine ⟨ch, ds, rfl, not_isSpace_of_isDigit hdigit, ?_, ?_⟩ <;>
    · rintro rfl
      exact absurd hdigit (by decide)

/-- A number is read to its end. -/
theorem Spelled.strtoul_eq (h : Spelled text blanks sign digits) :
    strtoul text = (number (sign = [45]) (Decimal.value digits), []) := by
  obtain ⟨ch, ds, hhead, hspace, h43, h45⟩ := h.head_digits
  have htake : digits.takeWhile Decimal.isDigit = digits := List.takeWhile_eq_self_iff.2 h.digits
  have hdrop : digits.dropWhile Decimal.isDigit = [] := List.dropWhile_eq_nil_iff.2 h.digits
  -- The white space ends at the sign, or at the first digit.
  have hbody : text.dropWhile isSpace = sign ++ digits := by
    rw [h.text_eq, List.dropWhile_append_of_pos h.blanks, hhead]
    rcases h.sign with hs | hs | hs <;> rw [hs]
    · rw [List.nil_append, List.dropWhile_cons_of_neg (by rw [hspace]; decide)]
    · rw [List.singleton_append, List.dropWhile_cons_of_neg (by decide)]
    · rw [List.singleton_append, List.dropWhile_cons_of_neg (by decide)]
  unfold strtoul
  dsimp only
  rw [hbody]
  rcases h.sign with hs | hs | hs <;> rw [hs]
  · have hplain : ¬(digits.head? = some 43 ∨ digits.head? = some 45) := by
      rw [hhead, List.head?_cons, Option.some_inj, Option.some_inj]
      exact not_or.2 ⟨h43, h45⟩
    have hsign : ¬digits.head? = some 45 := fun hd => hplain (Or.inr hd)
    rw [List.nil_append, if_neg hplain, htake, if_neg h.ne_nil, hdrop]
    simp [hsign]
  · rw [List.singleton_append, if_pos (Or.inl List.head?_cons), List.tail_cons, htake, if_neg h.ne_nil, hdrop]
    rfl
  · rw [List.singleton_append, if_pos (Or.inr List.head?_cons), List.tail_cons, htake, if_neg h.ne_nil, hdrop]
    rfl

/-- Only numbers are read to their end. -/
theorem exists_spelled (hne : text ≠ []) (h : (strtoul text).2 = []) : ∃ blanks sign digits, Spelled text blanks sign digits := by
  unfold strtoul at h
  dsimp only at h
  generalize hbody : text.dropWhile isSpace = body at h
  have hsplit := List.takeWhile_append_dropWhile (p := isSpace) (l := text)
  rw [hbody] at hsplit
  have hblanks : ∀ ch ∈ text.takeWhile isSpace, isSpace ch = true := fun ch hch => List.mem_takeWhile_imp hch
  have hread : ∀ unsigned : List UInt8, (if unsigned.takeWhile Decimal.isDigit = [] then ((0 : Nat), text)
      else (number (body.head? = some 45) (Decimal.value (unsigned.takeWhile Decimal.isDigit)),
        unsigned.dropWhile Decimal.isDigit)).2 = [] →
      unsigned ≠ [] ∧ ∀ ch ∈ unsigned, Decimal.isDigit ch = true := by
    intro unsigned hrest
    by_cases hds : unsigned.takeWhile Decimal.isDigit = []
    · rw [if_pos hds] at hrest
      exact absurd hrest hne
    · rw [if_neg hds] at hrest
      refine ⟨?_, List.dropWhile_eq_nil_iff.1 hrest⟩
      rintro rfl
      exact hds rfl
  by_cases hsign : body.head? = some 43 ∨ body.head? = some 45
  · rw [if_pos hsign] at h
    obtain ⟨hnil, hall⟩ := hread body.tail h
    cases body with
    | nil => exact absurd rfl hnil
    | cons ch ds =>
      rw [List.head?_cons, Option.some_inj, Option.some_inj] at hsign
      refine ⟨_, [ch], ds, hsplit.symm, hblanks, ?_, hnil, hall⟩
      rcases hsign with rfl | rfl
      · exact Or.inr (Or.inl rfl)
      · exact Or.inr (Or.inr rfl)
  · rw [if_neg hsign] at h
    obtain ⟨hnil, hall⟩ := hread body h
    exact ⟨_, [], body, hsplit.symm, hblanks, Or.inl rfl, hnil, hall⟩

/-- The texts that are read to their end, and as which number. -/
theorem reads_iff {n : Nat} (hne : text ≠ []) : strtoul text = (n, []) ↔
    ∃ blanks sign digits, Spelled text blanks sign digits ∧ number (sign = [45]) (Decimal.value digits) = n := by
  constructor
  · intro h
    obtain ⟨blanks, sign, digits, hs⟩ := exists_spelled hne (by rw [h])
    rw [hs.strtoul_eq, Prod.mk.injEq] at h
    exact ⟨blanks, sign, digits, hs, h.1⟩
  · rintro ⟨blanks, sign, digits, hs, rfl⟩
    exact hs.strtoul_eq

end Strtoul
