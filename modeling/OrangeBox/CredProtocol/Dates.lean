import OrangeBox.Lib.Segments
import OrangeBox.CredProtocol.Request
/-!
# Dates in a listing

`formatDate` of `cred_protocol.cpp`, and that `parseDate` reads back what it
writes: for either end of a validity, every bound that a request can set is
written as a text that sets the same bound (`parseDate_formatDate`).
-/

namespace OrangeBox.CredProtocol

variable {year month day : Nat} {value : JsonVariant} {endOfDay : Bool} {t : UInt64}

/-- The digit of a number at a power of ten. -/
def digitOf (n power : Nat) : UInt8 := UInt8.ofNat (48 + n / power % 10)

/-- `%04d-%02d-%02u`, for numbers with so many digits. -/
def dateText (year month day : Nat) : List UInt8 :=
  [digitOf year 1000, digitOf year 100, digitOf year 10, digitOf year 1, 45, digitOf month 10, digitOf month 1, 45,
    digitOf day 10, digitOf day 1]

/-- The first day of a year, counted from 1970. -/
def yearStart (year : Nat) : Int := yearDays year - yearDays 1970

def formatDate (timestamp : UInt64) (endOfDay : Bool) : List UInt8 :=
  if timestamp = 0 then
    if endOfDay then ascii ['9', '9', '9', '9', '-', '1', '2', '-', '3', '1']
    else ascii ['0', '0', '0', '1', '-', '0', '1', '-', '0', '1']
  else
    let days := timestamp.toNat / 86400
    if (days : Int) ≥ yearDays 10000 - yearDays 1970 then ascii ['9', '9', '9', '9', '-', '1', '2', '-', '3', '1']
    else
      -- Both loops end: no year and no month lies that far ahead (`formatDate_day`).
      let year := Segments.seek yearStart days 10000 (1970 + days / 366)
      let (rest, month) := Segments.walkOff (monthDays year) 12 (days - yearStart year) 1
      dateText year month (rest + 1).toNat

/-! ## The calendar -/

theorem yearDays_natCast (h : 1 ≤ year) : yearDays year = ((year - 1) * 365 + (year - 1) / 4 - (year - 1) / 100 + (year - 1) / 400 : Nat) := by
  unfold yearDays
  obtain ⟨y, rfl⟩ : ∃ y, year = y + 1 := ⟨year - 1, by omega⟩
  dsimp only
  rw [Nat.cast_add, Nat.cast_one, Int.add_sub_cancel, Nat.add_sub_cancel, Int.tdiv_eq_ediv_of_nonneg (by omega),
    Int.tdiv_eq_ediv_of_nonneg (by omega), Int.tdiv_eq_ediv_of_nonneg (by omega)]
  omega

theorem leap_natCast : leap year = true ↔ year % 4 = 0 ∧ (year % 100 ≠ 0 ∨ year % 400 = 0) := by
  unfold leap
  rw [Int.tmod_eq_emod_of_nonneg (by omega), Int.tmod_eq_emod_of_nonneg (by omega), Int.tmod_eq_emod_of_nonneg (by omega)]
  simp only [Bool.and_eq_true, Bool.or_eq_true, decide_eq_true_eq]
  omega

/-- A year has 365 days, or 366. -/
theorem yearStart_succ (h : 1 ≤ year) : yearStart (year + 1) = yearStart year + 365 + if leap year = true then 1 else 0 := by
  obtain ⟨y, rfl⟩ : ∃ y, year = y + 1 := ⟨year - 1, by omega⟩
  have hleap : leap ((y + 1 : Nat) : Int) = true ↔ _ := leap_natCast
  simp only [← Nat.dvd_iff_mod_eq_zero, ne_eq] at hleap
  unfold yearStart
  rw [yearDays_natCast h, yearDays_natCast (by omega : 1 ≤ y + 1 + 1)]
  simp only [Nat.add_sub_cancel, Nat.succ_div]
  -- The three quotients each grow by one exactly when their divisor is reached.
  have hle : y / 100 ≤ y * 365 + y / 4 := (Nat.div_le_self y 100).trans (by omega)
  generalize y / 4 = a, y / 100 = b, y / 400 = c at *
  by_cases hl : leap ((y + 1 : Nat) : Int) = true
  · have hdvd := hleap.1 hl
    rw [if_pos hl]
    split_ifs <;> omega
  · have hdvd := mt hleap.2 hl
    rw [if_neg hl]
    split_ifs <;> omega

theorem yearStart_mono : Monotone yearStart := by
  refine monotone_nat_of_le_succ fun year => ?_
  cases year with
  | zero => decide
  | succ y =>
    have hnext : yearStart (y + 1 + 1) = yearStart (y + 1) + 365 + _ := yearStart_succ (Nat.succ_pos y)
    rw [hnext]
    split <;> omega

theorem yearStart_le (n : Nat) : yearStart (1970 + n) ≤ 366 * n := by
  induction n with
  | zero => decide
  | succ n ih =>
    rw [← Nat.add_assoc, yearStart_succ (Nat.le_add_right_of_le (by decide))]
    push_cast
    split <;> omega

theorem monthDays_nonneg (year : Int) (month : Nat) : 0 ≤ monthDays year month := by
  have hlist : ∀ i, (0 : Int) ≤ [31, 28, 31, 30, 31, 30, 31, 31, 30, 31, 30, 31].getD i 0 := by
    intro i
    by_cases hi : i < 12
    · interval_cases i <;> decide
    · rw [List.getD_eq_default _ _ (by simpa using hi)]
  have hmonth := hlist (month - 1)
  unfold monthDays
  split <;> omega

/-- The months of a year. -/
theorem total_monthDays (year : Nat) : Segments.total (monthDays year) 1 12 = 365 + if leap year = true then 1 else 0 := by
  by_cases hl : leap year = true
  · simp [Segments.total, List.range_succ, monthDays, hl]
  · simp [Segments.total, List.range_succ, monthDays, hl]

/-- A day that `parseDate` takes. -/
structure IsDate (year month day : Nat) : Prop where
  year_ge : 1970 ≤ year
  year_le : year ≤ 9999
  month_pos : 1 ≤ month
  month_le : month ≤ 12
  day_pos : 1 ≤ day
  day_le : (day : Int) ≤ monthDays year month

/-- The days from 1970 to a date. -/
def dayNumber (year month day : Nat) : Int := yearStart year + Segments.total (monthDays year) 1 (month - 1) + (day - 1)

theorem IsDate.bounds (h : IsDate year month day) :
    yearStart year ≤ dayNumber year month day ∧ dayNumber year month day < yearStart (year + 1) := by
  have hbefore := Segments.total_nonneg (monthDays_nonneg year) 1 (month - 1)
  have hafter := Segments.total_nonneg (monthDays_nonneg year) (month + 1) (12 - month)
  have hall : Segments.total (monthDays year) 1 12 = Segments.total (monthDays year) 1 (month - 1) +
      (monthDays year month + Segments.total (monthDays year) (month + 1) (12 - month)) := by
    have hmonth := h.month_pos
    have hle := h.month_le
    rw [← Segments.total_succ, ← Nat.sub_add_comm hle, show 12 + 1 - month = 12 - (month - 1) by omega]
    conv_lhs => rw [show 12 = month - 1 + (12 - (month - 1)) by omega]
    rw [Segments.total_add, show 1 + (month - 1) = month by omega]
  have hday := h.day_pos
  have hlast := h.day_le
  have hge := h.year_ge
  rw [total_monthDays] at hall
  rw [yearStart_succ (by omega), dayNumber]
  omega

theorem IsDate.dayNumber_lt (h : IsDate year month day) : dayNumber year month day < yearDays 10000 - yearDays 1970 := by
  have hle : yearStart (year + 1) ≤ yearStart 10000 := yearStart_mono (by have := h.year_le; omega)
  exact Int.lt_of_lt_of_le h.bounds.2 hle

theorem IsDate.dayNumber_nonneg (h : IsDate year month day) : 0 ≤ dayNumber year month day := by
  have hle : yearStart 1970 ≤ yearStart year := yearStart_mono h.year_ge
  exact Int.le_trans hle h.bounds.1

/-- The loop over the years stops at the year of the day. -/
theorem IsDate.seek_year (h : IsDate year month day) {rounds : Nat} (hrounds : 8030 ≤ rounds) :
    Segments.seek yearStart (dayNumber year month day) rounds (1970 + (dayNumber year month day).toNat / 366) = year := by
  obtain ⟨hlo, hhi⟩ := h.bounds
  have hge := h.year_ge
  have hle := h.year_le
  have hnonneg := h.dayNumber_nonneg
  -- The guess of the year is not too high.
  have hguess : 1970 + (dayNumber year month day).toNat / 366 ≤ year := by
    by_contra hlt
    have hmono : yearStart (year + 1) ≤ yearStart (1970 + (dayNumber year month day).toNat / 366) := yearStart_mono (by omega)
    have hbound := yearStart_le ((dayNumber year month day).toNat / 366)
    have hdiv : (dayNumber year month day).toNat / 366 * 366 ≤ (dayNumber year month day).toNat := Nat.div_mul_le_self _ _
    omega
  exact Segments.seek_eq yearStart_mono hguess hlo hhi (by omega)

/-- The loop over the months stops at its month. -/
theorem IsDate.walkOff_month (h : IsDate year month day) {rounds : Nat} (hrounds : 12 ≤ rounds) :
    Segments.walkOff (monthDays year) rounds (dayNumber year month day - yearStart year) 1 = ((day : Int) - 1, month) := by
  have hmonth := h.month_pos
  have hmonth_le := h.month_le
  have hday := h.day_pos
  have hday_le := h.day_le
  have hrest : dayNumber year month day - yearStart year =
      Segments.total (monthDays year) 1 (month - 1) + ((day : Int) - 1) := by
    rw [dayNumber]
    omega
  have hlast : (day : Int) - 1 < monthDays year (1 + (month - 1)) := by
    rw [show 1 + (month - 1) = month by omega]
    omega
  rw [hrest, Segments.walkOff_eq (monthDays_nonneg year) (by omega) hlast (by omega),
    show 1 + (month - 1) = month by omega]

/-- The day of a date is written as that date. -/
theorem formatDate_day (h : IsDate year month day) (ht : t ≠ 0) (hday : (t.toNat / 86400 : Nat) = dayNumber year month day) :
    formatDate t endOfDay = dateText year month day := by
  have hseek := h.seek_year (by decide : 8030 ≤ 10000)
  have hday_pos := h.day_pos
  rw [← hday, Int.toNat_natCast] at hseek
  rw [formatDate, if_neg ht]
  dsimp only
  rw [hseek, hday, if_neg (Int.not_le.2 h.dayNumber_lt), h.walkOff_month (Nat.le_refl 12)]
  dsimp only
  rw [show ((day : Int) - 1 + 1).toNat = day by omega]

/-! ## Reading a date back -/

/-- The text of an open bound. -/
def openText (endOfDay : Bool) : List UInt8 :=
  if endOfDay then ascii ['9', '9', '9', '9', '-', '1', '2', '-', '3', '1']
  else ascii ['0', '0', '0', '1', '-', '0', '1', '-', '0', '1']

/-- The bound a day sets. -/
def boundOf (days : Int) (endOfDay : Bool) : UInt64 := days.toNat.toUInt64 * 86400 + (if endOfDay then 86399 else 0)

theorem toNat_digitOf (n power : Nat) : (digitOf n power).toNat = 48 + n / power % 10 := by
  have hlt : 48 + n / power % 10 < 256 := by omega
  rw [digitOf, UInt8.toNat_ofNat_of_lt' hlt]

/-- A character is a digit. -/
def IsDigit (ch : UInt8) : Prop := 48 ≤ ch.toNat ∧ ch.toNat ≤ 57

theorem isDigit_digitOf (n power : Nat) : IsDigit (digitOf n power) := by
  rw [IsDigit, toNat_digitOf]
  omega

theorem digitOf_eq {ch : UInt8} {n power : Nat} (h : 48 + n / power % 10 = ch.toNat) : digitOf n power = ch :=
  UInt8.toNat_inj.1 (by rw [toNat_digitOf, h])

theorem noNul_dateText (year month day : Nat) : 0 ∉ dateText year month day := by
  have hdigit : ∀ n power, (0 : UInt8) ≠ digitOf n power := fun n power he => by
    have := isDigit_digitOf n power
    rw [← he] at this
    exact absurd this.1 (by decide)
  simp [dateText, hdigit]

theorem asText_dateText (year month day : Nat) :
    (JsonVariant.text (dateText year month day)).asText = some (dateText year month day) := by
  exact congrArg some (takeWhile_of_noNul (noNul_dateText _ _ _))

/-- The shape of a date text. -/
structure DateShape (text : List UInt8) : Prop where
  length : text.length = 10
  dash₁ : text.getD 4 0 = 45
  dash₂ : text.getD 7 0 = 45
  digits : ∀ i < 10, i ≠ 4 → i ≠ 7 → IsDigit (text.getD i 0)

theorem dateShape_dateText (year month day : Nat) : DateShape (dateText year month day) where
  length := rfl
  dash₁ := rfl
  dash₂ := rfl
  digits i hi h₁ h₂ := by
    interval_cases i <;> first | contradiction | exact isDigit_digitOf _ _

theorem not_isDigit_iff {ch : UInt8} : ch < 48 ∨ ch > 57 ↔ ¬IsDigit ch := by
  rw [IsDigit, UInt8.lt_iff_toNat_lt, gt_iff_lt, UInt8.lt_iff_toNat_lt]
  change ch.toNat < 48 ∨ 57 < ch.toNat ↔ _
  omega

/-- The value of the digit at a position. -/
def digitAt (text : List UInt8) (i : Nat) : Nat := (text.getD i 0).toNat - 48

def yearOf (text : List UInt8) : Nat := digitAt text 0 * 1000 + digitAt text 1 * 100 + digitAt text 2 * 10 + digitAt text 3

def monthOf (text : List UInt8) : Nat := digitAt text 5 * 10 + digitAt text 6

def dayOf (text : List UInt8) : Nat := digitAt text 8 * 10 + digitAt text 9

theorem dateShape_iff {text : List UInt8} : DateShape text ↔
    ¬(text.length ≠ 10 ∨ text.getD 4 0 ≠ 45 ∨ text.getD 7 0 ≠ 45) ∧
      ¬(List.range 10).any (fun i => i ≠ 4 && i ≠ 7 && (text.getD i 0 < 48 || text.getD i 0 > 57)) = true := by
  have hany : ¬(List.range 10).any (fun i => i ≠ 4 && i ≠ 7 && (text.getD i 0 < 48 || text.getD i 0 > 57)) = true ↔
      ∀ i < 10, i ≠ 4 → i ≠ 7 → IsDigit (text.getD i 0) := by
    rw [Bool.not_eq_true, List.any_eq_false]
    refine forall_congr' fun i => ?_
    rw [List.mem_range]
    refine imp_congr_right fun _ => ?_
    have hdigit := @not_isDigit_iff (text.getD i 0)
    simp only [Bool.and_eq_true, Bool.or_eq_true, decide_eq_true_eq, hdigit, not_and, not_not, and_imp]
  rw [hany]
  constructor
  · rintro ⟨hl, h₁, h₂, hd⟩
    exact ⟨by simp only [hl, h₁, h₂, ne_eq, not_true, or_self, not_false_iff], hd⟩
  · rintro ⟨hbad, hd⟩
    simp only [not_or, not_not, ne_eq] at hbad
    exact ⟨hbad.1, hbad.2.1, hbad.2.2, hd⟩

theorem DateShape.digitAt_le {text : List UInt8} (h : DateShape text) {i : Nat} (hi : i < 10) (h₁ : i ≠ 4) (h₂ : i ≠ 7) :
    digitAt text i ≤ 9 := by
  have hd := (h.digits i hi h₁ h₂).2
  unfold digitAt
  omega

theorem DateShape.yearOf_le {text : List UInt8} (h : DateShape text) : yearOf text ≤ 9999 := by
  have h0 := h.digitAt_le (show 0 < 10 by decide) (by decide) (by decide)
  have h1 := h.digitAt_le (show 1 < 10 by decide) (by decide) (by decide)
  have h2 := h.digitAt_le (show 2 < 10 by decide) (by decide) (by decide)
  have h3 := h.digitAt_le (show 3 < 10 by decide) (by decide) (by decide)
  unfold yearOf
  omega

/-- The days that `parseDate` counts are those of the calendar. -/
theorem days_parsed (year month day : Nat) :
    yearDays year - yearDays 1970 + (day : Int) - 1 + ((List.range (month - 1)).map fun m => monthDays year (m + 1)).sum =
      dayNumber year month day := by
  have hsum : ((List.range (month - 1)).map fun m => monthDays year (m + 1)) =
      (List.range (month - 1)).map fun m => monthDays year (1 + m) :=
    List.map_congr_left fun m _ => by rw [Nat.add_comm]
  rw [dayNumber, Segments.total, hsum, yearStart]
  omega

/-- What `parseDate` takes beside the open bounds. -/
theorem parseDate_eq_some_iff {text : List UInt8} (htext : value.asText = some text)
    (hopen : ¬(text = [] ∨ text = openText endOfDay)) : parseDate value endOfDay = some t ↔
      DateShape text ∧ IsDate (yearOf text) (monthOf text) (dayOf text) ∧
        boundOf (dayNumber (yearOf text) (monthOf text) (dayOf text)) endOfDay = t := by
  unfold openText at hopen
  unfold parseDate
  rw [htext]
  dsimp only
  rw [if_neg hopen]
  by_cases hshape : DateShape text
  · obtain ⟨hlen, hdigits⟩ := dateShape_iff.1 hshape
    rw [if_neg hlen, if_neg hdigits]
    have hyear : (((text.getD 0 0).toNat - 48 : Nat) : Int) * 1000 + ((text.getD 1 0).toNat - 48 : Nat) * 100 +
        ((text.getD 2 0).toNat - 48 : Nat) * 10 + ((text.getD 3 0).toNat - 48 : Nat) = (yearOf text : Nat) := by
      unfold yearOf digitAt
      push_cast
      rfl
    have hmonth : ((text.getD 5 0).toNat - 48) * 10 + ((text.getD 6 0).toNat - 48) = monthOf text := rfl
    have hday : ((text.getD 8 0).toNat - 48) * 10 + ((text.getD 9 0).toNat - 48) = dayOf text := rfl
    rw [hyear, hmonth, hday]
    rw [days_parsed]
    by_cases hdate : IsDate (yearOf text) (monthOf text) (dayOf text)
    · have hin : ¬((yearOf text : Int) < 1970 ∨ monthOf text < 1 ∨ monthOf text > 12 ∨ dayOf text < 1 ∨
          (dayOf text : Int) > monthDays (yearOf text) (monthOf text)) := by
        obtain ⟨h1, -, h3, h4, h5, h6⟩ := hdate
        omega
      rw [if_neg hin, Option.some_inj]
      exact ⟨fun h => ⟨hshape, hdate, h⟩, fun h => h.2.2⟩
    · have hout : (yearOf text : Int) < 1970 ∨ monthOf text < 1 ∨ monthOf text > 12 ∨ dayOf text < 1 ∨
          (dayOf text : Int) > monthDays (yearOf text) (monthOf text) := by
        by_contra hin
        exact hdate ⟨by omega, hshape.yearOf_le, by omega, by omega, by omega, by omega⟩
      rw [if_pos hout]
      exact ⟨fun h => absurd h.symm (Option.some_ne_none t), fun h => absurd h.2.1 hdate⟩
  · -- Whatever the date would be, one of the first two checks refuses the text.
    have hnone : ∀ x : Option UInt64, (if text.length ≠ 10 ∨ text.getD 4 0 ≠ 45 ∨ text.getD 7 0 ≠ 45 then none
        else if (List.range 10).any (fun i => i ≠ 4 && i ≠ 7 && (text.getD i 0 < 48 || text.getD i 0 > 57)) = true then none
        else x) = none := fun x => by
      by_cases hlen : text.length ≠ 10 ∨ text.getD 4 0 ≠ 45 ∨ text.getD 7 0 ≠ 45
      · rw [if_pos hlen]
      · by_cases hdigits : (List.range 10).any
            (fun i => i ≠ 4 && i ≠ 7 && (text.getD i 0 < 48 || text.getD i 0 > 57)) = true
        · rw [if_neg hlen, if_pos hdigits]
        · exact absurd (dateShape_iff.2 ⟨hlen, hdigits⟩) hshape
    rw [hnone]
    exact ⟨fun h => absurd h.symm (Option.some_ne_none t), fun h => absurd h.1 hshape⟩

/-- A text of that shape is the one of its numbers. -/
theorem dateText_of_shape {text : List UInt8} (h : DateShape text) : dateText (yearOf text) (monthOf text) (dayOf text) = text := by
  obtain ⟨hlen, hdash₁, hdash₂, -⟩ := id h
  have hdigit : ∀ i n power, i < 10 → i ≠ 4 → i ≠ 7 → n / power % 10 = digitAt text i → digitOf n power = text.getD i 0 := by
    intro i n power hi h₁ h₂ hn
    have hd := h.digits i hi h₁ h₂
    refine digitOf_eq ?_
    rw [hn]
    unfold digitAt
    unfold IsDigit at hd
    omega
  refine List.ext_getElem hlen.symm fun i hi hi' => ?_
  rw [← List.getD_eq_getElem _ 0 hi, ← List.getD_eq_getElem _ 0 hi']
  rw [hlen] at hi'
  have hle : ∀ i < 10, i ≠ 4 → i ≠ 7 → digitAt text i ≤ 9 := fun i hi h₁ h₂ => h.digitAt_le hi h₁ h₂
  have h0 := hle 0 (by decide) (by decide) (by decide)
  have h1 := hle 1 (by decide) (by decide) (by decide)
  have h2 := hle 2 (by decide) (by decide) (by decide)
  have h3 := hle 3 (by decide) (by decide) (by decide)
  have h5 := hle 5 (by decide) (by decide) (by decide)
  have h6 := hle 6 (by decide) (by decide) (by decide)
  have h8 := hle 8 (by decide) (by decide) (by decide)
  have h9 := hle 9 (by decide) (by decide) (by decide)
  interval_cases i
  · exact hdigit 0 (yearOf text) 1000 hi' (by decide) (by decide) (by unfold yearOf; omega)
  · exact hdigit 1 (yearOf text) 100 hi' (by decide) (by decide) (by unfold yearOf; omega)
  · exact hdigit 2 (yearOf text) 10 hi' (by decide) (by decide) (by unfold yearOf; omega)
  · exact hdigit 3 (yearOf text) 1 hi' (by decide) (by decide) (by unfold yearOf; omega)
  · exact hdash₁.symm
  · exact hdigit 5 (monthOf text) 10 hi' (by decide) (by decide) (by unfold monthOf; omega)
  · exact hdigit 6 (monthOf text) 1 hi' (by decide) (by decide) (by unfold monthOf; omega)
  · exact hdash₂.symm
  · exact hdigit 8 (dayOf text) 10 hi' (by decide) (by decide) (by unfold dayOf; omega)
  · exact hdigit 9 (dayOf text) 1 hi' (by decide) (by decide) (by unfold dayOf; omega)

/-- The bound of a day in seconds. -/
theorem toNat_boundOf_natCast {n : Nat} (hn : n < 2932897) :
    (boundOf n endOfDay).toNat = n * 86400 + if endOfDay then 86399 else 0 := by
  have hcast : (n.toUInt64).toNat = n := UInt64.toNat_ofNat_of_lt' (Nat.lt_of_lt_of_le hn (by decide))
  have h86400 : (86400 : UInt64).toNat = 86400 := rfl
  have h86399 : (86399 : UInt64).toNat = 86399 := rfl
  rw [boundOf, Int.toNat_natCast]
  cases endOfDay with
  | true =>
    simp only [if_true, UInt64.toNat_add, UInt64.toNat_mul, hcast, h86400, h86399]
    omega
  | false =>
    simp only [Bool.false_eq_true, if_false, UInt64.add_zero, UInt64.toNat_mul, hcast, h86400, Nat.add_zero]
    omega

/-- The bound of a day lies in it. -/
theorem toNat_boundOf (h : IsDate year month day) (endOfDay : Bool) :
    ((boundOf (dayNumber year month day) endOfDay).toNat / 86400 : Nat) = dayNumber year month day := by
  have hpos := h.dayNumber_nonneg
  have hlt := h.dayNumber_lt
  rw [show yearDays 10000 - yearDays 1970 = 2932897 by decide] at hlt
  generalize dayNumber year month day = days at *
  obtain ⟨n, rfl⟩ := Int.eq_ofNat_of_zero_le hpos
  rw [toNat_boundOf_natCast (by omega)]
  split <;> omega

/-- For either end, a bound that a request can set is written as a text that
sets it again. -/
theorem parseDate_formatDate (h : parseDate value endOfDay = some t) :
    parseDate (.text (formatDate t endOfDay)) endOfDay = some t := by
  by_cases ht : t = 0
  · subst ht
    cases endOfDay <;> decide
  cases htext : value.asText with
  | none =>
    unfold parseDate at h
    rw [htext] at h
    contradiction
  | some text =>
    have hopen : ¬(text = [] ∨ text = openText endOfDay) := fun hopen => by
      unfold parseDate at h
      rw [htext] at h
      unfold openText at hopen
      dsimp only at h
      rw [if_pos hopen] at h
      exact ht (Option.some.inj h).symm
    obtain ⟨hshape, hdate, rfl⟩ := (parseDate_eq_some_iff htext hopen).1 h
    have hwritten := dateText_of_shape hshape
    rw [formatDate_day hdate ht (toNat_boundOf hdate endOfDay)]
    rw [hwritten]
    have hasText : (JsonVariant.text text).asText = some text := by
      have hread := asText_dateText (yearOf text) (monthOf text) (dayOf text)
      rwa [hwritten] at hread
    exact (parseDate_eq_some_iff hasText hopen).2 ⟨hshape, hdate, rfl⟩

end OrangeBox.CredProtocol
