import OrangeBox.Lib.Calendar
import OrangeBox.CredProtocol.Dates
/-!
# Dates and the calendar

The closed form of `parseDate` and the two loops of `formatDate` against the
days of the Gregorian calendar, counted one by one from 1970-01-01.
-/

namespace OrangeBox.CredProtocol

open Calendar

variable {value : JsonVariant} {endOfDay : Bool} {t : UInt64} {date : Date} {n : Nat}

/-- 1970-01-01. -/
def epoch : Date := Date.newYear 1970

/-- YYYY-MM-DD. -/
def written (date : Date) : List UInt8 := dateText date.year date.month date.day

theorem leap_isLeap (year : Nat) : leap year = isLeap year := by
  rw [Bool.eq_iff_iff, leap_natCast]
  simp only [isLeap, Bool.and_eq_true, Bool.or_eq_true, decide_eq_true_eq]

theorem monthDays_monthLength (year : Nat) {month : Nat} (h : 1 ≤ month) (h' : month ≤ 12) :
    monthDays year month = monthLength year month := by
  unfold monthDays
  rw [leap_isLeap]
  interval_cases month <;> simp [monthLength]
  split <;> rfl

/-- The dates that `parseDate` takes are those of the calendar. -/
theorem isDate_date (hge : 1970 ≤ date.year) (hle : date.year ≤ 9999) : IsDate date.year date.month date.day where
  year_ge := hge
  year_le := hle
  month_pos := date.month_pos
  month_le := date.month_le
  day_pos := date.day_pos
  day_le := by
    rw [monthDays_monthLength _ date.month_pos date.month_le]
    exact_mod_cast date.day_le

theorem IsDate.exists_date {year month day : Nat} (h : IsDate year month day) :
    ∃ date : Date, date.year = year ∧ date.month = month ∧ date.day = day := by
  have hday := h.day_le
  rw [monthDays_monthLength _ h.month_pos h.month_le] at hday
  exact ⟨⟨year, month, day, h.month_pos, h.month_le, h.day_pos, by exact_mod_cast hday⟩, rfl, rfl, rfl⟩

/-! ## Counting days -/

/-- The closed form for a date. -/
def daysOf (date : Date) : Int := dayNumber date.year date.month date.day

theorem total_concat (length : Nat → Int) (i n : Nat) :
    Segments.total length i (n + 1) = Segments.total length i n + length (i + n) := by
  rw [Segments.total_add]
  simp [Segments.total]

/-- One day more. -/
theorem daysOf_next (h : 1 ≤ date.year) : daysOf date.next = daysOf date + 1 := by
  have hmonth := date.month_pos
  have hmonth_le := date.month_le
  have hlength := monthDays_monthLength date.year hmonth hmonth_le
  have hday := date.day_le
  unfold daysOf Date.next
  by_cases hin : date.day < monthLength date.year date.month
  · -- Within the month.
    rw [dif_pos hin]
    unfold dayNumber
    push_cast
    omega
  · rw [dif_neg hin]
    by_cases hnext : date.month < 12
    · -- On to the next month.
      rw [dif_pos hnext]
      have htotal := total_concat (monthDays date.year) 1 (date.month - 1)
      rw [show 1 + (date.month - 1) = date.month by omega, show date.month - 1 + 1 = date.month by omega] at htotal
      unfold dayNumber
      simp only [Nat.add_sub_cancel]
      push_cast
      omega
    · -- On to the next year.
      rw [dif_neg hnext]
      have hdec : date.month = 12 := by omega
      have htotal := total_concat (monthDays date.year) 1 11
      have hyear := total_monthDays date.year
      have hstart := yearStart_succ h
      rw [hdec] at hlength hin hday ⊢
      unfold dayNumber Date.newYear
      simp only [Nat.sub_self, Nat.add_one_sub_one]
      rw [show Segments.total (monthDays ((date.year + 1 : Nat) : Int)) 1 0 = 0 from rfl]
      rw [show 1 + 11 = 12 from rfl] at htotal
      push_cast at hstart ⊢
      omega

theorem next_year_le (date : Date) : date.year ≤ date.next.year := by
  unfold Date.next
  split
  · exact Nat.le_refl _
  · split
    · exact Nat.le_refl _
    · exact Nat.le_succ _

/-- The closed form counts the days. -/
theorem daysOf_later (n : Nat) : 1970 ≤ (epoch.later n).year ∧ daysOf (epoch.later n) = n := by
  refine Date.count_later (P := fun d => 1970 ≤ d.year) (by decide) (by decide) (fun d hd => ?_) n
  exact ⟨Nat.le_trans hd (next_year_le d), daysOf_next (by omega)⟩

/-- Different days have different numbers. -/
theorem dayNumber_inj {y m d y' m' d' : Nat} (h : IsDate y m d) (h' : IsDate y' m' d')
    (he : dayNumber y m d = dayNumber y' m' d') : y = y' ∧ m = m' ∧ d = d' := by
  obtain ⟨hlo, hhi⟩ := h.bounds
  obtain ⟨hlo', hhi'⟩ := h'.bounds
  have hyear : y = y' := by
    rcases Nat.lt_trichotomy y y' with hlt | heq | hgt
    · have hmono : yearStart (y + 1) ≤ yearStart y' := yearStart_mono hlt
      omega
    · exact heq
    · have hmono : yearStart (y' + 1) ≤ yearStart y := yearStart_mono hgt
      omega
  subst hyear
  -- The month is where the walk over the lengths stops.
  have hwalk := h.walkOff_month (Nat.le_refl 12)
  rw [he, h'.walkOff_month (Nat.le_refl 12), Prod.mk.injEq] at hwalk
  have hday := hwalk.1
  exact ⟨rfl, hwalk.2.symm, by omega⟩

theorem daysOf_inj {date date' : Date} (h : 1970 ≤ date.year ∧ date.year ≤ 9999) (h' : 1970 ≤ date'.year ∧ date'.year ≤ 9999)
    (he : daysOf date = daysOf date') : date = date' := by
  obtain ⟨hy, hm, hd⟩ := dayNumber_inj (isDate_date h.1 h.2) (isDate_date h'.1 h'.2) he
  exact Date.ext hy hm hd

/-- The first day of the year 10000. -/
theorem year_le_iff (n : Nat) : (epoch.later n).year ≤ 9999 ↔ (n : Int) < yearStart 10000 := by
  obtain ⟨hge, hn⟩ := daysOf_later n
  constructor
  · intro hle
    rw [← hn]
    exact (isDate_date hge hle).dayNumber_lt
  · intro hlt
    by_contra hgt
    have hmono : yearStart 10000 ≤ yearStart (epoch.later n).year := yearStart_mono (by omega)
    have hbefore := Segments.total_nonneg (monthDays_nonneg (epoch.later n).year) 1 ((epoch.later n).month - 1)
    have hday := (epoch.later n).day_pos
    unfold daysOf dayNumber at hn
    omega

/-- A date is reached after as many days as the closed form says. -/
theorem later_daysOf (hge : 1970 ≤ date.year) (hle : date.year ≤ 9999) : epoch.later (daysOf date).toNat = date := by
  have hdate := isDate_date hge hle
  have hnonneg : ((daysOf date).toNat : Int) = daysOf date := Int.toNat_of_nonneg hdate.dayNumber_nonneg
  obtain ⟨hge', hn⟩ := daysOf_later (daysOf date).toNat
  have hle' : (epoch.later (daysOf date).toNat).year ≤ 9999 := by
    rw [year_le_iff, hnonneg]
    exact hdate.dayNumber_lt
  exact daysOf_inj ⟨hge', hle'⟩ ⟨hge, hle⟩ (by rw [hn, hnonneg])

/-! ## The texts -/

theorem digitAt_dateText (year month day : Nat) {i : Nat} (hi : i < 10) (h₁ : i ≠ 4) (h₂ : i ≠ 7) :
    digitAt (dateText year month day) i =
      [year / 1000 % 10, year / 100 % 10, year / 10 % 10, year / 1 % 10, 0, month / 10 % 10, month / 1 % 10, 0,
        day / 10 % 10, day / 1 % 10].getD i 0 := by
  have hdigit : ∀ n power, (digitOf n power).toNat - 48 = n / power % 10 := by
    intro n power
    rw [toNat_digitOf]
    omega
  unfold digitAt dateText
  interval_cases i <;> first | contradiction | exact hdigit _ _

/-- The numbers of a written date. -/
theorem numbers_dateText {year month day : Nat} (hy : year ≤ 9999) (hm : month ≤ 99) (hd : day ≤ 99) :
    yearOf (dateText year month day) = year ∧ monthOf (dateText year month day) = month ∧
      dayOf (dateText year month day) = day := by
  have hdigit : ∀ i, i < 10 → i ≠ 4 → i ≠ 7 → _ := fun i hi h₁ h₂ => digitAt_dateText year month day hi h₁ h₂
  unfold yearOf monthOf dayOf
  rw [hdigit 0 (by decide) (by decide) (by decide), hdigit 1 (by decide) (by decide) (by decide),
    hdigit 2 (by decide) (by decide) (by decide), hdigit 3 (by decide) (by decide) (by decide),
    hdigit 5 (by decide) (by decide) (by decide), hdigit 6 (by decide) (by decide) (by decide),
    hdigit 8 (by decide) (by decide) (by decide), hdigit 9 (by decide) (by decide) (by decide)]
  simp only [List.getD_cons_zero, List.getD_cons_succ, Nat.div_one]
  omega

theorem day_le_31 (date : Date) : date.day ≤ 31 := by
  have hle := date.day_le
  have hlength : ∀ month, monthLength date.year month ≤ 31 := by
    intro month
    unfold monthLength
    split <;> first | decide | (split <;> decide)
  exact Nat.le_trans hle (hlength _)

theorem numbers_written (h : date.year ≤ 9999) :
    yearOf (written date) = date.year ∧ monthOf (written date) = date.month ∧ dayOf (written date) = date.day := by
  have hmonth := date.month_le
  have hday := day_le_31 date
  exact numbers_dateText h (by omega) (by omega)

/-- What `parseDate` takes beside the open bounds: the texts of the calendar. -/
theorem parseDate_iff {text : List UInt8} (htext : value.asText = some text) (hopen : ¬(text = [] ∨ text = openText endOfDay)) :
    parseDate value endOfDay = some t ↔
      ∃ date n, 1970 ≤ date.year ∧ date.year ≤ 9999 ∧ text = written date ∧ epoch.later n = date ∧ boundOf n endOfDay = t := by
  rw [parseDate_eq_some_iff htext hopen]
  constructor
  · rintro ⟨hshape, hdate, hbound⟩
    obtain ⟨date, hy, hm, hd⟩ := hdate.exists_date
    have hge : 1970 ≤ date.year := hy ▸ hdate.year_ge
    have hle : date.year ≤ 9999 := hy ▸ hdate.year_le
    refine ⟨date, (daysOf date).toNat, hge, hle, ?_, later_daysOf hge hle, ?_⟩
    · unfold written
      rw [hy, hm, hd, dateText_of_shape hshape]
    · have hnonneg : ((daysOf date).toNat : Int) = daysOf date := Int.toNat_of_nonneg (isDate_date hge hle).dayNumber_nonneg
      rw [hnonneg, daysOf, hy, hm, hd]
      exact hbound
  · rintro ⟨date, n, hge, hle, rfl, hn, hbound⟩
    obtain ⟨hy, hm, hd⟩ := numbers_written hle
    rw [hy, hm, hd]
    refine ⟨dateShape_dateText _ _ _, isDate_date hge hle, ?_⟩
    rw [← hbound, ← (daysOf_later n).2, hn]
    rfl

/-- The bound in seconds. -/
theorem toNat_bound (h : (epoch.later n).year ≤ 9999) :
    (boundOf n endOfDay).toNat = 86400 * n + if endOfDay then 86399 else 0 := by
  have hlt : (n : Int) < yearStart 10000 := (year_le_iff n).1 h
  rw [show yearStart 10000 = 2932897 by decide] at hlt
  rw [toNat_boundOf_natCast (by omega), Nat.mul_comm]

/-- The two loops of `formatDate` for a day of the calendar. They stop at its
year and month: no bound on their rounds from there on makes a difference. -/
theorem loops_stop (hge : 1970 ≤ date.year) (hle : date.year ≤ 9999) :
    (∀ rounds, 10000 ≤ rounds →
      Segments.seek yearStart (daysOf date) rounds (1970 + (daysOf date).toNat / 366) = date.year) ∧
    ∀ rounds, 12 ≤ rounds →
      Segments.walkOff (monthDays date.year) rounds (daysOf date - yearStart date.year) 1 = ((date.day : Int) - 1, date.month) := by
  have hdate := isDate_date hge hle
  exact ⟨fun rounds h => hdate.seek_year (by omega), fun rounds h => hdate.walkOff_month h⟩

/-- A text with a NUL is taken for what stands before it. -/
theorem parseDate_nul {chars : List UInt8} (hnul : 0 ∈ chars) : parseDate (.text chars) endOfDay = some t ↔
    ∃ head tail, chars = head ++ 0 :: tail ∧ 0 ∉ head ∧ parseDate (.text head) endOfDay = some t := by
  have hcut (head tail : List UInt8) (hno : 0 ∉ head) :
      parseDate (.text (head ++ 0 :: tail)) endOfDay = parseDate (.text head) endOfDay := by
    have hsame : (JsonVariant.text (head ++ 0 :: tail)).asText = (JsonVariant.text head).asText := by
      rw [JsonVariant.asText, JsonVariant.asText, takeWhile_nul hno, takeWhile_of_noNul hno]
    rw [parseDate, parseDate, hsame]
  constructor
  · intro hparse
    obtain ⟨tail, htail⟩ := (eq_takeWhile_nul chars).resolve_left fun h => h.1 hnul
    have hno := noNul_takeWhile chars
    refine ⟨_, tail, htail, hno, ?_⟩
    rw [← hcut _ tail hno, ← htail]
    exact hparse
  · rintro ⟨head, tail, rfl, hno, hparse⟩
    rw [hcut head tail hno]
    exact hparse

/-- The calendar of the protocol. `parseDate` takes, beside the empty text and
the open bound, the texts of the days from 1970 to 9999 and nothing else, and
its result is the first or the last second of that day, counted from
1970-01-01; every day has one number, and the day after it the next one.
`formatDate` writes the day that contains a time, and both its loops stop. The
text is the one that the C functions read: a JSON text with a NUL is taken
exactly if what stands before the first NUL is. -/
theorem calendar_correct :
    (∀ (value : JsonVariant) (endOfDay : Bool) (text : List UInt8) (t : UInt64), value.asText = some text → text ≠ [] →
      text ≠ openText endOfDay →
      (parseDate value endOfDay = some t ↔ ∃ date n, 1970 ≤ date.year ∧ date.year ≤ 9999 ∧ text = written date ∧
        epoch.later n = date ∧ t.toNat = 86400 * n + if endOfDay then 86399 else 0)) ∧
    (∀ date : Date, 1970 ≤ date.year → date.year ≤ 9999 → ∃! n, epoch.later n = date) ∧
    (∀ n, epoch.later (n + 1) = (epoch.later n).next) ∧
    (∀ (t : UInt64) (endOfDay : Bool), 0 < t → (epoch.later (t.toNat / 86400)).year < 10000 →
      ∃ date, 1970 ≤ date.year ∧ date.year ≤ 9999 ∧ (∀ other, epoch.later (t.toNat / 86400) = other ↔ other = date) ∧
        formatDate t endOfDay = written date ∧
        (∀ rounds, 10000 ≤ rounds →
          Segments.seek yearStart (t.toNat / 86400 : Nat) rounds (1970 + t.toNat / 86400 / 366) = date.year) ∧
        ∀ rounds, 12 ≤ rounds →
          Segments.walkOff (monthDays date.year) rounds ((t.toNat / 86400 : Nat) - yearStart date.year) 1 =
            ((date.day : Int) - 1, date.month)) ∧
    ∀ (chars : List UInt8) (endOfDay : Bool) (t : UInt64), 0 ∈ chars → (parseDate (.text chars) endOfDay = some t ↔
      ∃ head tail, chars = head ++ 0 :: tail ∧ 0 ∉ head ∧ parseDate (.text head) endOfDay = some t) := by
  refine ⟨?_, ?_, fun n => Date.later_succ epoch n, ?_, fun chars endOfDay t => parseDate_nul⟩
  · intro value endOfDay text t htext hne hopen
    rw [parseDate_iff htext (not_or.2 ⟨hne, hopen⟩)]
    refine exists_congr fun date => exists_congr fun n => ?_
    constructor
    · rintro ⟨hge, hle, hwritten, rfl, rfl⟩
      exact ⟨hge, hle, hwritten, rfl, toNat_bound hle⟩
    · rintro ⟨hge, hle, hwritten, rfl, ht⟩
      exact ⟨hge, hle, hwritten, rfl, UInt64.toNat_inj.1 (by rw [ht, toNat_bound hle])⟩
  · intro date hge hle
    refine ⟨(daysOf date).toNat, later_daysOf hge hle, fun n hn => ?_⟩
    have hcount := (daysOf_later n).2
    rw [show epoch.later n = date from hn] at hcount
    omega
  · intro t endOfDay ht hyear
    obtain ⟨hge, hn⟩ := daysOf_later (t.toNat / 86400)
    have hle := Nat.le_of_lt_succ hyear
    obtain ⟨hseek, hwalk⟩ := loops_stop hge hle
    rw [hn, Int.toNat_natCast] at hseek
    rw [hn] at hwalk
    have hpos : t ≠ 0 := fun h => absurd (h ▸ ht) (by decide)
    exact ⟨_, hge, hle, fun other => eq_comm, formatDate_day (isDate_date hge hle) hpos hn.symm, hseek, hwalk⟩

/-- The third of January 1970 is two days after the first. -/
theorem calendar_third_of_january :
    parseDate (.text (ascii ['1', '9', '7', '0', '-', '0', '1', '-', '0', '3'])) true = some (2 * 86400 + 86399) ∧
      formatDate (2 * 86400 + 7) true = ascii ['1', '9', '7', '0', '-', '0', '1', '-', '0', '3'] := by
  obtain ⟨hparse, -, -, hformat, -⟩ := calendar_correct
  have hdate : epoch.later 2 = ⟨1970, 1, 3, by decide, by decide, by decide, by decide⟩ := by decide
  constructor
  · refine (hparse _ true (ascii ['1', '9', '7', '0', '-', '0', '1', '-', '0', '3']) _ (by decide) (by decide) (by decide)).2 ?_
    exact ⟨_, 2, by decide, by decide, by decide, hdate, by decide⟩
  · have hday : (2 * 86400 + 7 : UInt64).toNat / 86400 = 2 := by decide
    obtain ⟨date, -, -, hother, hwritten, -⟩ := hformat (2 * 86400 + 7) true (by decide) (by rw [hday, hdate]; decide)
    rw [hday] at hother
    rw [hwritten, ← (hother _).1 hdate]
    decide

end OrangeBox.CredProtocol
