import Mathlib
/-!
# The Gregorian calendar

The days of the calendar, each followed by the next one, and the days counted
from a first one on. Nothing is computed in closed form here: the `n`th day
after another is what `n` steps lead to.
-/

namespace Calendar

def isLeap (year : Nat) : Bool := year % 4 = 0 && (year % 100 ≠ 0 || year % 400 = 0)

/-- The days of a month, 0 if there is no such month. -/
def monthLength (year : Nat) : Nat → Nat
  | 1 => 31
  | 2 => if isLeap year then 29 else 28
  | 3 => 31
  | 4 => 30
  | 5 => 31
  | 6 => 30
  | 7 => 31
  | 8 => 31
  | 9 => 30
  | 10 => 31
  | 11 => 30
  | 12 => 31
  | _ => 0

theorem monthLength_pos (year : Nat) {month : Nat} (h : 1 ≤ month) (h' : month ≤ 12) : 1 ≤ monthLength year month := by
  interval_cases month <;> simp only [monthLength] <;> first | decide | (split <;> decide)

/-- A day of the calendar. -/
structure Date where
  year : Nat
  month : Nat
  day : Nat
  month_pos : 1 ≤ month
  month_le : month ≤ 12
  day_pos : 1 ≤ day
  day_le : day ≤ monthLength year month
  deriving DecidableEq

namespace Date

@[ext] theorem ext {a b : Date} (hy : a.year = b.year) (hm : a.month = b.month) (hd : a.day = b.day) : a = b := by
  cases a
  cases b
  simp only at hy hm hd
  subst hy hm hd
  rfl

/-- New Year's Day. -/
def newYear (year : Nat) : Date := ⟨year, 1, 1, by decide, by decide, by decide, by simp [monthLength]⟩

/-- The day after. -/
def next (date : Date) : Date :=
  if h : date.day < monthLength date.year date.month then
    ⟨date.year, date.month, date.day + 1, date.month_pos, date.month_le, Nat.le_add_left 1 _, h⟩
  else if h : date.month < 12 then
    ⟨date.year, date.month + 1, 1, Nat.le_add_left 1 _, h, Nat.le_refl 1, monthLength_pos _ (Nat.le_add_left 1 _) h⟩
  else newYear (date.year + 1)

/-- The day that is `n` days after a date. -/
def later (date : Date) (n : Nat) : Date := next^[n] date

@[simp] theorem later_zero (date : Date) : date.later 0 = date := rfl

theorem later_succ (date : Date) (n : Nat) : date.later (n + 1) = (date.later n).next :=
  Function.iterate_succ_apply' next n date

/-- A count that starts at 0 and grows by one each day is the number of days. -/
theorem count_later {count : Date → Int} {date : Date} {P : Date → Prop} (h0 : count date = 0) (hP : P date)
    (hstep : ∀ d, P d → P d.next ∧ count d.next = count d + 1) (n : Nat) : P (date.later n) ∧ count (date.later n) = n := by
  induction n with
  | zero => exact ⟨hP, h0⟩
  | succ n ih =>
    obtain ⟨hp, hc⟩ := ih
    obtain ⟨hp', hc'⟩ := hstep _ hp
    rw [later_succ, hc', hc]
    exact ⟨hp', by push_cast; rfl⟩

end Date

end Calendar
