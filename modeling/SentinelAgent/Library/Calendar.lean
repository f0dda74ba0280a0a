import Mathlib.Algebra.Order.Ring.Nat
import Mathlib.Data.Fin.Basic
import Mathlib.Data.List.FinRange

/- The days of the calendar, counted. -/
namespace Calendar

def IsLeap (year : Int) : Prop := year % 4 = 0 ∧ (year % 100 ≠ 0 ∨ year % 400 = 0)

instance (year : Int) : Decidable (IsLeap year) :=
  inferInstanceAs (Decidable (year % 4 = 0 ∧ (year % 100 ≠ 0 ∨ year % 400 = 0)))

def daysInYear (year : Int) : Nat := if IsLeap year then 366 else 365

/- The days of the months, January first. -/
def monthLengths (leap : Bool) : List Nat :=
  [31, if leap then 29 else 28, 31, 30, 31, 30, 31, 31, 30, 31, 30, 31]

def daysInMonth (year : Int) (month : Fin 12) : Nat :=
  (monthLengths (decide (IsLeap year))).getD month 0

def daysBeforeMonth (year : Int) (month : Fin 12) : Nat :=
  ((monthLengths (decide (IsLeap year))).take month).sum

def daysBeforeYear (year : Int) : Int :=
  365 * year + (year - 1) / 4 - (year - 1) / 100 + (year - 1) / 400

theorem daysBeforeYear_succ (year : Int) :
    daysBeforeYear (year + 1) = daysBeforeYear year + daysInYear year := by
  unfold daysBeforeYear daysInYear
  split_ifs with leap
  · unfold IsLeap at leap
    omega
  · unfold IsLeap at leap
    omega

theorem daysBeforeYear_le {year later : Int} (earlier : year ≤ later) :
    daysBeforeYear year ≤ daysBeforeYear later := by
  unfold daysBeforeYear
  omega

theorem month_ends_in_year (year : Int) (month : Fin 12) :
    daysBeforeMonth year month + daysInMonth year month ≤ daysInYear year := by
  unfold daysBeforeMonth daysInMonth daysInYear
  by_cases leap : IsLeap year
  · simp only [leap, decide_true, if_true]
    revert month
    decide
  · simp only [leap, decide_false, if_false]
    revert month
    decide

structure Date where
  year : Int
  month : Fin 12
  day : Nat
  day_pos : 1 ≤ day
  day_le : day ≤ daysInMonth year month

/- The days up to a date, from the start of year 0. -/
def Date.number (date : Date) : Int :=
  daysBeforeYear date.year + daysBeforeMonth date.year date.month + (date.day - 1)

theorem year_start_le (date : Date) : daysBeforeYear date.year ≤ date.number := by
  have := date.day_pos
  unfold Date.number
  omega

theorem number_before_year_end (date : Date) : date.number < daysBeforeYear (date.year + 1) := by
  have in_month := date.day_le
  have in_year := month_ends_in_year date.year date.month
  rw [daysBeforeYear_succ, Date.number]
  omega

/-- A date of an earlier year is an earlier day. -/
theorem number_lt {date other : Date} (earlier : date.year < other.year) :
    date.number < other.number :=
  calc date.number < daysBeforeYear (date.year + 1) := number_before_year_end date
    _ ≤ daysBeforeYear other.year := daysBeforeYear_le earlier
    _ ≤ other.number := year_start_le other

end Calendar
