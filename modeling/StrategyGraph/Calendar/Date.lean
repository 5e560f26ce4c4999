/-!
# The Gregorian calendar

Days are numbered from 1, the first of January of year 1; the calendar is taken to have been in
use all along. `dayNumber?` numbers a date given by year, month and day, and `weekDayNumber?` one
given by year, week and day of the week. Weeks start on Monday, and the first week of a year is the
one with its first Thursday.
-/

namespace StrategyGraph.Calendar

/-- The year has a 29th of February. -/
def isLeap (year : Nat) : Bool :=
  year % 4 = 0 && (year % 100 ≠ 0 || year % 400 = 0)

/-- The number of days before a year. -/
def daysBeforeYear (year : Nat) : Nat :=
  let y := year - 1
  365 * y + y / 4 - y / 100 + y / 400

/-- The number of days of a month. -/
def daysInMonth (year month : Nat) : Nat :=
  match month with
  | 2 => if isLeap year then 29 else 28
  | 4 | 6 | 9 | 11 => 30
  | _ => 31

/-- The number of days of a year before a month. -/
def daysBeforeMonth (year month : Nat) : Nat :=
  ((List.range (month - 1)).map fun m => daysInMonth year (m + 1)).foldl (· + ·) 0

/-- The last year of the calendar. -/
def maxYear : Nat := 9999

/-- The number of the last day of the calendar. -/
def maxDay : Nat := daysBeforeYear (maxYear + 1)

/-- The number of the first of January 1970. -/
def epochDay : Nat := 719163

/-- The number of a date, if there is such a date. -/
def dayNumber? (year month day : Nat) : Option Nat :=
  if 1 ≤ year ∧ year ≤ maxYear ∧ 1 ≤ month ∧ month ≤ 12 ∧ 1 ≤ day ∧ day ≤ daysInMonth year month
  then some (daysBeforeYear year + daysBeforeMonth year month + day)
  else none

/-- The day of the week of a year's first day; zero is Monday. -/
def firstWeekday (year : Nat) : Nat := (daysBeforeYear year + 7) % 7

/-- The number of the Monday that starts a year's first week. It may lie before day 1 only for
years that the calendar does not hold. -/
def firstMonday (year : Nat) : Nat :=
  let first := daysBeforeYear year + 1
  let weekday := firstWeekday year
  if weekday ≤ 3 then first - weekday else first + 7 - weekday

/-- The year has a 53rd week: it starts on a Thursday, or on a Wednesday and is a leap year. -/
def isLong (year : Nat) : Bool :=
  firstWeekday year = 3 || (firstWeekday year = 2 && isLeap year)

/-- The number of a day given by its week, if there is such a day. -/
def weekDayNumber? (year week weekday : Nat) : Option Nat :=
  if 1 ≤ year ∧ year ≤ maxYear ∧ 1 ≤ week ∧ (week ≤ 52 ∨ week = 53 ∧ isLong year)
      ∧ 1 ≤ weekday ∧ weekday ≤ 7 then
    let n := firstMonday year + 7 * (week - 1) + (weekday - 1)
    if n ≤ maxDay then some n else none
  else none

end StrategyGraph.Calendar
