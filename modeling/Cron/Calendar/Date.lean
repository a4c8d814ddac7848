/-!
Calendar dates as counts of days. Day zero is the first of January of year one, a Monday.
-/
namespace Cron

structure Date where
  year : Nat
  month : Nat
  day : Nat
deriving Repr, DecidableEq

namespace Date

def isLeapYear (year : Nat) : Bool := year % 4 == 0 && (year % 100 != 0 || year % 400 == 0)

/-- The number of days before the first of January of a year. -/
def daysBeforeYear (year : Nat) : Nat :=
  365 * (year - 1) + (year - 1) / 4 - (year - 1) / 100 + (year - 1) / 400

def monthLengths (year : Nat) : List Nat :=
  [31, if isLeapYear year then 29 else 28, 31, 30, 31, 30, 31, 31, 30, 31, 30, 31]

def monthLength (year month : Nat) : Nat := (monthLengths year).getD (month - 1) 0

def totalLength : List Nat → Nat
  | [] => 0
  | length :: rest => length + totalLength rest

def daysBeforeMonth (year month : Nat) : Nat :=
  totalLength ((monthLengths year).take (month - 1))

def toDay (date : Date) : Nat :=
  daysBeforeYear date.year + daysBeforeMonth date.year date.month + (date.day - 1)

/-- The year of a day: centuries and cycles of four years are counted off, and the last day of a
leap cycle still belongs to it. -/
def yearOfDay (day : Nat) : Nat :=
  let inFourCenturies := day % 146097
  let centuries := min (inFourCenturies / 36524) 3
  let inCentury := inFourCenturies - 36524 * centuries
  let years := min (inCentury % 1461 / 365) 3
  400 * (day / 146097) + 100 * centuries + 4 * (inCentury / 1461) + years + 1

/-- How many of the given lengths fit into a number of days, and the days left over. -/
def countOff : List Nat → Nat → Nat × Nat
  | [], days => (0, days)
  | length :: rest, days =>
    if days < length then (0, days)
    else ((countOff rest (days - length)).1 + 1, (countOff rest (days - length)).2)

def ofDay (day : Nat) : Date :=
  let year := yearOfDay day
  let (months, days) := countOff (monthLengths year) (day - daysBeforeYear year)
  ⟨year, months + 1, days + 1⟩

/-- The day of the week, from Sunday, zero, to Saturday, six. -/
def weekdayOfDay (day : Nat) : Nat := (day + 1) % 7

def isValid (date : Date) : Bool :=
  1 ≤ date.month && date.month ≤ 12 && 1 ≤ date.day && date.day ≤ monthLength date.year date.month

theorem weekdayOfDay_add_seven (day : Nat) : weekdayOfDay (day + 7) = weekdayOfDay day := by
  simp only [weekdayOfDay]
  omega

end Date

end Cron
