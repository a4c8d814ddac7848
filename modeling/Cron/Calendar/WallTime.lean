import Cron.Calendar.Date

/-!
Wall times: what calendar and clock show, from the first microsecond of year 1 to the last of year
9999.
-/
namespace Cron

def calendarDays : Nat := 3652059

def calendarMicros : Nat := calendarDays * 86400000000

/-- A wall time, as the microseconds since the calendar began. -/
structure WallTime where
  micros : Nat
  lt : micros < calendarMicros
deriving DecidableEq

namespace WallTime

instance : Inhabited WallTime := ⟨0, by decide⟩

def dayCount (w : WallTime) : Nat := w.micros / 86400000000

def seconds (w : WallTime) : Nat := w.micros / 1000000

def minutes (w : WallTime) : Nat := w.micros / 60000000

def hour (w : WallTime) : Nat := w.micros / 3600000000 % 24

def minute (w : WallTime) : Nat := w.minutes % 60

def second (w : WallTime) : Nat := w.seconds % 60

def microsecond (w : WallTime) : Nat := w.micros % 1000000

def date (w : WallTime) : Date := .ofDay w.dayCount

/-- The day of the week, Sunday being zero. -/
def weekday (w : WallTime) : Nat := Date.weekdayOfDay w.dayCount

def ofMicros? (micros : Nat) : Option WallTime :=
  if h : micros < calendarMicros then some ⟨micros, h⟩ else none

/-- The wall time some seconds later, or earlier for a negative number. -/
def addSeconds? (w : WallTime) : Int → Option WallTime
  | .ofNat n => ofMicros? (w.micros + 1000000 * n)
  | .negSucc n =>
    if 1000000 * (n + 1) ≤ w.micros then ofMicros? (w.micros - 1000000 * (n + 1)) else none

def nextMinute? (w : WallTime) : Option WallTime := ofMicros? (60000000 + w.micros)

def floorMinute (w : WallTime) : WallTime :=
  ⟨60000000 * w.minutes, Nat.lt_of_le_of_lt (Nat.mul_div_le _ _) w.lt⟩

def ofFields? (date : Date) (hour minute second microsecond : Nat) : Option WallTime :=
  if 1 ≤ date.year && date.isValid && hour < 24 && minute < 60 && second < 60
      && microsecond < 1000000 then
    ofMicros? ((((date.toDay * 24 + hour) * 60 + minute) * 60 + second) * 1000000 + microsecond)
  else none

@[simp]
theorem micros_of_ofMicros? {micros : Nat} {w : WallTime} (h : ofMicros? micros = some w) :
    w.micros = micros := by
  unfold ofMicros? at h
  split at h
  · cases h; rfl
  · simp at h

theorem ext {v w : WallTime} (h : v.micros = w.micros) : v = w := by
  cases v; cases w; simp_all

theorem micros_of_addSeconds? {w v : WallTime} {s : Int} (h : w.addSeconds? s = some v) :
    (v.micros : Int) = w.micros + 1000000 * s := by
  cases s with
  | ofNat n =>
    have := micros_of_ofMicros? h
    simp only [Int.ofNat_eq_natCast]
    omega
  | negSucc n =>
    simp only [addSeconds?] at h
    split at h
    · have := micros_of_ofMicros? h
      omega
    · simp at h

end WallTime

end Cron
