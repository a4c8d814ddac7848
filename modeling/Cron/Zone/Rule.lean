import Cron.Calendar.Date

/-!
The clocks of a region: how far they stand from UTC at each instant, and which instant a wall time
of theirs names. Instants are seconds of UTC since the calendar began.
-/
namespace Cron

/-- A change of the clocks that comes every year: on the `week`-th given weekday of a month, or on
the last one if `week` is five, at some seconds of the day as the clocks show before the change. -/
structure YearlyChange where
  month : Nat
  week : Nat
  weekday : Nat
  seconds : Int
deriving Repr, DecidableEq

/-- The distance of clocks from UTC, in seconds, at every instant. -/
inductive ClockRule
  /-- Always the same. -/
  | constant (offset : Int)
  /-- One distance from `start` to `stop` in every year, and another from `stop` to `start`. -/
  | yearly (standard saving : Int) (start stop : YearlyChange)
  /-- A first distance, and others from given instants on. -/
  | dated (first : Int) (changes : List (Nat × Int))
deriving Repr, DecidableEq

namespace YearlyChange

def day (change : YearlyChange) (year : Nat) : Nat :=
  let first := Date.toDay ⟨year, change.month, 1⟩
  let ahead := (change.weekday + 7 - Date.weekdayOfDay first) % 7 + 7 * (change.week - 1)
  if Date.monthLength year change.month ≤ ahead then first + ahead - 7 else first + ahead

end YearlyChange

/-- A number moved by a distance, but not below zero. -/
def moved (n : Nat) : Int → Nat
  | .ofNat k => n + k
  | .negSucc k => n - (k + 1)

theorem moved_eq (n : Nat) (d : Int) : moved n d = ((n : Int) + d).toNat := by
  cases d <;> simp only [moved, Int.ofNat_eq_natCast] <;> omega

namespace ClockRule

def offsetAt : ClockRule → Nat → Int
  | constant offset, _ => offset
  | yearly standard saving start stop, utc =>
    let year := Date.yearOfDay (utc / 86400)
    let starts := moved (86400 * start.day year) (start.seconds - standard)
    let stops := moved (86400 * stop.day year) (stop.seconds - saving)
    if starts < stops then
      if starts ≤ utc && utc < stops then saving else standard
    else if stops ≤ utc && utc < starts then standard else saving
  | dated first changes, utc =>
    changes.foldl (fun offset change => if change.1 ≤ utc then change.2 else offset) first

/-- The distance from UTC that a wall time is read with. Where the clocks are set back the wall
time comes twice, and `second` picks the later one; where they are set forward it is missing, and
is read with the distance before the change, or after it if `second` holds. -/
def offsetOfWall (rule : ClockRule) (wall : Nat) (second : Bool) : Int :=
  let before := rule.offsetAt (wall - 86400)
  let after := rule.offsetAt (wall + 86400)
  if before = after then before
  else
    let shows := fun offset => decide (rule.offsetAt (moved wall (-offset)) = offset)
    match shows before, shows after with
    | true, false => before
    | false, true => after
    | _, _ => if second then after else before

/-- The distance from UTC at the instant that a wall time is read as. -/
def offsetOfReading (rule : ClockRule) (wall : Nat) (second : Bool) : Int :=
  rule.offsetAt (moved wall (-rule.offsetOfWall wall second))

end ClockRule

end Cron
