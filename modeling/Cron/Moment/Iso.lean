import Cron.Moment.Basic
import Cron.Text.Pieces
import Cron.Text.Numeral

/-!
Moments as texts: date, the letter T, time of day, and the distance from UTC.
-/
namespace Cron.Moment

/-- A distance from UTC: sign, hours, minutes, and the seconds if there are any. -/
def offsetText (offset : Int) : String :=
  let size := offset.natAbs
  (if offset < 0 then "-" else "+") ++ Text.padNumber 2 (size / 3600) ++ ":" ++
    Text.padNumber 2 (size / 60 % 60) ++
    (if size % 60 = 0 then "" else ":" ++ Text.padNumber 2 (size % 60))

/-- A wall time; microseconds are written if there are any. -/
def wallText (w : WallTime) : String :=
  let date := w.date
  Text.padNumber 4 date.year ++ "-" ++ Text.padNumber 2 date.month ++ "-" ++
    Text.padNumber 2 date.day ++ "T" ++ Text.padNumber 2 w.hour ++ ":" ++
    Text.padNumber 2 w.minute ++ ":" ++ Text.padNumber 2 w.second ++
    (if w.microsecond = 0 then "" else "." ++ Text.padNumber 6 w.microsecond)

def iso (m : Moment) : String := wallText m.wall ++ (m.offset?.map offsetText).getD ""

/-- A number of a given count of digits, and the text after it. -/
def takeNumber? (count : Nat) (cs : List Char) : Option (Nat × List Char) := do
  let digits ← (cs.take count).mapM Text.digit?
  if digits.length = count then some (Text.ofDigits digits, cs.drop count) else none

def skip? (c : Char) : List Char → Option (List Char)
  | d :: rest => if d = c then some rest else none
  | [] => none

def takeSeconds? : List Char → Option (Nat × List Char)
  | ':' :: rest => takeNumber? 2 rest
  | cs => some (0, cs)

/-- The microseconds after a point, if there are any; digits beyond the sixth are dropped. -/
def takeMicros? : List Char → Option (Nat × List Char)
  | '.' :: rest =>
    let digits := rest.takeWhile Text.isDigit
    if digits.isEmpty then none
    else some (Text.ofDigits (((digits.filterMap Text.digit?) ++ List.replicate 6 0).take 6),
      rest.drop digits.length)
  | cs => some (0, cs)

def zone? : List Char → Option (Option Zone)
  | [] => some none
  | ['Z'] => some (some .utc)
  | sign :: rest => do
    let negative ← if sign = '+' then some false else if sign = '-' then some true else none
    let (hours, rest) ← takeNumber? 2 rest
    let (minutes, rest) ← skip? ':' rest >>= takeNumber? 2
    let (seconds, rest) ← takeSeconds? rest
    let size := 3600 * hours + 60 * minutes + seconds
    if rest.isEmpty && size < 86400 then
      some (some (.ofOffset (if negative then -(size : Int) else size)))
    else none

def ofIso? (s : String) : Option Moment := do
  let (year, rest) ← takeNumber? 4 s.toList
  let (month, rest) ← skip? '-' rest >>= takeNumber? 2
  let (day, rest) ← skip? '-' rest >>= takeNumber? 2
  let (hour, rest) ← takeNumber? 2 (rest.drop 1)
  let (minute, rest) ← skip? ':' rest >>= takeNumber? 2
  let (second, rest) ← takeSeconds? rest
  let (micros, rest) ← takeMicros? rest
  let zone ← zone? rest
  let wall ← WallTime.ofFields? ⟨year, month, day⟩ hour minute second micros
  some ⟨wall, zone, false⟩

end Cron.Moment
