import Cron.Fault
import Cron.Json.Basic
import Cron.Text.Numeral

/-!
Lengths of time, as settings give them: a number with a unit, or a number alone, which counts
minutes.
-/
namespace Cron

/-- A length of time of less than a thousand million days. -/
structure Duration where
  seconds : Int
  lower : -86399999913600 ≤ seconds
  upper : seconds < 86400000000000
deriving DecidableEq

namespace Duration

/-- The length of some seconds, if it can be written. -/
def ofSeconds (seconds : Int) : Except Fault Duration :=
  if h : -86399999913600 ≤ seconds ∧ seconds < 86400000000000 then .ok ⟨seconds, h.1, h.2⟩
  else .error .beyondRange

def ofMinutes (minutes : Int) : Except Fault Duration := ofSeconds (60 * minutes)

/-- The seconds of a length as a binary fraction: the nearest one to its microseconds divided by a
million. -/
def total (d : Duration) : Number.Dyadic := Number.nearest (1000000 * d.seconds) 1000000

/-- The whole minutes of a length, from its seconds as a binary fraction; a started minute does not
count. -/
def minutes (d : Duration) : Int := d.total.truncate.fdiv 60

def unitSeconds? : Char → Option Nat
  | 's' => some 1
  | 'm' => some 60
  | 'h' => some 3600
  | 'd' => some 86400
  | 'w' => some 604800
  | _ => none

/-- The seconds of a unit, by its letter in either case. The long s passes for a unit, but no
table holds it. -/
def readUnit (shown : String) (c : Char) : Except Fault Nat :=
  match unitSeconds? c.toLower with
  | some seconds => .ok seconds
  | none =>
    .error (if c = 'ſ' then .unknownName "ſ" else .input (.noDuration shown))

/-- Whether a character is the letter of a unit, or passes for one. -/
def isUnitLetter (c : Char) : Bool := (unitSeconds? c.toLower).isSome || c == 'ſ'

def readAmount (cs : List Char) : Except Fault Int :=
  match Text.readInteger cs with
  | .ok n => .ok n
  | .error .malformed => .error (.input (.noInteger (String.ofList cs)))
  | .error (.tooLong digits) => .error (.input (.tooManyDigits digits))

/-- The length that a text without blanks at its ends gives; a message shows the text as
`shown`. -/
def readTrimmed (shown : String) (cs : List Char) : Except Fault Duration :=
  if !cs.isEmpty && cs.all Text.isDigitMark then readAmount cs >>= ofMinutes
  else
    match cs.takeWhile Text.isDigit, (cs.dropWhile Text.isDigit).dropWhile Text.isBlank with
    | d :: ds, [c] =>
      if isUnitLetter c then do
        let amount ← readAmount (d :: ds)
        let unit ← readUnit shown c
        ofSeconds (amount * unit)
      else .error (.input (.noDuration shown))
    | _, _ => .error (.input (.noDuration shown))

def ofText (s : String) : Except Fault Duration :=
  readTrimmed (Text.quoted s) (Text.trim s.toList)

/-- The length that a value gives. Whole numbers and truth values count minutes, and any other
value is read by its text. -/
def ofJson : Json → Except Fault Duration
  | .int n => ofMinutes n
  | .bool b => ofMinutes (if b then 1 else 0)
  | .text s => ofText s
  | v => readTrimmed v.shown (if v.isBlank then [] else Text.trim v.display.toList)

end Duration

end Cron
