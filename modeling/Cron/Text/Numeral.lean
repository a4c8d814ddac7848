import Cron.Text.Blank

/-!
Numerals: runs of decimal digits of any script, and signed integers with blanks around them. A
numeral of more than 4300 digits is refused.
-/
namespace Cron.Text

inductive NumeralError
  | malformed
  | tooLong (digits : Nat)
deriving Repr, DecidableEq

def maxDigits : Nat := 4300

/-- The number that digits denote, most significant first. -/
def ofDigits (digits : List Nat) : Nat := digits.foldl (fun n d => 10 * n + d) 0

def dropLineEnd (cs : List Char) : List Char :=
  if cs.getLast? = some '\n' then cs.dropLast else cs

/-- The digits of a text of one or more digits; one line end may follow them. -/
def numeralDigits? (cs : List Char) : Option (List Nat) :=
  match (dropLineEnd cs).mapM digit? with
  | some (d :: ds) => some (d :: ds)
  | _ => none

/-- The value of some digits, if they are not too many. -/
def valueOfDigits (digits : List Nat) : Except NumeralError Nat :=
  if maxDigits < digits.length then .error (.tooLong digits.length) else .ok (ofDigits digits)

def readNumeral (cs : List Char) : Except NumeralError Nat :=
  match numeralDigits? cs with
  | some digits => valueOfDigits digits
  | none => .error .malformed

/-- The blanks that may stand around an integer: all but the information separators. -/
def isIntegerBlank (c : Char) : Bool := isBlank c && !(28 ≤ c.toNat && c.toNat < 32)

def takeSign : List Char → Bool × List Char
  | '-' :: rest => (true, rest)
  | '+' :: rest => (false, rest)
  | cs => (false, cs)

/-- Whether underscores stand only between two digits, and there one by one. -/
def wellSpaced : List Char → Bool
  | [] => false
  | [c] => c != '_'
  | '_' :: _ => false
  | _ :: '_' :: '_' :: _ => false
  | _ :: '_' :: rest => wellSpaced rest
  | _ :: rest => wellSpaced rest

/-- An integer: blanks, a sign, digits with single underscores between them, blanks. Underscores
out of place are found before too many digits are, and those before other text after the digits. -/
def readInteger (cs : List Char) : Except NumeralError Int :=
  let inner := ((cs.dropWhile isIntegerBlank).reverse.dropWhile isIntegerBlank).reverse
  let (negative, body) := takeSign inner
  let isPart := fun c => isDigit c || c == '_'
  let part := body.takeWhile isPart
  if !wellSpaced part then .error .malformed
  else
    match valueOfDigits (part.filterMap digit?) with
    | .error e => .error e
    | .ok n =>
      if (body.dropWhile isPart).isEmpty then .ok (if negative then -(n : Int) else n)
      else .error .malformed

end Cron.Text
