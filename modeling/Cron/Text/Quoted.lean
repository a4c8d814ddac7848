import Cron.Text.Printable
import Cron.Text.Surrogate

/-!
Texts in quotes, as messages show them. Single quotes are used unless the text holds one and no
double quote.
-/
namespace Cron.Text

/-- Some hexadecimal digits of a number, with zeros in front up to a width. -/
def hexDigits (width n : Nat) : List Char :=
  let digits := Nat.toDigits 16 n
  List.replicate (width - digits.length) '0' ++ digits

/-- A code point in the shortest of the three widths. -/
def codePointEscape (n : Nat) : List Char :=
  if n < 256 then '\\' :: 'x' :: hexDigits 2 n
  else if n < 65536 then '\\' :: 'u' :: hexDigits 4 n
  else '\\' :: 'U' :: hexDigits 8 n

/-- A character between two marks: the mark and the backslash are escaped, and so is what has no
shape of its own. -/
def quotedChar (mark c : Char) : List Char :=
  if c == mark || c == '\\' then ['\\', c]
  else if c == '\n' then ['\\', 'n']
  else if c == '\r' then ['\\', 'r']
  else if c == '\t' then ['\\', 't']
  else if isPrintable c then [c]
  else codePointEscape c.toNat

/-- A sign between two marks. Half of a pair has no shape of its own. -/
def quotedSign (mark : Char) : Sign → List Char
  | .char c => quotedChar mark c
  | .half n => codePointEscape n

def quoteMark (cs : List Char) : Char :=
  if cs.contains '\x27' && !cs.contains '\x22' then '\x22' else '\x27'

def quotedChars (cs : List Char) : List Char :=
  let mark := quoteMark cs
  mark :: ((signs cs).flatMap (quotedSign mark) ++ [mark])

def quoted (s : String) : String := String.ofList (quotedChars s.toList)

end Cron.Text
