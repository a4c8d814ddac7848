import Cron.Schedule.Basic
import Cron.Text.Letter
import Cron.Text.LowerCase

/-!
The normal form of an expression: small letters, single blanks, no alias, and numbers in place of
the names of months and days.
-/
namespace Cron

namespace Schedule

def aliases : List (String × String) :=
  [("@yearly", "0 0 1 1 *"),
   ("@annually", "0 0 1 1 *"),
   ("@monthly", "0 0 1 * *"),
   ("@weekly", "0 0 * * 0"),
   ("@daily", "0 0 * * *"),
   ("@midnight", "0 0 * * *"),
   ("@hourly", "0 * * * *")]

def monthNames : List String :=
  ["jan", "feb", "mar", "apr", "may", "jun", "jul", "aug", "sep", "oct", "nov", "dec"]

def dayNames : List String := ["sun", "mon", "tue", "wed", "thu", "fri", "sat"]

/-- A letter of a name: the long s and the dotless i pass for the plain letters. -/
def plainLetter (c : Char) : Char := if c = 'ſ' then 's' else if c = 'ı' then 'i' else c

/-- Whether a name stands at the beginning of a text as a word of its own: the letters are those of
the name, and on both sides of them a word character is next to another one or to an end. -/
def standsAt (inWord : Bool) (cs : List Char) (name : String) : Bool :=
  let (found, rest) := cs.splitAt name.toList.length
  (inWord != found.head?.any Text.isWordChar) && found.map plainLetter == name.toList &&
    (found.getLast?.any Text.isWordChar != rest.head?.any Text.isWordChar)

/-- The number of a name, counted from `first`. What only passes for a name has none. -/
def numberOf (names : List String) (first : Nat) (name : List Char) : Except Fault (List Char) :=
  match names.findIdx? fun entry => entry.toList = name with
  | some index => .ok (toString (first + index)).toList
  | none => .error (.unknownName (String.ofList name))

/-- A text with the names in it replaced as they are found. `inWord` says whether the character
before it is a word character, and `skip` characters still belong to the name found last. -/
def scanFrom (names : List String) (first : Nat) :
    Bool → Nat → List Char → Except Fault (List Char)
  | _, _, [] => .ok []
  | _, skip + 1, c :: rest => scanFrom names first (Text.isWordChar c) skip rest
  | inWord, 0, c :: rest =>
    match names.find? (standsAt inWord (c :: rest)) with
    | none => do
      let out ← scanFrom names first (Text.isWordChar c) 0 rest
      .ok (c :: out)
    | some name => do
      let number ← numberOf names first ((c :: rest).take name.toList.length)
      let out ← scanFrom names first (Text.isWordChar c) (name.toList.length - 1) rest
      .ok (number ++ out)

/-- A word with the names in it replaced by their numbers, from left to right. -/
def replaceNames (names : List String) (first : Nat) (word : List Char) :
    Except Fault (List Char) := scanFrom names first false 0 word

def spaced (words : List (List Char)) : String :=
  " ".intercalate (words.map String.ofList)

/-- The normal form of an expression. Names are replaced in the last two of five words. -/
def normalize (expression : String) : Except Fault String :=
  let words := Text.words (Text.lower expression.toList)
  match aliases.find? fun entry => entry.1 = spaced words with
  | some entry => .ok entry.2
  | none =>
    match words with
    | [a, b, c, d, e] => do
      let d ← replaceNames monthNames 1 d
      let e ← replaceNames dayNames 0 e
      .ok (spaced [a, b, c, d, e])
    | words => .ok (spaced words)

def ofExpression (expression : String) : Except Fault Schedule := normalize expression >>= parse

end Schedule

end Cron
