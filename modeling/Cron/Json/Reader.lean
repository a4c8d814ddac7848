import Cron.Json.Basic
import Cron.Text.Numeral

/-!
JSON texts. Beside the standard grammar the names `NaN`, `Infinity` and `-Infinity` are read. An
integer of too many digits is refused where it stands, and so is a value that lies in too many
others.
-/
namespace Cron.Json

inductive ReadError
  | malformed
  | tooLong (digits : Nat)
  | tooDeep
deriving Repr, DecidableEq

def skipBlanks (cs : List Char) : List Char :=
  cs.dropWhile fun c => c == ' ' || c == '\t' || c == '\n' || c == '\r'

def unit? (a b c d : Char) : Option Nat := do
  let a ← Text.hexValue? a
  let b ← Text.hexValue? b
  let c ← Text.hexValue? c
  let d ← Text.hexValue? d
  some (4096 * a + 256 * b + 16 * c + d)

def shortEscape? : Char → Option Char
  | '\x22' => some '\x22'
  | '\\' => some '\\'
  | '/' => some '/'
  | 'b' => some '\x08'
  | 'f' => some '\x0c'
  | 'n' => some '\n'
  | 'r' => some '\r'
  | 't' => some '\t'
  | _ => none

/-- A text and a sign after it, last character first. -/
def push (before : List Char) (sign : Text.Sign) : List Char := sign.write.reverse ++ before

/-- The rest of a text after its opening quote, where `before` holds the characters read so far,
last one first. Two units of a pair make one character. -/
def readText (before : List Char) : List Char → Except ReadError (String × List Char)
  | '\x22' :: rest => .ok (String.ofList before.reverse, rest)
  | '\\' :: 'u' :: a :: b :: c :: d :: '\\' :: 'u' :: e :: f :: g :: h :: rest =>
    match unit? a b c d with
    | none => .error .malformed
    | some high =>
      match unit? e f g h with
      | some low =>
        if 55296 ≤ high ∧ high < 56320 ∧ 56320 ≤ low ∧ low < 57344 then
          readText
            (push before (.char (Char.ofNat (65536 + 1024 * (high - 55296) + (low - 56320))))) rest
        else readText (push before (.ofUnit high)) ('\\' :: 'u' :: e :: f :: g :: h :: rest)
      | none => .error .malformed
  | '\\' :: 'u' :: a :: b :: c :: d :: rest =>
    match unit? a b c d with
    | none => .error .malformed
    | some n => readText (push before (.ofUnit n)) rest
  | '\\' :: c :: rest =>
    match shortEscape? c with
    | none => .error .malformed
    | some c => readText (c :: before) rest
  | c :: rest =>
    if c.toNat < 32 || c == '\\' then .error .malformed else readText (push before (.char c)) rest
  | [] => .error .malformed

def isPlainDigit (c : Char) : Bool := '0' ≤ c && c ≤ '9'

def plainValue (cs : List Char) : Nat := Text.ofDigits (cs.map fun c => c.toNat - 48)

def takeFraction : List Char → List Char × List Char
  | '.' :: rest =>
    let digits := rest.takeWhile isPlainDigit
    if digits.isEmpty then ([], '.' :: rest) else (digits, rest.dropWhile isPlainDigit)
  | cs => ([], cs)

def takeExponent (cs : List Char) : Option Int × List Char :=
  match cs with
  | c :: rest =>
    if c == 'e' || c == 'E' then
      let (negative, body) := Text.takeSign rest
      let digits := body.takeWhile isPlainDigit
      if digits.isEmpty then (none, cs)
      else
        let n : Int := plainValue digits
        (some (if negative then -n else n), body.dropWhile isPlainDigit)
    else (none, cs)
  | [] => (none, [])

/-- A number after its sign: a zero alone or digits that start with another, then a fraction and
an exponent. -/
def readNumber (negative : Bool) (cs : List Char) : Except ReadError (Json × List Char) :=
  let run := cs.takeWhile isPlainDigit
  match run with
  | [] => .error .malformed
  | first :: _ =>
    let whole := if first == '0' then ['0'] else run
    let (fraction, afterFraction) := takeFraction (cs.drop whole.length)
    let (exponent, rest) := takeExponent afterFraction
    if fraction.isEmpty && exponent.isNone then
      if Text.maxDigits < whole.length then .error (.tooLong whole.length)
      else
        let n : Int := plainValue whole
        .ok (int (if negative then -n else n), rest)
    else
      let power := exponent.getD 0 - fraction.length
      .ok (real (.ofDecimal negative (plainValue (whole ++ fraction)) power), rest)

def names : List (String × Json) :=
  [("null", null), ("true", bool true), ("false", bool false), ("NaN", real .nan),
    ("Infinity", real (.infinite false)), ("-Infinity", real (.infinite true))]

def readPlain (cs : List Char) : Except ReadError (Json × List Char) :=
  match names.find? fun n => n.1.toList.isPrefixOf cs with
  | some (name, value) => .ok (value, cs.drop name.length)
  | none =>
    match cs with
    | '-' :: rest => readNumber true rest
    | _ => readNumber false cs

mutual

/-- A value, where `depth` more may lie in each other. Of two calls in a row at least one reads on,
so `fuel` beyond twice the length of the text is never used up. -/
def readValue (fuel depth : Nat) (cs : List Char) : Except ReadError (Json × List Char) :=
  match fuel with
  | 0 => .error .malformed
  | fuel + 1 =>
    match cs with
    | '\x22' :: rest => (readText [] rest).map fun (s, rest) => (text s, rest)
    | '[' :: rest =>
      match depth with
      | 0 => .error .tooDeep
      | depth + 1 =>
        match skipBlanks rest with
        | ']' :: rest => .ok (list [], rest)
        | rest => readItems fuel depth [] rest
    | '\x7b' :: rest =>
      match depth with
      | 0 => .error .tooDeep
      | depth + 1 =>
        match skipBlanks rest with
        | '\x7d' :: rest => .ok (object [], rest)
        | rest => readMembers fuel depth [] rest
    | cs => readPlain cs

/-- The items of a list from the next one on, where `before` holds the earlier ones, last one
first. -/
def readItems (fuel depth : Nat) (before : List Json) (cs : List Char) :
    Except ReadError (Json × List Char) :=
  match fuel with
  | 0 => .error .malformed
  | fuel + 1 =>
    match readValue fuel depth cs with
    | .error e => .error e
    | .ok (value, rest) =>
      match skipBlanks rest with
      | ',' :: rest => readItems fuel depth (value :: before) (skipBlanks rest)
      | ']' :: rest => .ok (list (value :: before).reverse, rest)
      | _ => .error .malformed

def readMembers (fuel depth : Nat) (before : List (String × Json)) (cs : List Char) :
    Except ReadError (Json × List Char) :=
  match fuel with
  | 0 => .error .malformed
  | fuel + 1 =>
    match cs with
    | '\x22' :: rest =>
      match readText [] rest with
      | .error e => .error e
      | .ok (name, rest) =>
        match skipBlanks rest with
        | ':' :: rest =>
          match readValue fuel depth (skipBlanks rest) with
          | .error e => .error e
          | .ok (value, rest) =>
            match skipBlanks rest with
            | ',' :: rest => readMembers fuel depth (put name value before) (skipBlanks rest)
            | '\x7d' :: rest => .ok (object (put name value before), rest)
            | _ => .error .malformed
        | _ => .error .malformed
    | _ => .error .malformed

end

/-- The value of a JSON text with nothing but blanks around it, where `depth` values may lie in
each other. -/
def readChars (depth : Nat) (cs : List Char) : Except ReadError Json :=
  match readValue (2 * cs.length + 2) depth (skipBlanks cs) with
  | .error e => .error e
  | .ok (value, rest) => if (skipBlanks rest).isEmpty then .ok value else .error .malformed

def read (depth : Nat) (s : String) : Except ReadError Json := readChars depth s.toList

end Cron.Json
