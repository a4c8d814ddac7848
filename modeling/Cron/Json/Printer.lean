import Cron.Json.Basic

/-!
JSON values as JSON text, without blanks, in ASCII.
-/
namespace Cron.Json

def unitEscape (n : Nat) : List Char := '\\' :: 'u' :: Text.hexDigits 4 n

/-- A character of a text: what is not plain ASCII is escaped, in two units beyond the first
plane. -/
def escapedChar (c : Char) : List Char :=
  if c == '\x22' then ['\\', '\x22']
  else if c == '\\' then ['\\', '\\']
  else if c == '\n' then ['\\', 'n']
  else if c == '\r' then ['\\', 'r']
  else if c == '\t' then ['\\', 't']
  else if c.toNat < 32 || c.toNat == 127 then unitEscape c.toNat
  else if c.toNat < 127 then [c]
  else if c.toNat < 65536 then unitEscape c.toNat
  else
    unitEscape (55296 + (c.toNat - 65536) / 1024) ++ unitEscape (56320 + (c.toNat - 65536) % 1024)

/-- A sign of a text. A half that stands alone is one unit. -/
def escapedSign : Text.Sign → List Char
  | .char c => escapedChar c
  | .half n => unitEscape n

def textLiteral (s : String) : String :=
  "\x22" ++ String.ofList ((Text.signs s.toList).flatMap escapedSign) ++ "\x22"

/-- The text of a number; the values that are no decimals have names. -/
def realLiteral : Number.Real → String
  | .nan => "NaN"
  | .infinite negative => if negative then "-Infinity" else "Infinity"
  | x => x.text

mutual

def render : Json → String
  | null => "null"
  | bool b => if b then "true" else "false"
  | int n => toString n
  | real x => realLiteral x
  | text s => textLiteral s
  | list items => "[" ++ renderItems items ++ "]"
  | object members => "\x7b" ++ renderMembers members ++ "\x7d"

def renderItems : List Json → String
  | [] => ""
  | [x] => render x
  | x :: rest => render x ++ "," ++ renderItems rest

def renderMembers : List (String × Json) → String
  | [] => ""
  | [(n, v)] => textLiteral n ++ ":" ++ render v
  | (n, v) :: rest => textLiteral n ++ ":" ++ render v ++ "," ++ renderMembers rest

end

end Cron.Json
