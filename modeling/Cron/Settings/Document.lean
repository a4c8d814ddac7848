import Cron.Fault
import Cron.Json.Basic

/-!
The file of settings. It holds a JSON text and is read as YAML, which gives some values another
meaning: a line may end within a text, a number without a point may be a text, and the name of a
member has to stand on one line.
-/
namespace Cron.Document

/-- Whether a character may not stand in a file. Control characters below the blank can: the file
has escapes for them. -/
def isForbidden (c : Char) : Bool :=
  (127 ≤ c.toNat && c.toNat < 160 && c.toNat != 133) || c.toNat == 65534 || c.toNat == 65535

/-- The line end that a character is. The next line sign is an ordinary line end; the two
separators keep their shape. -/
def lineEnd? (c : Char) : Option Char :=
  if c.toNat = 133 then some '\n'
  else if c.toNat = 8232 ∨ c.toNat = 8233 then some c
  else none

/-- Whether a line starts with the mark between two documents: three dashes or three points, and a
blank or a line end. -/
def isBoundary : List Char → Bool
  | a :: b :: c :: d :: _ =>
    a == b && b == c && (a == '-' || a == '.') && (d == ' ' || (lineEnd? d).isSome)
  | _ => false

/-- What some line ends in a row stand for. A single ordinary one is a blank; of several the first
is left out if it is ordinary. -/
def joint (first : Char) (more : List Char) : List Char :=
  if first ≠ '\n' then first :: more
  else if more.isEmpty then [' ']
  else more

mutual

/-- A text from within a line, after some blanks. They are kept unless the line ends there. -/
def foldLine (blanks : Nat) : List Char → Except DocumentError (List Char)
  | [] => .ok (List.replicate blanks ' ')
  | c :: rest =>
    if c = ' ' then foldLine (blanks + 1) rest
    else
      match lineEnd? c with
      | none => (foldLine 0 rest).map fun after => List.replicate blanks ' ' ++ c :: after
      | some first => foldBreak first [] true rest

/-- A text after some line ends in a row. Blanks at the start of a line are left out. -/
def foldBreak (first : Char) (more : List Char) (atStart : Bool) :
    List Char → Except DocumentError (List Char)
  | [] => .ok (joint first more)
  | c :: rest =>
    if atStart && isBoundary (c :: rest) then .error .boundary
    else if c = ' ' then foldBreak first more false rest
    else
      match lineEnd? c with
      | some next => foldBreak first (more ++ [next]) true rest
      | none => (foldLine 0 rest).map fun after => joint first more ++ c :: after

end

def fold (s : String) : Except DocumentError String :=
  (foldLine 0 s.toList).map String.ofList

/-- The number of characters that the file has for a character of a text. -/
def width (c : Char) : Nat :=
  if c = '\x22' ∨ c = '\\' ∨ c = '\n' ∨ c = '\r' ∨ c = '\t' ∨ c.toNat = 8 ∨ c.toNat = 12 then 2
  else if c.toNat < 32 then 6
  else 1

/-- The most characters that the name of a member may have in the file, with its quotes. -/
def maxNameWidth : Nat := 1024

def isName (s : String) : Bool :=
  s.toList.all (fun c => (lineEnd? c).isNone) &&
    s.toList.foldl (fun n c => n + width c) 2 ≤ maxNameWidth

def readName (s : String) : Except DocumentError String :=
  match fold s with
  | .error error => .error error
  | .ok name => if isName s then .ok name else .error .brokenName

/-- A number as the file gives it. It is a text if it is written without a point. -/
def readNumber : Number.Real → Json
  | .nan => .text "NaN"
  | .infinite negative => .text (if negative then "-Infinity" else "Infinity")
  | x => if x.text.toList.contains '.' then .real x else .text x.text

mutual

/-- A value as the file gives it, where `depth` more may lie in each other. -/
def readValue (depth : Nat) : Json → Except Fault Json
  | .real x => .ok (readNumber x)
  | .text s =>
    match fold s with
    | .ok s => .ok (.text s)
    | .error error => .error (.document error)
  | .list items =>
    match depth with
    | 0 => .error .tooDeep
    | depth + 1 => (readItems depth items).map .list
  | .object members =>
    match depth with
    | 0 => .error .tooDeep
    | depth + 1 => (readMembers depth members).map .object
  | v => .ok v

def readItems (depth : Nat) : List Json → Except Fault (List Json)
  | [] => .ok []
  | v :: rest => do
    let v ← readValue depth v
    let rest ← readItems depth rest
    .ok (v :: rest)

def readMembers (depth : Nat) : List (String × Json) → Except Fault (List (String × Json))
  | [] => .ok []
  | (name, v) :: rest =>
    match readName name with
    | .error error => .error (.document error)
    | .ok name => do
      let v ← readValue depth v
      let rest ← readMembers depth rest
      .ok ((name, v) :: rest)

end

/-- The value that a file gives, where a JSON value is written into it, if no more than `levels`
values lie in each other. How many may do so depends on how much of the stack is taken already. -/
def read (levels : Nat) (v : Json) : Except Fault Json :=
  if v.anyChar isForbidden then .error (.document .unprintable) else readValue levels v

/-- The levels that a stack of a thousand calls leaves to the one who loads the settings. -/
def maxDepth : Nat := 489

end Cron.Document
