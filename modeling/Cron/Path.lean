import Cron.Environment
import Cron.Fault
import Cron.Text.Pieces

/-!
Paths of files, and the home directories that a tilde stands for.
-/
namespace Cron

structure Homes where
  own : String
  named : List (String × String)

/-- A path: the slashes that it starts at, and its parts. -/
structure Path where
  root : String
  parts : List String
deriving Repr, DecidableEq

namespace Path

/-- The slashes at the start of a path: none, one, or two if there are exactly two. -/
def rootOf (cs : List Char) : String :=
  match (cs.takeWhile (· == '/')).length with
  | 0 => ""
  | 2 => "//"
  | _ => "/"

/-- The path of a text. Empty parts and single dots say nothing and are dropped. -/
def ofText (s : String) : Path where
  root := rootOf s.toList
  parts := ((Text.pieces '/' s.toList).map String.ofList).filter fun part =>
    part ≠ "" ∧ part ≠ "."

def text (path : Path) : String :=
  let s := path.root ++ "/".intercalate path.parts
  if s.isEmpty then "." else s

def child (path : Path) (name : String) : Path := { path with parts := path.parts ++ [name] }

/-- The home that a part with a tilde stands for: that of the user named after it, or else the one
that the environment gives. -/
def homeOf (homes : Homes) (env : Environment) (name : String) : Except Fault String :=
  if name.isEmpty then .ok ((env.get? "HOME").getD homes.own)
  else if name.toList.contains '\x00' then .error (.input .nullCharacter)
  else
    match homes.named.find? fun home => home.1 = name with
    | some home => .ok home.2
    | none => .error .noHome

def homeText (home : String) : String :=
  let kept := (home.toList.reverse.dropWhile (· == '/')).reverse
  if kept.isEmpty then "/" else String.ofList kept

/-- The path with the home in place of a first part that starts with a tilde. -/
def expandHome (homes : Homes) (env : Environment) (path : Path) : Except Fault Path :=
  match path.root.isEmpty, path.parts with
  | true, first :: rest =>
    match first.toList with
    | '~' :: name => do
      let home ← homeOf homes env (String.ofList name)
      let start := homeText home
      if start.startsWith "~" then .error .noHome
      else
        let path := ofText start
        .ok { path with parts := path.parts ++ rest }
    | _ => .ok path
  | _, _ => .ok path

def maxName : Nat := 255

def maxLength : Nat := 4095

/-- Whether no file can be looked for at a path: the whole of it is too long, or a name is, and what
stands before the name is a directory, so that the name is looked for in it. -/
def isTooLong (isDirectory : Path → Bool) (path : Path) : Bool :=
  maxLength < path.text.utf8ByteSize ||
    path.parts.zipIdx.any fun (name, i) =>
      maxName < name.utf8ByteSize && isDirectory { path with parts := path.parts.take i }

end Path

end Cron
