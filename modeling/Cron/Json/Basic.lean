import Cron.Number.Real
import Cron.Text.Quoted

/-!
JSON values. The members of an object keep the order in which their names first appear, and a name
that appears again replaces the value.
-/
namespace Cron

inductive Json
  | null
  | bool (b : Bool)
  | int (n : Int)
  | real (x : Number.Real)
  | text (s : String)
  | list (items : List Json)
  | object (members : List (String × Json))

namespace Json

instance : Inhabited Json := ⟨null⟩

/-- Members with one more: a new name goes last, a known one keeps its place. -/
def put (name : String) (value : Json) : List (String × Json) → List (String × Json)
  | [] => [(name, value)]
  | (n, v) :: rest => if n = name then (n, value) :: rest else (n, v) :: put name value rest

def lookup? (name : String) (members : List (String × Json)) : Option Json :=
  (members.find? fun m => m.1 = name).map (·.2)

def member? (name : String) : Json → Option Json
  | object members => lookup? name members
  | _ => none

/-- Whether a value counts as nothing: null, false, zero, and what is empty. -/
def isBlank : Json → Bool
  | null => true
  | bool b => !b
  | int n => n == 0
  | real x => x.isZero
  | text s => s.isEmpty
  | list items => items.isEmpty
  | object members => members.isEmpty

mutual

/-- Whether some character of a text within a value, or of a name, is of a kind. -/
def anyChar (p : Char → Bool) : Json → Bool
  | text s => s.toList.any p
  | list items => anyCharOfItems p items
  | object members => anyCharOfMembers p members
  | _ => false

def anyCharOfItems (p : Char → Bool) : List Json → Bool
  | [] => false
  | v :: rest => anyChar p v || anyCharOfItems p rest

def anyCharOfMembers (p : Char → Bool) : List (String × Json) → Bool
  | [] => false
  | (n, v) :: rest => n.toList.any p || anyChar p v || anyCharOfMembers p rest

end

mutual

def depth : Json → Nat
  | list items => depthOfItems items + 1
  | object members => depthOfMembers members + 1
  | _ => 0

def depthOfItems : List Json → Nat
  | [] => 0
  | v :: rest => max (depth v) (depthOfItems rest)

def depthOfMembers : List (String × Json) → Nat
  | [] => 0
  | (_, v) :: rest => max (depth v) (depthOfMembers rest)

end

mutual

/-- The text of a value inside another one, where texts are quoted. -/
def shown : Json → String
  | null => "None"
  | bool b => if b then "True" else "False"
  | int n => toString n
  | real x => x.text
  | text s => Text.quoted s
  | list items => "[" ++ shownItems items ++ "]"
  | object members => "\x7b" ++ shownMembers members ++ "\x7d"

def shownItems : List Json → String
  | [] => ""
  | [x] => shown x
  | x :: rest => shown x ++ ", " ++ shownItems rest

def shownMembers : List (String × Json) → String
  | [] => ""
  | [(n, v)] => Text.quoted n ++ ": " ++ shown v
  | (n, v) :: rest => Text.quoted n ++ ": " ++ shown v ++ ", " ++ shownMembers rest

end

/-- The text of a value on its own: a text is itself. -/
def display : Json → String
  | text s => s
  | v => shown v

end Json

end Cron
