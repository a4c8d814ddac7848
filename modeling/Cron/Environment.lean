import Cron.Fault
import Cron.Json.Basic
import Cron.Text.Letter

/-!
Variables of the environment, and references to them in texts: a dollar sign and a name between
braces.
-/
namespace Cron

/-- The variables of the environment. A name has one value: the first that is listed. -/
structure Environment where
  entries : List (String × String)
deriving Repr, DecidableEq

namespace Environment

def get? (env : Environment) (name : String) : Option String :=
  (env.entries.find? fun v => v.1 = name).map (·.2)

def erase (env : Environment) (name : String) : Environment :=
  ⟨env.entries.filter fun v => v.1 ≠ name⟩

def insert (env : Environment) (name value : String) : Environment :=
  ⟨(name, value) :: (env.erase name).entries⟩

/-- The environment with a value for a variable, if no null character stands in either of them and
no equals sign in the name. -/
def assign (env : Environment) (name value : String) : Except Fault Environment :=
  if name.toList.contains '\x00' || value.toList.contains '\x00' then
    .error (.input .nullCharacter)
  else if name.toList.contains '=' then .error (.input .equalsSign)
  else .ok (env.insert name value)

def assignAll (env : Environment) : List (String × String) → Except Fault Environment
  | [] => .ok env
  | (name, value) :: rest => do
    let env ← env.assign name value
    env.assignAll rest

/-- The environment with a value for a variable that has none. -/
def insertNew (env : Environment) (name value : String) : Environment :=
  if (env.get? name).isSome then env else env.insert name value

/-- The environment with values for those of some variables that have none. -/
def fill (env : Environment) (entries : List (String × String)) : Environment :=
  entries.foldl (fun env entry => env.insertNew entry.1 entry.2) env

/-- The name in a reference that starts a text, and the text after the reference. -/
def reference? (cs : List Char) : Option (List Char × List Char) :=
  match cs with
  | '$' :: '\x7b' :: rest =>
    match rest.takeWhile Text.isWordChar, rest.dropWhile Text.isWordChar with
    | c :: name, '\x7d' :: after => some (c :: name, after)
    | _, _ => none
  | _ => none

theorem length_lt_of_reference? {cs name after : List Char}
    (h : reference? cs = some (name, after)) : after.length < cs.length := by
  unfold reference? at h
  split at h
  · next rest =>
    split at h
    · next c n a _ hd =>
      have hlen := (List.dropWhile_suffix Text.isWordChar (l := rest)).length_le
      simp only [Option.some.injEq, Prod.mk.injEq] at h
      obtain ⟨-, rfl⟩ := h
      rw [hd] at hlen
      simp only [List.length_cons] at *
      omega
    · cases h
  · cases h

/-- The text for a reference: the value of the variable, or the reference itself where there is
none. -/
def valueOf (env : Environment) (name : List Char) : List Char :=
  match env.get? (String.ofList name) with
  | some value => value.toList
  | none => '$' :: '\x7b' :: (name ++ ['\x7d'])

/-- The text with values in place of references. A value is not searched for references again. -/
def resolveChars (env : Environment) (cs : List Char) : List Char :=
  match _h : reference? cs with
  | some (name, after) => env.valueOf name ++ resolveChars env after
  | none =>
    match cs with
    | [] => []
    | c :: rest => c :: resolveChars env rest
termination_by cs.length
decreasing_by
  · exact length_lt_of_reference? (by assumption)
  · simp

def resolve (env : Environment) (s : String) : String :=
  String.ofList (env.resolveChars s.toList)

mutual

/-- The value with its texts resolved; names of members are left as they are. -/
def resolveJson (env : Environment) : Json → Json
  | .text s => .text (env.resolve s)
  | .list items => .list (env.resolveItems items)
  | .object members => .object (env.resolveMembers members)
  | v => v

def resolveItems (env : Environment) : List Json → List Json
  | [] => []
  | v :: rest => env.resolveJson v :: env.resolveItems rest

def resolveMembers (env : Environment) : List (String × Json) → List (String × Json)
  | [] => []
  | (name, v) :: rest => (name, env.resolveJson v) :: env.resolveMembers rest

end

/-- The value with its texts resolved, if no more than `levels` values lie in each other. How many
may do so depends on how much of the stack is taken already. -/
def resolveWithin (levels : Nat) (env : Environment) (v : Json) : Except Fault Json :=
  if levels < v.depth then .error .tooDeep else .ok (env.resolveJson v)

/-- The levels that a stack of a thousand calls leaves to one caller. -/
def maxDepth : Nat := 497

def resolveValue (env : Environment) (v : Json) : Except Fault Json := env.resolveWithin maxDepth v

end Environment

end Cron
