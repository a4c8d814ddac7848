import Cron.Text.Numeral
import Cron.Text.Pieces

/-!
The words of a command line: switches, which start with a dash, and operands. A switch may be cut
short where no other one starts with the same letters. What looks like a negative number, or holds
a blank, is an operand, and so is every word after a double dash.
-/
namespace Cron.CommandLine

inductive Switch
  | help
  | home
  | count
  | zone
  | horizon
  | config
deriving Repr, DecidableEq

def Switch.takesValue : Switch → Bool
  | help => false
  | _ => true

abbrev Spellings := List (String × Switch)

/-- A switch as it is met: what it sets, if that is known; its spelling; and the value within the
word. -/
structure Sighting where
  switch : Option Switch
  spelling : List Char
  value : Option (List Char)
deriving Repr, DecidableEq

inductive Role
  | operand
  | separator
  | switch (sighting : Sighting)
deriving Repr, DecidableEq

inductive Refusal
  | help
  | usage
deriving Repr, DecidableEq

def spelled? (known : Spellings) (cs : List Char) : Option Switch :=
  (known.find? fun entry => entry.1.toList = cs).map (·.2)

def isNegativeNumber (cs : List Char) : Bool :=
  match Text.dropLineEnd cs with
  | '-' :: body =>
    let whole := body.takeWhile Text.isDigit
    match body.dropWhile Text.isDigit with
    | [] => !whole.isEmpty
    | '.' :: fraction => !fraction.isEmpty && fraction.all Text.isDigit
    | _ => false
  | _ => false

/-- The switches that a word with two dashes may be short for. -/
def longCandidates (known : Spellings) (cs : List Char) : List Sighting :=
  let (start, value) :=
    match Text.cut? '=' cs with
    | some (start, value) => (start, some value)
    | none => (cs, none)
  (known.filter fun entry => start.isPrefixOf entry.1.toList).map fun entry =>
    ⟨some entry.2, entry.1.toList, value⟩

/-- The switches that a word with one dash may be, with their value right behind a letter. -/
def shortCandidates (known : Spellings) (cs : List Char) : List Sighting :=
  known.filterMap fun entry =>
    if entry.1.toList = cs.take 2 then
      some ⟨some entry.2, entry.1.toList, some (cs.drop 2)⟩
    else if cs.isPrefixOf entry.1.toList then
      some ⟨some entry.2, entry.1.toList, none⟩
    else none

def isLong (cs : List Char) : Bool := ['-', '-'].isPrefixOf cs

/-- What a word that starts with a dash and spells no switch is. A word that is short for several
switches is refused. -/
def inexact (known : Spellings) (cs : List Char) : Except Refusal Role :=
  let candidates :=
    if isLong cs then longCandidates known cs else shortCandidates known cs
  match candidates with
  | [sighting] => .ok (.switch sighting)
  | _ :: _ => .error .usage
  | [] =>
    if isNegativeNumber cs || cs.contains ' ' then .ok .operand
    else .ok (.switch ⟨none, cs, none⟩)

def roleOf (known : Spellings) (cs : List Char) : Except Refusal Role :=
  if cs.head? ≠ some '-' then .ok .operand
  else
    match spelled? known cs with
    | some switch => .ok (.switch ⟨some switch, cs, none⟩)
    | none =>
      if cs.length = 1 then .ok .operand
      else
        match Text.cut? '=' cs with
        | some (start, value) =>
          match spelled? known start with
          | some switch => .ok (.switch ⟨some switch, start, some value⟩)
          | none => inexact known cs
        | none => inexact known cs

def roles (known : Spellings) : List String → Except Refusal (List (String × Role))
  | [] => .ok []
  | word :: rest =>
    if word = "--" then .ok ((word, .separator) :: rest.map fun w => (w, .operand))
    else do
      let role ← roleOf known word.toList
      let rest ← roles known rest
      .ok ((word, role) :: rest)

/-- Whether the letters behind a switch without a value are switches as well. The last of them may
have a value, within the word or after it. -/
def chainHolds (known : Spellings) (followed : Bool) : List Char → Bool
  | [] => true
  | c :: rest =>
    match spelled? known ['-', c] with
    | none => false
    | some switch =>
      if switch.takesValue then !rest.isEmpty || followed else chainHolds known followed rest

/-- The end that a switch without a value brings: help, if nothing is wrong with the word. -/
def helpOf (known : Spellings) (sighting : Sighting) (followed : Bool) : Refusal :=
  match sighting.value with
  | none => .help
  | some value =>
    if !isLong sighting.spelling && !value.isEmpty && chainHolds known followed value then .help
    else .usage

inductive Operands
  | none
  | one
  /-- The first operand with all words after it. -/
  | all
deriving Repr, DecidableEq

/-- What is found on a command line: the values of switches, last one first, the operands, and
whether there are words that belong to nothing. A double dash within the word of a switch is no
value. -/
structure Found where
  values : List (Switch × Option String)
  operands : List String
  isExcessive : Bool
deriving Repr, DecidableEq

namespace Found

def nothing : Found := ⟨[], [], false⟩

def value? (found : Found) (switch : Switch) : Option (Option String) :=
  (found.values.find? fun entry => entry.1 = switch).map (·.2)

/-- The text of a switch, which is empty where no value is given. -/
def text? (found : Found) (switch : Switch) : Option String :=
  (found.value? switch).map fun value => value.getD ""

def valueOf (word : String) : Option String := if word = "--" then none else some word

def set (found : Found) (switch : Switch) (word : String) : Except Refusal Found :=
  let unreadable := fun text : String => (Text.readInteger text.toList).toOption = none
  if switch = .count ∧ (valueOf word).any unreadable then .error .usage
  else .ok { found with values := (switch, valueOf word) :: found.values }

def exceed (found : Found) : Found := { found with isExcessive := true }

end Found

def isFollowed : List (String × Role) → Bool
  | (_, .operand) :: _ => true
  | _ => false

/-- What the words hold. The separator is dropped before and after an operand. -/
def collect (known : Spellings) (operands : Operands) (found : Found) :
    List (String × Role) → Except Refusal Found
  | [] => .ok found
  | (word, .operand) :: rest =>
    match operands, found.operands with
    | .all, _ => .ok { found with operands := word :: rest.map (·.1) }
    | .one, [] =>
      match rest with
      | (_, .separator) :: rest => collect known operands { found with operands := [word] } rest
      | rest => collect known operands { found with operands := [word] } rest
    | _, _ => collect known operands found.exceed rest
  | (_, .separator) :: rest =>
    match operands, found.operands, rest with
    | .one, [], (word, _) :: rest =>
      .ok ⟨found.values, [word], found.isExcessive || !rest.isEmpty⟩
    | _, _, _ => .ok found.exceed
  | (_, .switch sighting) :: rest =>
    match sighting.switch with
    | none => collect known operands found.exceed rest
    | some switch =>
      if !switch.takesValue then .error (helpOf known sighting (isFollowed rest))
      else
        match sighting.value, rest with
        | some value, rest => do
          let found ← found.set switch (String.ofList value)
          collect known operands found rest
        | none, (word, .operand) :: rest => do
          let found ← found.set switch word
          collect known operands found rest
        | none, _ => .error .usage

def read (known : Spellings) (operands : Operands) (words : List String) :
    Except Refusal Found := do
  let words ← roles known words
  collect known operands .nothing words

end Cron.CommandLine
