import Cron.CommandLine.Help
import Cron.CommandLine.Switches

/-!
Commands, as the words of a command line give them.
-/
namespace Cron.CommandLine

inductive Amount
  | unsaid
  /-- A double dash is given in place of a number. -/
  | withheld
  | number (n : Int)
deriving Repr, DecidableEq

def Amount.ofValue : Option (Option String) → Amount
  | none => unsaid
  | some none => withheld
  | some (some s) => ((Text.readInteger s.toList).toOption.map number).getD unsaid

inductive Command
  | explain (expression : String)
  | next (expression : String) (count : Amount) (zone horizon : Option String)
  | build (zone : Option String)
  | serve (config : Option String)
deriving Repr, DecidableEq

structure Invocation where
  home : Option String
  command : Command
deriving Repr, DecidableEq

inductive Ending
  | help (text : String)
  | usage
deriving Repr, DecidableEq

def helpSpellings : Spellings := [("-h", .help), ("--help", .help)]

def programSpellings : Spellings := helpSpellings ++ [("--home", .home)]

namespace Verb

def spellings : Verb → Spellings
  | explain => helpSpellings
  | next =>
    helpSpellings ++ [("-n", .count), ("--count", .count), ("--tz", .zone), ("--horizon", .horizon)]
  | build => helpSpellings ++ [("--tz", .zone)]
  | serve => helpSpellings ++ [("--config", .config), ("-c", .config)]

def operands : Verb → Operands
  | explain | next => .one
  | build | serve => .none

def command? (verb : Verb) (found : Found) : Option Command :=
  match verb, found.operands with
  | explain, [expression] => some (.explain expression)
  | next, [expression] =>
    some (.next expression (.ofValue (found.value? .count)) (found.text? .zone)
      (found.text? .horizon))
  | build, [] => some (.build (found.text? .zone))
  | serve, [] => some (.serve (found.text? .config))
  | _, _ => none

end Verb

/-- An ending in place of a command, where `help` is what would be printed. -/
def endingOf (help : String) : Refusal → Ending
  | .help => .help help
  | .usage => .usage

def readVerb (verb : Verb) (words : List String) : Except Ending Found :=
  (read verb.spellings verb.operands words).mapError (endingOf verb.help)

/-- The command that the words of a command line give. Without any word help is printed. -/
def parse (words : List String) : Except Ending Invocation := do
  let found ← (read programSpellings .all words).mapError (endingOf programHelp)
  match found.operands with
  | [] => .error (if found.isExcessive then .usage else .help programHelp)
  | name :: rest =>
    match Verb.ofText? name with
    | none => .error .usage
    | some verb => do
      let inner ← readVerb verb rest
      match verb.command? inner with
      | none => .error .usage
      | some command =>
        if found.isExcessive || inner.isExcessive then .error .usage
        else .ok ⟨found.text? .home, command⟩

end Cron.CommandLine
