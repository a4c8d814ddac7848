import Cron.Fault

/-!
The levels of a log, as settings name them.
-/
namespace Cron

/-- From which weight on messages are kept. -/
inductive LogLevel
  | everything
  | debug
  | info
  | warning
  | error
  | critical
deriving Repr, DecidableEq

namespace LogLevel

def weight : LogLevel → Nat
  | everything => 0
  | debug => 10
  | info => 20
  | warning => 30
  | error => 40
  | critical => 50

def names : List (String × LogLevel) :=
  [("CRITICAL", critical),
   ("FATAL", critical),
   ("ERROR", error),
   ("WARNING", warning),
   ("WARN", warning),
   ("INFO", info),
   ("DEBUG", debug),
   ("NOTSET", everything)]

/-- The capitals of a letter, as far as they are plain letters. -/
def capitals (c : Char) : List Char :=
  if c = 'ſ' then ['S']
  else if c = 'ı' then ['I']
  else if c = 'ﬅ' ∨ c = 'ﬆ' then ['S', 'T']
  else [c.toUpper]

def lineFormat : String := "%(levelname)s:%(name)s:%(message)s"

/-- The level that a setting names, in letters of either case; an unknown name leaves it at
`info`. Two names belong to other things of a log: the format of its lines and the table of
styles. Neither is a level. -/
def ofSetting (name : String) : Except Fault LogLevel :=
  let capital := String.ofList (name.toList.flatMap capitals)
  match names.find? fun entry => entry.1 = capital with
  | some entry => .ok entry.2
  | none =>
    if capital = "BASIC_FORMAT" then .error (.input (.noLevel lineFormat))
    else if capital = "_STYLES" then .error .wrongKind
    else .ok info

/-- The level of messages about single requests, whatever the setting. -/
def ofRequests : LogLevel := warning

end LogLevel

end Cron
