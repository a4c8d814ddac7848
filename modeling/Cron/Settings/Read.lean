import Cron.Settings.Basic
import Cron.Text.Pieces

/-!
Settings read from a JSON object. Unknown names are passed over, and all the settings that are
refused are reported, in the order of the settings.
-/
namespace Cron

/-- Two results; if settings are refused in either, all of them. A fault of another kind ends the
reading where it is met. -/
def both {α β : Type} : Except Fault α → Except Fault β → Except Fault (α × β)
  | .ok a, .ok b => .ok (a, b)
  | .error (.settings refused), .error (.settings more) => .error (.settings (refused ++ more))
  | .error (.settings _), .error fault => .error fault
  | .error fault, _ => .error fault
  | .ok _, .error fault => .error fault

namespace Settings

def readText : Json → Except SettingError String
  | .text s => .ok s
  | _ => .error .noText

/-- A plain integer: perhaps a minus sign, then digits, of which the first is a zero only if it
stands alone. Too many of them are found before other text behind them is. -/
def readPlainInteger (cs : List Char) : Except SettingError Int :=
  let negative := cs.head? = some '-'
  let body := if negative then cs.tail else cs
  let digits := body.takeWhile Char.isDigit
  let rest := body.dropWhile Char.isDigit
  let leads := digits.head? = some '0' ∧ digits ≠ ['0']
  if digits.isEmpty ∨ leads then .error .unreadableInteger
  else if Text.maxDigits < digits.length then .error .tooLarge
  else if !rest.isEmpty then .error .unreadableInteger
  else
    let n : Int := Text.ofDigits (digits.filterMap Text.digit?)
    .ok (if negative then -n else n)

/-- A text after zeros and underscores, of which `last` is the last. That one is kept where a point
or nothing at all follows. -/
def afterZeros (last : Char) : List Char → Option (List Char)
  | [] => some [last]
  | c :: rest =>
    if c = '0' ∨ c = '_' then afterZeros c rest
    else if c = '.' then some (last :: c :: rest)
    else if c.isDigit ∨ c = '-' then some (c :: rest)
    else none

/-- A text without zeros at its start. It has to start with a digit or a minus sign. -/
def dropZeros : List Char → Option (List Char)
  | [] => none
  | c :: rest =>
    if c = '0' then afterZeros c rest
    else if c.isDigit ∨ c = '-' then some (c :: rest)
    else none

def dropFraction (cs : List Char) : List Char :=
  match Text.cut? '.' cs with
  | some (whole, zeros) => if !zeros.isEmpty && zeros.all (· == '0') then whole else cs
  | none => cs

/-- A text without underscores, if they stand one by one and neither first nor last. -/
def dropUnderscores (cs : List Char) : List Char :=
  let parts := Text.pieces '_' cs
  if parts.any List.isEmpty then cs else parts.flatten

/-- The plain integer that a looser text of an integer stands for: one with blanks around it, a
plus sign, zeros in front, underscores, or a fraction of zeros. -/
def plainIntegerOf? (cs : List Char) : Option (List Char) :=
  let inner := ((cs.dropWhile Text.isIntegerBlank).reverse.dropWhile Text.isIntegerBlank).reverse
  let tidy := fun body => (dropZeros body).map fun body => dropUnderscores (dropFraction body)
  match inner with
  | '+' :: '-' :: _ => none
  | '+' :: body => tidy body
  | '-' :: body => (tidy body).map ('-' :: ·)
  | body => tidy body

/-- An integer as a text: a plain integer, or what stands for one. -/
def readIntegerText (cs : List Char) : Except SettingError Int :=
  match readPlainInteger cs with
  | .error .unreadableInteger =>
    match (plainIntegerOf? cs).map readPlainInteger with
    | some (.ok n) => .ok n
    | _ => .error .unreadableInteger
  | result => result

/-- An integer: a number without a fraction, a truth value, or a text of an integer. -/
def readInteger : Json → Except SettingError Int
  | .int n => .ok n
  | .bool b => .ok (if b then 1 else 0)
  | .text s => readIntegerText s.toList
  | .real (.finite negative size) =>
    if !size.isInteger then .error .fractional
    else if Nat.pow 2 63 ≤ size.truncate then .error .tooLarge
    else .ok (if negative then -size.truncate else size.truncate)
  | .real _ => .error .notFinite
  | _ => .error .noInteger

def readAtLeast (low : Nat) (v : Json) : Except SettingError { n : Nat // low ≤ n } :=
  match readInteger v with
  | .error reason => .error reason
  | .ok n => if h : low ≤ n.toNat ∧ 0 ≤ n then .ok ⟨n.toNat, h.1⟩ else .error .tooSmall

/-- A setting of a section: what is said of it, or what holds where nothing is said. -/
def entry {α : Type} (place : List String) (name : String) (members : List (String × Json))
    (initial : α) (read : Json → Except SettingError α) : Except Fault α :=
  match Json.lookup? name members with
  | none => .ok initial
  | some v =>
    match read v with
    | .ok a => .ok a
    | .error reason => .error (.settings [⟨place ++ [name], reason⟩])

def part {α : Type} (name : String) (members : List (String × Json)) (initial : α)
    (read : List (String × Json) → Except Fault α) : Except Fault α :=
  match Json.lookup? name members with
  | none => .ok initial
  | some (.object inner) => read inner
  | some _ => .error (.settings [⟨[name], .noSection⟩])

/-- The horizon. A text at fault refuses the setting; a length beyond all lengths is no fault of
the text. -/
def readHorizon (place : List String) (members : List (String × Json)) : Except Fault Horizon := do
  let text ← entry place "horizon" members Horizon.year.text readText
  match Horizon.ofText text with
  | .ok horizon => .ok horizon
  | .error (.input _) => .error (.settings [⟨place ++ ["horizon"], .badValue⟩])
  | .error fault => .error fault

def readServer (members : List (String × Json)) : Except Fault ServerSettings :=
  let initial := ServerSettings.initial
  let host := entry ["server"] "host" members initial.host readText
  let portNumber := entry ["server"] "port" members initial.portNumber readInteger
  (both host portNumber).map fun (host, portNumber) => ⟨host, portNumber⟩

def readScheduler (members : List (String × Json)) : Except Fault SchedulerSettings :=
  let initial := SchedulerSettings.initial
  let timezone := entry ["scheduler"] "timezone" members initial.timezone readText
  let defaultCount :=
    entry ["scheduler"] "default_count" members ⟨initial.defaultCount, Nat.zero_le _⟩
      (readAtLeast 0)
  let maxCount :=
    entry ["scheduler"] "max_count" members ⟨initial.maxCount, initial.one_le_maxCount⟩
      (readAtLeast 1)
  (both (both (both timezone defaultCount) maxCount) (readHorizon ["scheduler"] members)).map
    fun (((timezone, defaultCount), maxCount), horizon) =>
      ⟨timezone, defaultCount, maxCount, maxCount.property, horizon⟩

def readLogLevel (members : List (String × Json)) : Except Fault String :=
  entry ["logging"] "level" members "INFO" readText

def ofMembers (homeDir : String) (members : List (String × Json)) : Except Fault Settings :=
  let initial := Settings.initial homeDir
  let homeDir := entry [] "home_dir" members initial.homeDir readText
  let server := part "server" members initial.server readServer
  let scheduler := part "scheduler" members initial.scheduler readScheduler
  let logLevel := part "logging" members initial.logLevel readLogLevel
  (both (both (both homeDir server) scheduler) logLevel).map
    fun (((homeDir, server), scheduler), logLevel) => ⟨homeDir, server, scheduler, logLevel⟩

def ofJson (homeDir : String) : Json → Except Fault Settings
  | .object members => ofMembers homeDir members
  | _ => .error .wrongKind

end Settings

end Cron
