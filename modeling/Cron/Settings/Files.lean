import Cron.Json.Reader
import Cron.Path
import Cron.Settings.Document
import Cron.Settings.Read

/-!
Settings from the files of a home directory and from the environment. The file of variables has a
line for each variable; it comes first and fills the environment. Then the file of settings is read,
as JSON, with references to variables in its texts; the home directory that the environment names
counts more than that of the file.
-/
namespace Cron

/-- What the files of a home directory hold, as far as they exist. -/
structure HomeFiles where
  entries : List (String × String)
  settings : Option Json

namespace HomeFiles

def empty : HomeFiles := ⟨[], none⟩

def isEmpty (files : HomeFiles) : Bool := files.entries.isEmpty && files.settings.isNone

/-- The variable that a line gives: a name, an equals sign and a value. A comment or any other
line gives none. -/
def entryOf? (line : List Char) : Option (String × String) :=
  if (Text.trim line).head? = some '#' then none
  else
    (Text.cut? '=' line).map fun (name, value) =>
      (String.ofList (Text.trim name), String.ofList (Text.trim value))

def variablesOf (text : String) : List (String × String) :=
  (Text.pieces '\n' text.toList).filterMap entryOf?

def ofTexts (entries settings : Option String) : Except Json.ReadError HomeFiles := do
  let settings ← settings.mapM (Json.read Document.maxDepth)
  .ok ⟨(entries.map variablesOf).getD [], settings⟩

end HomeFiles

namespace Settings

def homeVariable : String := "CRONSCOPE_HOME"

/-- The directory within a user's home that holds the files, if no variable names another one. -/
def homeWithin (userHome : String) : String := ((Path.ofText userHome).child ".cronscope").text

/-- The home directory: the one that the environment names, or else the initial one. -/
def homeOf (homes : Homes) (initialHome : String) (env : Environment) : Except Fault Path :=
  (Path.ofText ((env.get? homeVariable).getD initialHome)).expandHome homes env

/-- The members that a file of settings gives. A file that is missing or says nothing gives
none, and one that holds anything but an object is of no use. -/
def membersOf (levels : Nat) : Option Json → Except Fault (List (String × Json))
  | none => .ok []
  | some written => do
    let v ← Document.read levels written
    if v.isBlank then .ok []
    else
      match v with
      | .object members => .ok members
      | _ => .error .wrongKind

/-- The settings of a file, in an environment that is filled already. -/
def ofFile (levels : Nat) (initialHome : String) (env : Environment) (settings : Option Json) :
    Except Fault Settings := do
  let members ← membersOf levels settings
  let resolved := env.resolveMembers members
  ofMembers initialHome
    (match env.get? homeVariable with
    | some home => Json.put "home_dir" (.text home) resolved
    | none => resolved)

/-- The settings, and the environment with the variables of the file, where the stack has room for
`levels` values in each other. The environment is filled even if the settings turn out to be at
fault. -/
def loadWithin (levels : Nat) (homes : Homes) (initialHome : String) (env : Environment)
    (files : HomeFiles) : Environment × Except Fault Settings :=
  match homeOf homes initialHome env with
  | .error fault => (env, .error fault)
  | .ok _ =>
    let env := env.fill files.entries
    (env, ofFile levels initialHome env files.settings)

def load (homes : Homes) (initialHome : String) (env : Environment) (files : HomeFiles) :
    Environment × Except Fault Settings :=
  loadWithin Document.maxDepth homes initialHome env files

def homePath (homes : Homes) (env : Environment) (settings : Settings) : Except Fault Path :=
  (Path.ofText settings.homeDir).expandHome homes env

end Settings

end Cron
