
/-!
The help that the program prints, for itself and for each of its commands.
-/
namespace Cron.CommandLine

/-- The commands of the program, by name. -/
inductive Verb
  | explain
  | next
  | build
  | serve
deriving Repr, DecidableEq

namespace Verb

/-- All commands, in the order in which help lists them. -/
def all : List Verb := [explain, next, build, serve]

def text : Verb → String
  | explain => "explain"
  | next => "next"
  | build => "build"
  | serve => "serve"

def ofText? (name : String) : Option Verb := all.find? fun verb => verb.text = name

end Verb

def lines (texts : List String) : String := String.join (texts.map (· ++ "\n"))

def programUsage : String :=
  "usage: cronscope [-h] [--home HOME] \x7bexplain,next,build,serve\x7d ..."

def programHelp : String :=
  lines
    [programUsage,
     "",
     "CronScope -- parse, explain and preview cron expressions",
     "",
     "positional arguments:",
     "  \x7bexplain,next,build,serve\x7d",
     "    explain             Describe an expression",
     "    next                Show upcoming runs",
     "    build               Interactive expression builder",
     "    serve               Start the HTTP API",
     "",
     "options:",
     "  -h, --help            show this help message and exit",
     "  --home HOME           CronScope home directory"]

def Verb.help : Verb → String
  | explain =>
    lines
      ["usage: cronscope explain [-h] expression",
       "",
       "positional arguments:",
       "  expression  Cron expression, e.g. \x220 9 * * 1-5\x22",
       "",
       "options:",
       "  -h, --help  show this help message and exit"]
  | next =>
    lines
      ["usage: cronscope next [-h] [-n COUNT] [--tz TZ] [--horizon HORIZON] expression",
       "",
       "positional arguments:",
       "  expression            Cron expression or @alias",
       "",
       "options:",
       "  -h, --help            show this help message and exit",
       "  -n COUNT, --count COUNT",
       "                        Number of runs to show",
       "  --tz TZ               Zone label: \x22local\x22, \x22UTC\x22, \x22Europe/Berlin\x22, " ++
         "\x22+05:30\x22",
       "  --horizon HORIZON     Search horizon, e.g. \x22365d\x22"]
  | build =>
    lines
      ["usage: cronscope build [-h] [--tz TZ]",
       "",
       "options:",
       "  -h, --help  show this help message and exit",
       "  --tz TZ     Zone label for the preview"]
  | serve =>
    lines
      ["usage: cronscope serve [-h] [--config CONFIG]",
       "",
       "options:",
       "  -h, --help            show this help message and exit",
       "  --config CONFIG, -c CONFIG",
       "                        Path to config.yaml"]

end Cron.CommandLine
