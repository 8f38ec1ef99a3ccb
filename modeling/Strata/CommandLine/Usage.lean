import Strata.CommandLine.Switch
import Strata.Report
import Strata.Text.Escape

/-!
# Usage

The commands, how each of them is used, and what is said about a command line that cannot be understood.
-/

namespace Strata.CommandLine

/-- A text as it is written to a stream, with a line end behind it. Only a terminal is sent escape sequences. -/
def echo (terminal : Bool) (text : String) : String :=
  if terminal then text ++ "\n" else Text.deleteEscapes (text ++ "\n")

/-- The name of the program. -/
def program : String := "layerlint"

def version : String := "0.1.0"

/-- What is being used: the program as a whole or one of its commands. -/
inductive Scope where
  | program
  | lint
  | rules
  deriving Repr, DecidableEq

namespace Scope

/-- How the scope is called. -/
def call : Scope → String
  | program => CommandLine.program
  | lint => CommandLine.program ++ " lint"
  | rules => CommandLine.program ++ " rules"

/-- The commands and their names. -/
def commands : List (String × Scope) :=
  [("lint", lint), ("rules", rules)]

/-- The command of that name. -/
def command? (name : String) : Option Scope :=
  (commands.find? fun c => c.1 = name).map Prod.snd

/-- The first line of the help. -/
def usage (s : Scope) : String :=
  "Usage: " ++ s.call ++ match s with
    | program => " [OPTIONS] COMMAND [ARGS]..."
    | lint => " [OPTIONS] [PATHS]..."
    | rules => " [OPTIONS]"

/-- The lines of the help behind the first one. -/
def helpLines : Scope → List String
  | program => [
    "  Layerlint - architecture layer rules for Kotlin sources.",
    "",
    "Options:",
    "  --version      Show the version and exit.",
    "  -v, --verbose  Verbose output.",
    "  -q, --quiet    Minimal output (errors only).",
    "  --help         Show this message and exit.",
    "",
    "Commands:",
    "  lint   Check Kotlin sources against the architecture layer rules.",
    "  rules  List the registered rules and whether they are active."]
  | lint => [
    "  Check Kotlin sources against the architecture layer rules.",
    "",
    "  PATHS default to the current directory. Exit codes: 0 = clean or findings",
    "  without --strict, 1 = findings with --strict, 2 = configuration error.",
    "",
    "Options:",
    "  --format [rich|json|porcelain]  Output format (default: rich if TTY, porcelain",
    "                                  if piped).",
    "  --strict                        Exit 1 if findings or file failures occur.",
    "  --config FILE                   Path to layerlint.yml (default:",
    "                                  ./layerlint.yml if present).",
    "  -j, --jobs INTEGER RANGE        Worker threads.  [x>=1]",
    "  --help                          Show this message and exit."]
  | rules => [
    "  List the registered rules and whether they are active.",
    "",
    "Options:",
    "  --config FILE  Path to layerlint.yml (default: ./layerlint.yml if present).",
    "  --help         Show this message and exit."]

/-- The help. -/
def help (s : Scope) : String :=
  String.join ((s.usage :: "" :: s.helpLines).map fun line => line ++ "\n")

end Scope

/-- What is wrong with the value of a switch or an argument. -/
inductive ValueError where
  | format (value : String)
  | noInteger (value : String)
  | tooSmall (n : Int)
  | missingPath (value : String)
  | missingFile (value : String)
  | directory (value : String)
  deriving Repr, DecidableEq

/-- What is wrong, in words. -/
def ValueError.message : ValueError → String
  | format value =>
    let names := ReportFormat.all.map fun f => Text.quoted f.name
    "Invalid value for '--format': " ++ Text.quoted value ++ " is not one of " ++
      String.intercalate ", " names ++ "."
  | noInteger value =>
    "Invalid value for '--jobs' / '-j': " ++ Text.quoted value ++ " is not a valid integer range."
  | tooSmall n => "Invalid value for '--jobs' / '-j': " ++ toString n ++ " is not in the range x>=1."
  | missingPath value =>
    "Invalid value for '[PATHS]...': Path " ++ Text.quoted value ++ " does not exist."
  | missingFile value => "Invalid value for '--config': File " ++ Text.quoted value ++ " does not exist."
  | directory value => "Invalid value for '--config': File " ++ Text.quoted value ++ " is a directory."

/-- Why a command line cannot be understood. -/
inductive UsageError where
  | switch (e : SwitchError)
  | value (e : ValueError)
  | missingCommand
  /-- There is no such command; `near` are those that resemble it. -/
  | unknownCommand (name : String) (near : List String)
  | extraArguments (arguments : List String)
  deriving Repr, DecidableEq

/-- A hint at the names that may have been meant. -/
def suggestion (kind : String) : List String → String
  | [] => ""
  | [name] => " Did you mean " ++ Text.quoted name ++ "?"
  | names => " (Possible " ++ kind ++ ": " ++ String.intercalate ", " (names.map Text.quoted) ++ ")"

namespace UsageError

/-- What is wrong, in words. -/
def message : UsageError → String
  | switch (.unknown name near) => "No such option " ++ Text.quoted name ++ "." ++ suggestion "options" near
  | switch (.needsValue name) => "Option " ++ Text.quoted name ++ " requires an argument."
  | switch (.takesNoValue name) => "Option " ++ Text.quoted name ++ " does not take a value."
  | value e => e.message
  | missingCommand => "Missing command."
  | unknownCommand name near =>
    "No such command " ++ Text.quoted name ++ "." ++ suggestion "commands" near
  | extraArguments arguments =>
    "Got unexpected extra argument" ++ (if arguments.length = 1 then "" else "s") ++ " (" ++
      String.intercalate " " arguments ++ ")"

/-- Is the error shown without a reminder of how the scope is used? -/
def isBare : UsageError → Bool
  | switch (.needsValue _) | switch (.takesNoValue _) => true
  | _ => false

/-- What the user is shown. -/
def report (terminal : Bool) (s : Scope) (e : UsageError) : String :=
  let reminder := if e.isBare then "" else
    echo terminal (s.usage ++ "\nTry '" ++ s.call ++ " --help' for help.\n")
  reminder ++ echo terminal ("Error: " ++ e.message)

end UsageError

end Strata.CommandLine
