import Strata.CommandLine.Arguments
import Strata.Kotlin.Parser
import Strata.RuleTable

/-!
# What a command line asks for

A command line is first turned into a plan, which says what to do; `Plan.outcome` carries it out. All that a
command line does is told by its outcome: the exit code and what is written.
-/

namespace Strata.CommandLine

/-- What a command line does. -/
structure Outcome where
  exitCode : Nat
  stdout : String := ""
  stderr : String := ""
  /-- The fault that ended the program, if one did. -/
  fault : Option SettingsLookupError := none

/-- Which of the two streams are shown on a terminal. -/
structure Terminals where
  /-- Is the report shown on one? -/
  output : Bool
  /-- Are errors shown on one? -/
  errors : Bool

/-- Both streams, or none. -/
instance : Coe Bool Terminals :=
  ⟨fun shown => ⟨shown, shown⟩⟩

/-- What a command line sees of the world. -/
structure World where
  files : FileSystem
  terminal : Terminals

/-- The working directory. -/
def World.directory (w : World) : Path :=
  ⟨"/", w.files.working⟩

/-- The records that are at least as important as `level`, as lines. -/
def shownLogs (level : LogLevel) (logs : List LogRecord) : String :=
  String.join ((logs.filter fun r => level.rank ≤ r.level.rank).map fun r => r.line ++ "\n")

/-- A run that is to be done. -/
structure LintPlan where
  /-- How important a record has to be to be shown. -/
  level : LogLevel
  arguments : LintArguments
  settings : Settings
  /-- What was told while the settings were looked up. -/
  logs : List LogRecord

/-- What a command line asks for. -/
inductive Plan where
  /-- Nothing is left to do. -/
  | done (o : Outcome)
  | lint (p : LintPlan)

/-- The outcome of a command line that cannot be understood. -/
def Outcome.ofUsageError (w : World) (s : Scope) (e : UsageError) : Outcome :=
  { exitCode := 2, stderr := e.report w.terminal.errors s }

/-- The outcome of a command line without settings. What the user can mend is reported; any other fault ends
the program. -/
def Outcome.ofSettingsError (w : World) (shown : String) (e : SettingsLookupError) : Outcome :=
  if e.isReported then { exitCode := 2, stderr := shown ++ echo w.terminal.errors ("Error: " ++ e.message) }
  else { exitCode := 1, stderr := shown, fault := some e }

/-! ## The run -/

namespace LintPlan

/-- What is analysed: the working directory if no paths are given. -/
def targets (w : World) (p : LintPlan) : List Path :=
  if p.arguments.paths.isEmpty then [w.directory] else p.arguments.paths

/-- The kind of report: a person looks at a terminal, other programs at all else. -/
def format (w : World) (p : LintPlan) : ReportFormat :=
  p.arguments.format.getD (if w.terminal.output then .text else .porcelain)

/-- The result of the run. -/
def result [Parser] (w : World) (p : LintPlan) (elapsed : Elapsed) : RunResult :=
  Run.lint w.files (p.targets w) p.settings elapsed

/-- Failures as lines, for reports that do not hold them. -/
def failureLines (w : World) (f : ReportFormat) (r : RunResult) : String :=
  match f with
  | .porcelain =>
    String.join (r.failures.map fun x => echo w.terminal.errors ("Error: " ++ x.path ++ ": " ++ x.message))
  | _ => ""

/-- The outcome of a run with that result. -/
def outcome [Parser] (w : World) (p : LintPlan) (r : RunResult) : Outcome :=
  let report := (p.format w).render r
  let logs := p.logs ++ Run.logs w.files (p.targets w) p.settings
  { exitCode := if p.arguments.strict && !(r.findings.isEmpty && r.failures.isEmpty) then 1 else 0
    stdout := if report = "" then "" else echo w.terminal.output report
    stderr := shownLogs p.level logs ++ failureLines w (p.format w) r }

end LintPlan

/-! ## From a command line to a plan -/

/-- What `lint` asks for. -/
def planLint (w : World) (level : LogLevel) (arguments : List String) : Plan :=
  match parse lintSwitches true arguments with
  | .error e => .done (.ofUsageError w .lint (.switch e))
  | .ok p =>
    if p.has .help then .done { exitCode := 0, stdout := Scope.lint.help }
    else
      match LintArguments.ofParsed w.files p with
      | .error e => .done (.ofUsageError w .lint (.value e))
      | .ok a =>
        match Settings.lookup w.files a.config w.directory with
        | (.error e, logs) => .done (.ofSettingsError w (shownLogs level logs) e)
        | (.ok settings, logs) => .lint ⟨level, a, settings, logs⟩

/-- The table of rules with the settings in the given file. -/
def rulesOutcome (w : World) (level : LogLevel) (config : Option Path) : Outcome :=
  match Settings.lookup w.files config w.directory with
  | (.error e, logs) => .ofSettingsError w (shownLogs level logs) e
  | (.ok settings, logs) =>
    { exitCode := 0
      stdout := RuleTable.text ((RuleSet.ofSettings settings).rules settings)
      stderr := shownLogs level logs }

/-- What `rules` does. -/
def planRules (w : World) (level : LogLevel) (arguments : List String) : Outcome :=
  match parse rulesSwitches true arguments with
  | .error e => .ofUsageError w .rules (.switch e)
  | .ok p =>
    if p.has .help then { exitCode := 0, stdout := Scope.rules.help }
    else
      let config : Except ValueError (Option Path) := match p.value? .config with
        | none => .ok none
        | some value => (configOf w.files value).map some
      match config with
      | .error e => .ofUsageError w .rules (.value e)
      | .ok config =>
        if p.rest.isEmpty then rulesOutcome w level config
        else .ofUsageError w .rules (.extraArguments p.rest)

/-- What the first of the switches says that are answered at once. -/
def immediateAnswer? (p : Parsed ProgramSwitch) : Option String :=
  p.given.findSome? fun
    | .version => some (program ++ ", version " ++ version ++ "\n")
    | .help => some Scope.program.help
    | _ => none

/-- How important a record has to be to be shown. -/
def levelOf (p : Parsed ProgramSwitch) : LogLevel :=
  if p.has .verbose then .debug else if p.has .quiet then .error else .warning

/-- The outcome of a command line whose command does not exist. If it looks like a switch, it is read as one
first. -/
def unknownCommand (w : World) (name : String) (arguments : List String) : Outcome :=
  let unknown := Outcome.ofUsageError w .program
    (.unknownCommand name (Text.closeMatches name (Scope.commands.map Prod.fst)))
  if name.startsWith "-" then
    match parse programSwitches false (name :: arguments) with
    | .error e => .ofUsageError w .program (.switch e)
    | .ok p =>
      match immediateAnswer? p with
      | some answer => { exitCode := 0, stdout := answer }
      | none => unknown
  else unknown

/-- What a command line asks for. -/
def plan (w : World) (arguments : List String) : Plan :=
  if arguments.isEmpty then .done { exitCode := 2, stderr := Scope.program.help }
  else
    match parse programSwitches false arguments with
    | .error e => .done (.ofUsageError w .program (.switch e))
    | .ok p =>
      match immediateAnswer? p with
      | some answer => .done { exitCode := 0, stdout := answer }
      | none =>
        match p.rest with
        | [] => .done (.ofUsageError w .program .missingCommand)
        | name :: rest =>
          match Scope.command? name with
          | some .lint => planLint w (levelOf p) rest
          | some .rules => .done (planRules w (levelOf p) rest)
          | _ => .done (unknownCommand w name rest)

/-- The outcome of a plan, if its run takes that long. -/
def Plan.outcome [Parser] (w : World) (elapsed : Elapsed) : Plan → Outcome
  | .done o => o
  | .lint p => p.outcome w (p.result w elapsed)

/-- What a command line does. -/
def run [Parser] (w : World) (elapsed : Elapsed) (arguments : List String) : Outcome :=
  (plan w arguments).outcome w elapsed

end Strata.CommandLine
