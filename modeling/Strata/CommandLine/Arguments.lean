import Strata.CommandLine.Usage
import Strata.Settings.Lookup
import Strata.Text.Digit

/-!
# Arguments of the commands

The switches of the program and of its commands, and the values that they are given.
-/

namespace Strata.CommandLine

inductive ProgramSwitch where
  | version
  | verbose
  | quiet
  | help
  deriving Repr, DecidableEq

inductive LintSwitch where
  | format
  | strict
  | config
  | jobs
  | help
  deriving Repr, DecidableEq

inductive RulesSwitch where
  | config
  | help
  deriving Repr, DecidableEq

/-- The switches before a command. -/
def programSwitches : List (Switch ProgramSwitch) :=
  [⟨.version, "--version", none, false⟩, ⟨.verbose, "--verbose", some 'v', false⟩,
    ⟨.quiet, "--quiet", some 'q', false⟩, ⟨.help, "--help", none, false⟩]

/-- The switches of `lint`. -/
def lintSwitches : List (Switch LintSwitch) :=
  [⟨.format, "--format", none, true⟩, ⟨.strict, "--strict", none, false⟩,
    ⟨.config, "--config", none, true⟩, ⟨.jobs, "--jobs", some 'j', true⟩, ⟨.help, "--help", none, false⟩]

/-- The switches of `rules`. -/
def rulesSwitches : List (Switch RulesSwitch) :=
  [⟨.config, "--config", none, true⟩, ⟨.help, "--help", none, false⟩]

/-- What `lint` is told. -/
structure LintArguments where
  paths : List Path := []
  format : Option ReportFormat := none
  strict : Bool := false
  config : Option Path := none
  jobs : Option Jobs := none

/-- The kind of report that a value names. -/
def formatOf (value : String) : Except ValueError ReportFormat :=
  match ReportFormat.ofName? value with
  | some f => .ok f
  | none => .error (.format value)

/-- The number of workers that a value stands for. -/
def jobsOf (value : String) : Except ValueError Jobs :=
  match Text.readInt? 10 value with
  | none => .error (.noInteger value)
  | some n =>
    match Jobs.ofInt? n with
    | some jobs => .ok jobs
    | none => .error (.tooSmall n)

/-- The settings file that a value names. It has to exist. -/
def configOf (fs : FileSystem) (value : String) : Except ValueError Path :=
  match fs.lookupText value with
  | .error _ => .error (.missingFile value)
  | .ok (.directory _ _) => .error (.directory value)
  | .ok _ => .ok (Path.parse value)

/-- A file or directory that is to be analysed. It has to exist. -/
def pathOf (fs : FileSystem) (value : String) : Except ValueError Path :=
  match fs.lookupText value with
  | .error _ => .error (.missingPath value)
  | .ok _ => .ok (Path.parse value)

/-- The arguments with what one switch says. -/
def LintArguments.withSwitch (fs : FileSystem) (p : Parsed LintSwitch) (a : LintArguments)
    (id : LintSwitch) : Except ValueError LintArguments :=
  let value := (p.value? id).getD ""
  match id with
  | .format => (formatOf value).map fun f => { a with format := some f }
  | .strict => .ok { a with strict := true }
  | .config => (configOf fs value).map fun path => { a with config := some path }
  | .jobs => (jobsOf value).map fun jobs => { a with jobs := some jobs }
  | .help => .ok a

/-- The arguments of `lint`. Switches are looked at in the order in which they are given, and before the
paths. -/
def LintArguments.ofParsed (fs : FileSystem) (p : Parsed LintSwitch) : Except ValueError LintArguments :=
  match p.given.foldlM (LintArguments.withSwitch fs p) {} with
  | .error e => .error e
  | .ok a => (p.rest.mapM (pathOf fs)).map fun paths => { a with paths }

/-- The files and directories that a command line speaks of, so far as it can be understood. A run without
paths is about the working directory. -/
def mentionedPaths (arguments : List String) : List String :=
  match parse programSwitches false arguments with
  | .ok ⟨_, "lint" :: rest⟩ =>
    match parse lintSwitches true rest with
    | .ok p => (if p.rest.isEmpty then ["."] else p.rest) ++ (p.value? .config).toList
    | .error _ => []
  | .ok ⟨_, "rules" :: rest⟩ =>
    match parse rulesSwitches true rest with
    | .ok p => (p.value? .config).toList
    | .error _ => []
  | _ => []

end Strata.CommandLine
