import Strata.Analysis
import Strata.RuleSet
import Strata.Sources
import Strata.Syntax.Parser
import Strata.Text.Newline

/-!
# A run

A run analyses each of its sources on its own. A source that cannot be analysed is a failure and does not
keep the others from being analysed. The findings are put in the order of their paths; those of one source
keep their order.
-/

namespace Strata

/-- A source that could not be analysed. -/
structure Failure where
  path : String
  message : String
  deriving Repr, DecidableEq

/-- How long a run took, in milliseconds. -/
inductive Elapsed where
  | whole (milliseconds : Int)
  | measured (milliseconds : Float)

/-- The time between two readings of a clock that counts seconds. -/
def Elapsed.between (start stop : Float) : Elapsed :=
  .measured ((stop - start) * 1000.0)

/-- What came out of a run. -/
structure RunResult where
  findings : List Finding := []
  failures : List Failure := []
  rulesEvaluated : Int := 0
  filesScanned : Int := 0
  elapsed : Elapsed := .measured 0.0

/-- How many workers a run may use. What comes out of the run does not depend on it. -/
structure Jobs where
  count : Nat
  positive : 0 < count

/-- What is wrong with a number of workers that is not positive. -/
def Jobs.invalid : String :=
  "max_workers must be greater than 0"

/-- That many workers. -/
def Jobs.ofInt? (n : Int) : Option Jobs :=
  if h : 0 < n.toNat then some ⟨n.toNat, h⟩ else none

/-- Why a source could not be analysed. -/
inductive SourceFault where
  | unreadable (path : String) (e : FileError)
  | encoding (f : Text.Utf8.Fault)

/-- What is wrong, in words. -/
def SourceFault.message : SourceFault → String
  | .unreadable path e => e.message path
  | .encoding f => f.message

namespace Run

section

variable [Parser]

/-- The source in a file. -/
def sourceOf (path : String) (bytes : ByteArray) : Except SourceFault SourceFile :=
  match Text.Utf8.decode bytes with
  | .error f => .error (.encoding f)
  | .ok text => (SourceFile.ofTree path (Parser.tree (Text.unifyNewlines text))).mapError .encoding

/-- The source at a path. -/
def readSource (fs : FileSystem) (path : Path) : Except SourceFault SourceFile :=
  match fs.read path with
  | .error e => .error (.unreadable path.text e)
  | .ok bytes => sourceOf path.text bytes

/-- The findings in the source at a path as they are reported. -/
def report (fs : FileSystem) (rules : List Rule) (path : Path) : Delivery SourceFault Finding :=
  match readSource fs path with
  | .error e => .failed e
  | .ok file => (Analysis.report file rules).mapFault .encoding

/-- The findings in the source at a path. -/
def analysePath (fs : FileSystem) (rules : List Rule) (path : Path) : Except SourceFault (List Finding) :=
  (report fs rules path).complete

/-- What is told while the source at a path is analysed. -/
def logsOfPath (fs : FileSystem) (rules : List Rule) (path : Path) : List LogRecord :=
  let told := match readSource fs path with
    | .error _ => []
    | .ok file =>
      if (Analysis.activeRules rules).isEmpty then []
      else Syntax.logsOfEvents file.tree.delivery.items
  match analysePath fs rules path with
  | .ok _ => told
  | .error e =>
    told ++ [⟨.warning, .run, "Analysis failed for " ++ path.text ++ ": " ++ e.message⟩]

end

/-- What came out of the analysis of a source: its findings, or what went wrong in words. -/
abbrev Outcome := Except String (List Finding)

/-- What is found in a source. Of a source that could not be analysed nothing counts. -/
def Outcome.findings : Outcome → List Finding
  | .ok findings => findings
  | .error _ => []

/-- The failure of a source that could not be analysed. -/
def Outcome.failure? (path : Path) : Outcome → Option Failure
  | .ok _ => none
  | .error message => some ⟨path.text, message⟩

/-- What is reported about the source at a path, and what went wrong in words. -/
def work [Parser] (fs : FileSystem) (rules : List Rule) (path : Path) : Delivery String Finding :=
  (report fs rules path).mapFault SourceFault.message

/-- What comes out of the analysis of the source at a path. -/
def outcome [Parser] (fs : FileSystem) (rules : List Rule) (path : Path) : Outcome :=
  (work fs rules path).complete

/-- Findings in the order of their paths, which are compared by code points. -/
def sortByPath (findings : List Finding) : List Finding :=
  findings.mergeSort fun a b => Text.lexLE a.path b.path

/-- The rules of a run that are on. -/
def rulesOf (s : Settings) : List Rule :=
  Analysis.activeRules ((RuleSet.ofSettings s).rules s)

/-- The result of a run over some sources, whose outcomes are given. -/
def gather (outcomeOf : Path → Outcome) (sources : List Path) (rules : List Rule) (elapsed : Elapsed) :
    RunResult where
  findings := sortByPath (sources.flatMap fun p => (outcomeOf p).findings)
  failures := sources.filterMap fun p => (outcomeOf p).failure? p
  rulesEvaluated := rules.length
  filesScanned := sources.length
  elapsed := elapsed

/-- Analyses the sources among and below the arguments. -/
def lint [Parser] (fs : FileSystem) (arguments : List Path) (s : Settings) (elapsed : Elapsed) : RunResult :=
  let rules := rulesOf s
  gather (outcome fs rules) (Sources.collect fs arguments s.excludes) rules elapsed

/-- What is told about the rules of a run. -/
def rulesLog (rules : List Rule) : LogRecord :=
  let names := String.intercalate ", " (rules.map Rule.name)
  ⟨.debug, .run, "Active rules: " ++ if names = "" then "none" else names⟩

/-- What is told during a run. -/
def logs [Parser] (fs : FileSystem) (arguments : List Path) (s : Settings) : List LogRecord :=
  let rules := rulesOf s
  rulesLog rules :: Sources.logs fs arguments ++
    (Sources.collect fs arguments s.excludes).flatMap (logsOfPath fs rules)

end Run

end Strata
