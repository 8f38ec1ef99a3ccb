import Strata.Decimal.Numeral
import Strata.Json.Printer
import Strata.Run
import Strata.Text.Wrap

/-!
# Reports

What came out of a run, written for a person (`Report.text`), as a JSON document (`Report.json`), or with
one line a finding for other programs (`Report.porcelain`).
-/

namespace Strata

namespace Elapsed

/-- The time in seconds. -/
def seconds : Elapsed → Float
  | whole n =>
    let s := Float.ofScientific n.natAbs true 3
    if n < 0 then -s else s
  | measured x => x / 1000.0

/-- The time in milliseconds as a document. -/
def toJson : Elapsed → Json
  | whole n => .int n
  | measured x => .real (Decimal.json.render x)

end Elapsed

/-- The failure as a document. -/
def Failure.toJson (f : Failure) : Json :=
  .object [("file_path", .string f.path), ("message", .string f.message)]

namespace Report

/-! ## For a person -/

/-- How many cells a line of the report has. -/
def width : Nat := 120

/-- The line that names the rule of a finding. -/
def findingHeader (f : Finding) : String :=
  "✗ " ++ f.rule

/-- The line that says where a finding is and why. -/
def findingLine (f : Finding) : String :=
  "  " ++ f.path ++ ":" ++ f.location.text ++ " → " ++ f.message

/-- The line of a failure. -/
def failureLine (f : Failure) : String :=
  "! " ++ f.path ++ ": " ++ f.message

/-- The last line. -/
def summaryLine (r : RunResult) : String :=
  let count := r.findings.length
  let found :=
    if count = 0 then "✓ No findings"
    else if count = 1 then "1 finding"
    else toString count ++ " findings"
  found ++ " (" ++ toString r.rulesEvaluated ++ " rules evaluated, " ++
    Decimal.fixed 1 r.elapsed.seconds ++ "s)"

/-- The texts of a report, each of which starts on a line of its own. An empty one is a blank line. -/
def paragraphs (r : RunResult) : List String :=
  ["Rules: " ++ toString r.rulesEvaluated ++ " active",
    "Files: " ++ toString r.filesScanned ++ " scanned", ""] ++
  (r.findings.flatMap fun f => [findingHeader f, findingLine f, ""]) ++
  r.failures.map failureLine ++ (if r.failures.isEmpty then [] else [""]) ++ [summaryLine r]

/-- The lines of a report. -/
def lines (r : RunResult) : List String :=
  (paragraphs r).flatMap (Text.wrap width)

/-- The report for a person: each line is printed with a line end, and those at the end of all are taken away. -/
def text (r : RunResult) : String :=
  let printed := String.join ((lines r).map fun line => line ++ "\n")
  String.ofList (Text.dropEndWhile (fun c => c = '\n') printed.toList)

/-! ## As a document -/

/-- The report as a document. -/
def document (r : RunResult) : Json :=
  .object [
    ("findings", .array (r.findings.map Finding.toJson)),
    ("failures", .array (r.failures.map Failure.toJson)),
    ("summary", .object [
      ("rules_evaluated", .int r.rulesEvaluated),
      ("findings_count", .int r.findings.length),
      ("failures_count", .int r.failures.length),
      ("files_scanned", .int r.filesScanned),
      ("elapsed_ms", r.elapsed.toJson)])]

/-- The document with one item a line. -/
def json (r : RunResult) : String :=
  (document r).pretty 0

/-! ## For other programs -/

/-- A finding as a line with colons between its parts. -/
def porcelainLine (f : Finding) : String :=
  f.rule ++ ":" ++ f.severity.name ++ ":" ++ f.path ++ ":" ++ toString f.location.line ++ ":" ++
    toString f.location.column ++ ":" ++ f.message

/-- One line a finding. -/
def porcelain (r : RunResult) : String :=
  String.intercalate "\n" (r.findings.map porcelainLine)

end Report

/-- The kinds of reports. -/
inductive ReportFormat where
  | text
  | json
  | porcelain
  deriving Repr, DecidableEq

namespace ReportFormat

/-- All kinds of reports. -/
def all : List ReportFormat :=
  [text, json, porcelain]

/-- The name of a kind. -/
def name : ReportFormat → String
  | text => "rich"
  | json => "json"
  | porcelain => "porcelain"

/-- The kind of that name. -/
def ofName? (s : String) : Option ReportFormat :=
  all.find? fun f => f.name = s

/-- A report of this kind. -/
def render : ReportFormat → RunResult → String
  | text => Report.text
  | json => Report.json
  | porcelain => Report.porcelain

end ReportFormat

end Strata
