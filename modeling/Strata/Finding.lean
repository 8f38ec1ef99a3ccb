import Strata.Json.Basic

/-!
# Findings

A finding says which rule was broken, where, and why.
-/

namespace Strata

/-- How much a finding weighs. -/
inductive Severity where
  | error
  | warn
  deriving Repr, DecidableEq, Inhabited

/-- The name of a severity. -/
def Severity.name : Severity → String
  | .error => "error"
  | .warn => "warn"

/-- The severity of that name. -/
def Severity.ofName? (s : String) : Option Severity :=
  if s = "error" then some .error else if s = "warn" then some .warn else none

/-- A span of a source. Lines and columns count from one; the end may be unknown. -/
structure Location where
  line : Int
  column : Int
  endLine : Option Int := none
  endColumn : Option Int := none
  deriving Repr, DecidableEq, Inhabited

/-- The start of a span as text. -/
def Location.text (l : Location) : String :=
  toString l.line ++ ":" ++ toString l.column

/-- One violation of a rule. -/
structure Finding where
  rule : String
  path : String
  location : Location
  message : String
  severity : Severity := .error
  deriving Repr, DecidableEq, Inhabited

/-- A number that may be missing, as a document. -/
def Json.ofInt? : Option Int → Json
  | some n => .int n
  | none => .null

/-- The finding as a document. -/
def Finding.toJson (f : Finding) : Json :=
  .object [
    ("rule_name", .string f.rule),
    ("severity", .string f.severity.name),
    ("file_path", .string f.path),
    ("line", .int f.location.line),
    ("column", .int f.location.column),
    ("end_line", .ofInt? f.location.endLine),
    ("end_column", .ofInt? f.location.endColumn),
    ("message", .string f.message)]

end Strata
