import Strata.Rule

/-!
# Analysis of one source

Every event of a source is handed to the active rules that look at its kind. Findings come in the order
of the events and, for one event, in the order of the rules.
-/

namespace Strata.Analysis

/-- The rules that are on. -/
def activeRules (rules : List Rule) : List Rule :=
  rules.filter fun r => r.settings.active

/-- The findings for one event. -/
def findingsAt (file : SourceFile) (rules : List Rule) : Syntax.Event → List Finding
  | .imported path location =>
    (rules.filter fun r => r.check.looksAtImports).filterMap fun r => r.visitImport file path location
  | .thrown location =>
    (rules.filter fun r => r.check.looksAtThrows).filterMap fun r => r.visitThrow file location

/-- The findings of the rules in a source as they are reported, event by event. The source is not even looked
at if no rule is on. -/
def report (file : SourceFile) (rules : List Rule) : Delivery Text.Utf8.Fault Finding :=
  let active := activeRules rules
  if active.isEmpty then ⟨[], none⟩
  else ⟨file.tree.delivery.items.flatMap (findingsAt file active), file.tree.delivery.fault⟩

/-- The findings of the rules in a source. What was reported before a fault is dropped. -/
def analyse (file : SourceFile) (rules : List Rule) : Except Text.Utf8.Fault (List Finding) :=
  (report file rules).complete

end Strata.Analysis
