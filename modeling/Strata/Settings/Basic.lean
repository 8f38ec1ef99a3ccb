import Strata.Finding
import Strata.Layer
import Strata.TestSource
import Strata.Value.Basic

/-!
# Settings

What a run is told: the project's base package, what marks its tests, what to leave out, and how each
rule is set.
-/

namespace Strata

/-- How one rule is set. -/
structure RuleSettings where
  active : Bool := true
  severity : Severity := .error
  /-- Globs of the paths that the rule leaves out. -/
  excludes : List String := []
  /-- Settings that only the rule itself knows, in the order in which they are given. -/
  options : List (String × Value) := []
  deriving Inhabited

/-- How a whole run is set. -/
structure Settings where
  projectBase : String := Layer.defaultBase
  testMarker : String := defaultTestMarker
  /-- Globs of the paths that no rule looks at. -/
  excludes : List String := []
  /-- The rules that the settings name, in the order in which they are named. -/
  rules : List (String × RuleSettings) := []
  deriving Inhabited

/-- The settings of a rule; a rule that is not named has the default ones. -/
def Settings.rule (s : Settings) (name : String) : RuleSettings :=
  (Association.get? (fun a b => a == b) name s.rules).getD {}

end Strata
