import Strata.Rule
import Strata.Settings.Schema

/-!
# The set of rules

All checks, in the order in which they run, made into rules by the settings of a run.
-/

namespace Strata

/-- Where the rules of a run come from: the policy they enforce and the marker of tests. -/
structure RuleSet where
  policy : Policy
  testMarker : String

namespace RuleSet

/-- The checks, in the order in which they run. -/
def checks : List Check :=
  [.noThrow, .forbiddenImport]

/-- The names of the rules. -/
def names : List String :=
  checks.map Check.name

/-- The rule set for some settings: the standard policy for their base package. -/
def ofSettings (s : Settings) : RuleSet :=
  ⟨Policy.standard s.projectBase, s.testMarker⟩

/-- The rules with their settings. -/
def rules (set : RuleSet) (s : Settings) : List Rule :=
  checks.map fun check => ⟨check, s.rule check.name, set.policy, set.testMarker⟩

end RuleSet

end Strata
