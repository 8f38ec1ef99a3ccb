import Strata.Proofs.Locality

/-!
# Rules do not influence each other

The findings of a rule depend on its own settings and on those of the whole run, not on the other rules. Two places
could join the rules: the findings of all rules for one source stand in one list, and a source is not even looked at
if no rule is on. The first is undone by taking the findings of one rule out of the list, which sorting does not
disturb. The second would matter for sources whose tree cannot be read to its end, since they fail only if they are
looked at; but the tree of a source is legible, and a legible tree can always be read.
-/

namespace Strata

open Syntax (Event)

/-! ## Rules that are alike -/

namespace Rule

/-- Rules that differ at most in settings which only the rule itself knows. -/
structure Alike (r r' : Rule) : Prop where
  check : r.check = r'.check
  policy : r.policy = r'.policy
  testMarker : r.testMarker = r'.testMarker
  active : r.settings.active = r'.settings.active
  severity : r.settings.severity = r'.settings.severity
  excludes : r.settings.excludes = r'.settings.excludes

variable {r r' : Rule}

theorem Alike.violated_iff (h : Alike r r') (file : SourceFile) (e : Event) :
    r.Violated file e ↔ r'.Violated file e := by
  have hcovers : r.Covers file.path ↔ r'.Covers file.path := by
    rw [covers_iff, covers_iff, appliesTo, appliesTo, h.active, h.testMarker, h.excludes]
  have hforbids : r.Forbids file.package e ↔ r'.Forbids file.package e := by
    cases e with
    | imported path location => cases path <;> simp only [Forbids, h.check, h.policy]
    | thrown location => simp only [Forbids, h.check, h.policy]
  rw [Violated, Violated, hcovers, hforbids]

theorem Alike.complaint_eq (h : Alike r r') (file : SourceFile) (e : Event) :
    r.complaint file e = r'.complaint file e := by
  simp only [complaint, h.check, h.policy, h.severity]

/-- What a rule finds in a source. -/
def findingsIn (r : Rule) (file : SourceFile) : List Finding :=
  file.tree.delivery.items.flatMap fun e => if r.Violated file e then [r.complaint file e] else []

theorem Alike.findingsIn_eq (h : Alike r r') (file : SourceFile) : r.findingsIn file = r'.findingsIn file := by
  simp only [findingsIn, h.violated_iff file, h.complaint_eq file]

end Rule

/-! ## The rule of a check -/

/-- The rule that some settings make of a check. -/
def Settings.ruleOf (c : Settings) (check : Check) : Rule :=
  ⟨check, c.rule check.name, Policy.standard c.projectBase, c.testMarker⟩

/-- The settings agree on all that concerns one rule: on what is set for the whole run, and on what every rule is
told. -/
structure Settings.AgreeOn (check : Check) (c c' : Settings) : Prop where
  projectBase : c.projectBase = c'.projectBase
  testMarker : c.testMarker = c'.testMarker
  excludes : c.excludes = c'.excludes
  active : (c.rule check.name).active = (c'.rule check.name).active
  severity : (c.rule check.name).severity = (c'.rule check.name).severity
  ruleExcludes : (c.rule check.name).excludes = (c'.rule check.name).excludes

theorem Settings.AgreeOn.alike {check : Check} {c c' : Settings} (h : AgreeOn check c c') :
    Rule.Alike (c.ruleOf check) (c'.ruleOf check) where
  check := rfl
  policy := congrArg Policy.standard h.projectBase
  testMarker := h.testMarker
  active := h.active
  severity := h.severity
  excludes := h.ruleExcludes

namespace Run

/-! ## The findings of one rule -/

/-- The rules of a run are those of all checks that are on. -/
theorem rulesOf_eq (c : Settings) :
    rulesOf c = (RuleSet.checks.map c.ruleOf).filter fun r => r.settings.active := rfl

/-- Of the rules of a run that an event violates, only one has the name of a check. -/
theorem filter_name_rulesOf (c : Settings) (check : Check) (file : SourceFile) (e : Event) :
    ((rulesOf c).filter fun r => r.Violated file e).filter (fun r => r.name = check.name) =
      if (c.ruleOf check).Violated file e then [c.ruleOf check] else [] := by
  have hone : ((RuleSet.checks.map c.ruleOf).filter fun r => r.name = check.name) = [c.ruleOf check] := by
    cases check <;> rfl
  -- a rule that is violated is on, so the rules that are off need not be left out before
  have hactive : ((rulesOf c).filter fun r => r.Violated file e) =
      (RuleSet.checks.map c.ruleOf).filter fun r => r.Violated file e := by
    rw [rulesOf_eq, List.filter_filter]
    refine List.filter_congr fun r _ => ?_
    by_cases hviolated : r.Violated file e
    · simp [hviolated, hviolated.1.active]
    · simp [hviolated]
  rw [hactive, List.filter_comm, hone, List.filter_cons, List.filter_nil]
  simp only [decide_eq_true_eq]

/-- The findings of a rule in a source are those that it would have if it were alone. -/
theorem filter_rule_report (c : Settings) (check : Check) (file : SourceFile) :
    (Analysis.report file (rulesOf c)).items.filter (fun f => f.rule = check.name) =
      (c.ruleOf check).findingsIn file := by
  rw [Analysis.report_items, List.filter_flatMap, Rule.findingsIn]
  congr 1
  funext e
  have hnames : (((rulesOf c).filter fun r => r.Violated file e).map fun r => r.complaint file e).filter
      (fun f => f.rule = check.name) =
        (((rulesOf c).filter fun r => r.Violated file e).filter fun r => r.name = check.name).map
          fun r => r.complaint file e :=
    List.filter_map
  rw [hnames, filter_name_rulesOf]
  split <;> rfl

section

variable [Parser] {check : Check} {c c' : Settings}

theorem filter_rule_outcome (h : Settings.AgreeOn check c c') (fs : FileSystem) (p : Path) :
    (outcome fs (rulesOf c) p).findings.filter (fun f => f.rule = check.name) =
      (outcome fs (rulesOf c') p).findings.filter fun f => f.rule = check.name := by
  rw [outcome_eq, outcome_eq]
  cases readSource fs p with
  | error e => rfl
  | ok file =>
    simp only [Outcome.findings, filter_rule_report]
    exact h.alike.findingsIn_eq file

theorem failure?_outcome (fs : FileSystem) (rules rules' : List Rule) (p : Path) :
    (outcome fs rules p).failure? p = (outcome fs rules' p).failure? p := by
  rw [outcome_eq, outcome_eq]
  cases readSource fs p <;> rfl

/-- Rules do not influence each other. If two settings agree on what is set for the whole run and on whether one
rule is on, on its severity and on its excludes, then runs over the same arguments have the same findings of that
rule, in the same order, they scan as many files, and they have the same failures. What else is set, for the other
rule or as an option of either, does not matter, even if it leaves no rule on. -/
theorem rules_do_not_interfere (h : Settings.AgreeOn check c c') {fs : FileSystem} {arguments : List Path}
    {r r' : RunResult} (hr : ComesOut fs arguments c r) (hr' : ComesOut fs arguments c' r') :
    r.findings.filter (fun f => f.rule = check.name) = r'.findings.filter (fun f => f.rule = check.name) ∧
      r.filesScanned = r'.filesScanned ∧ r.failures = r'.failures := by
  rw [hr.eq_lint, hr'.eq_lint]
  simp only [lint, gather, sortByPath, ← h.excludes, true_and]
  constructor
  · rw [StableSort.filter_mergeSort_comm lexLE_path_iff, StableSort.filter_mergeSort_comm lexLE_path_iff,
      List.filter_flatMap, List.filter_flatMap]
    simp only [filter_rule_outcome h fs]
  · simp only [failure?_outcome fs (rulesOf c) (rulesOf c')]

end

/-! ### A rule that is off beside one that is on -/

namespace OffBesideOn

/-- The rule about throws is off. -/
def throwsOff : Settings :=
  { projectBase := "a", rules := [("NoThrowOutsidePresentation", { active := false })] }

/-- All rules are off, and the one about throws is told something that nobody knows. -/
def allOff : Settings :=
  { projectBase := "a"
    rules := [("ForbiddenLayerImport", { active := false, severity := .warn, excludes := ["*"] }),
      ("NoThrowOutsidePresentation", { active := false, options := [("since", .int 2)] })] }

/-- The rule about imports is off. -/
def importsOff : Settings :=
  { projectBase := "a", rules := [("ForbiddenLayerImport", { active := false, severity := .warn, excludes := ["*"] })] }

theorem agree : Settings.AgreeOn .noThrow throwsOff allOff :=
  ⟨rfl, rfl, rfl, rfl, rfl, rfl⟩

theorem agree_on : Settings.AgreeOn .noThrow DomainSource.settings importsOff :=
  ⟨rfl, rfl, rfl, rfl, rfl, rfl⟩

theorem rulesOf_allOff : rulesOf allOff = [] := rfl

end OffBesideOn

/-- A run with one rule off and one with all rules off differ in the findings of the other rule only. If the rule about
throws is on, it finds the throw whether the rule about imports is on or not. -/
theorem independence_of_rule_that_is_off :
    let project := TwoProjects.large ThrowingSource.text.toUTF8
    let r := lint project [⟨"", []⟩] OffBesideOn.throwsOff (.whole 0)
    let r' := lint project [⟨"", []⟩] OffBesideOn.allOff (.whole 0)
    let both := lint project [⟨"", []⟩] DomainSource.settings (.whole 0)
    let one := lint project [⟨"", []⟩] OffBesideOn.importsOff (.whole 0)
    Settings.AgreeOn .noThrow OffBesideOn.throwsOff OffBesideOn.allOff ∧ rulesOf OffBesideOn.allOff = [] ∧
      (r.findings.filter (fun f => f.rule = "NoThrowOutsidePresentation") =
          r'.findings.filter (fun f => f.rule = "NoThrowOutsidePresentation") ∧
        r.filesScanned = r'.filesScanned ∧ r.failures = r'.failures) ∧
      Settings.AgreeOn .noThrow DomainSource.settings OffBesideOn.importsOff ∧
      (both.findings.filter (fun f => f.rule = "NoThrowOutsidePresentation") =
          one.findings.filter (fun f => f.rule = "NoThrowOutsidePresentation") ∧
        both.filesScanned = one.filesScanned ∧ both.failures = one.failures) ∧
      r.findings.filter (fun f => f.path = "/w/a/c.kt") = [ThrowingSource.importFinding "/w/a/c.kt"] ∧
      r'.findings.filter (fun f => f.path = "/w/a/c.kt") = [] ∧
      both.findings.filter (fun f => f.path = "/w/a/c.kt") =
        [ThrowingSource.importFinding "/w/a/c.kt", ThrowingSource.throwFinding "/w/a/c.kt"] ∧
      one.findings.filter (fun f => f.path = "/w/a/c.kt") = [ThrowingSource.throwFinding "/w/a/c.kt"] := by
  intro project r r' both one
  have hoff := rules_do_not_interfere OffBesideOn.agree (comesOut_lint project [⟨"", []⟩] _ (.whole 0))
    (comesOut_lint project [⟨"", []⟩] _ (.whole 0))
  have hon := rules_do_not_interfere OffBesideOn.agree_on (comesOut_lint project [⟨"", []⟩] _ (.whole 0))
    (comesOut_lint project [⟨"", []⟩] _ (.whole 0))
  refine ⟨OffBesideOn.agree, OffBesideOn.rulesOf_allOff, hoff, OffBesideOn.agree_on, hon, ?_, ?_, ?_, ?_⟩
  · exact (TwoProjects.filter_findings_eq ThrowingSource.tree_eq _ rfl).trans (by decide)
  · exact (TwoProjects.filter_findings_eq ThrowingSource.tree_eq _ rfl).trans (by decide)
  · exact (TwoProjects.filter_findings_eq ThrowingSource.tree_eq _ rfl).trans (by decide)
  · exact (TwoProjects.filter_findings_eq ThrowingSource.tree_eq _ rfl).trans (by decide)

end Run

end Strata
