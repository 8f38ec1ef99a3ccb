import Strata.Proofs.Collection
import Strata.Proofs.RuleIndependence
import Strata.Proofs.Tables

/-!
# Excludes of a run and excludes of its rules

A source can be left out in two ways: the run does not collect it, or every rule leaves it alone. Both look at the
same text of its path. A source that is not collected has neither findings nor a failure, while one that is left alone
by every rule is still read, and fails if it cannot be. So what is found is the same, and the failures differ by
those of the sources that are left out.
-/

namespace Strata

open Syntax (Event)

/-! ## Sources that are not collected -/

/-- No pattern matches the path. -/
def Glob.Spare (patterns : List String) (path : String) : Prop :=
  ∀ pattern ∈ patterns, ¬ Matches (parse pattern).parts path.toList

theorem Glob.spare_iff {patterns : List String} {path : String} :
    Spare patterns path ↔ anyAccepts patterns path = false := by
  rw [← Bool.not_eq_true, anyAccepts_iff, Spare]
  simp

instance (patterns : List String) (path : String) : Decidable (Glob.Spare patterns path) :=
  decidable_of_iff _ Glob.spare_iff.symm

/-- Excluding by more patterns leaves out the sources that they match. -/
theorem Sources.collect_append (fs : FileSystem) (arguments : List Path) (excludes more : List String) :
    collect fs arguments (excludes ++ more) =
      (collect fs arguments excludes).filter fun p => Glob.Spare more p.text := by
  refine eq_of_increasing (collect_increases ..) ((collect_increases ..).filter _) fun p => ?_
  have hkept : IsKept (excludes ++ more) p ↔ IsKept excludes p ∧ Glob.Spare more p.text := by
    simp only [IsKept, Glob.Spare, List.mem_append, or_imp, forall_and]
  rw [List.mem_filter, mem_collect_iff, mem_collect_iff, decide_eq_true_eq, hkept]
  tauto

/-! ## Sources that every rule leaves alone -/

namespace Rule

/-- The rule with more excludes behind its own. -/
def exclude (r : Rule) (more : List String) : Rule :=
  { r with settings := { r.settings with excludes := r.settings.excludes ++ more } }

theorem violated_exclude_iff {r : Rule} {more : List String} {file : SourceFile} {e : Event} :
    (r.exclude more).Violated file e ↔ r.Violated file e ∧ Glob.Spare more file.path := by
  have hcovers : (r.exclude more).Covers file.path ↔ r.Covers file.path ∧ Glob.Spare more file.path := by
    constructor
    · rintro ⟨hactive, htest, hexcluded⟩
      refine ⟨⟨hactive, htest, fun pattern hpattern => ?_⟩, fun pattern hpattern => ?_⟩
      · exact hexcluded pattern (List.mem_append_left more hpattern)
      · exact hexcluded pattern (List.mem_append_right _ hpattern)
    · rintro ⟨⟨hactive, htest, hexcluded⟩, hspare⟩
      refine ⟨hactive, htest, fun pattern hpattern => ?_⟩
      rcases List.mem_append.mp hpattern with hpattern | hpattern
      · exact hexcluded pattern hpattern
      · exact hspare pattern hpattern
  -- what the policy forbids has nothing to do with excludes
  have hforbids : (r.exclude more).Forbids file.package e ↔ r.Forbids file.package e := by
    cases e with
    | imported path location => cases path <;> rfl
    | thrown location => rfl
  rw [Violated, Violated, hcovers, hforbids]
  tauto

end Rule

/-- Rules with more excludes report the same about a source that these spare, and nothing about any other one. -/
theorem Analysis.report_items_exclude (file : SourceFile) (rules : List Rule) (more : List String) :
    (report file (rules.map fun r => r.exclude more)).items =
      if Glob.Spare more file.path then (report file rules).items else [] := by
  have hcomplaints : ∀ e, (((rules.map fun r => r.exclude more).filter fun r => r.Violated file e).map
      fun r => r.complaint file e) = (rules.filter fun r => r.Violated file e ∧ Glob.Spare more file.path).map
        fun r => r.complaint file e := by
    intro e
    rw [List.filter_map, List.map_map]
    simp only [Function.comp_def, Rule.violated_exclude_iff]
    rfl
  simp only [report_items, hcomplaints]
  split
  · next hspare => simp only [hspare, and_true]
  · next hmatched => simp [hmatched]

namespace Settings

/-- The settings with the excludes of the run handed down to every rule, behind the rule's own. -/
def handDownExcludes (c : Settings) : Settings where
  projectBase := c.projectBase
  testMarker := c.testMarker
  excludes := []
  rules := RuleSet.names.foldl
    (fun table name => Association.set (fun a b => a == b) name
      { c.rule name with excludes := (c.rule name).excludes ++ c.excludes } table) c.rules

theorem rule_handDownExcludes (c : Settings) (check : Check) :
    c.handDownExcludes.rule check.name =
      { c.rule check.name with excludes := (c.rule check.name).excludes ++ c.excludes } := by
  have hne : Check.noThrow.name ≠ Check.forbiddenImport.name := by decide
  rw [rule, handDownExcludes, RuleSet.names, RuleSet.checks, List.map_cons, List.map_cons, List.map_nil,
    List.foldl_cons, List.foldl_cons, List.foldl_nil]
  cases check with
  | forbiddenImport => rw [Association.get?_set_self, Option.getD_some]
  | noThrow => rw [Association.get?_set_of_ne hne, Association.get?_set_self, Option.getD_some]

theorem ruleOf_handDownExcludes (c : Settings) (check : Check) :
    c.handDownExcludes.ruleOf check = (c.ruleOf check).exclude c.excludes := by
  rw [ruleOf, rule_handDownExcludes]
  rfl

end Settings

namespace Run

theorem rulesOf_handDownExcludes (c : Settings) :
    rulesOf c.handDownExcludes = (rulesOf c).map fun r => r.exclude c.excludes := by
  have hall : RuleSet.checks.map c.handDownExcludes.ruleOf =
      (RuleSet.checks.map c.ruleOf).map fun r => r.exclude c.excludes := by
    rw [List.map_map]
    exact List.map_congr_left fun check _ => c.ruleOf_handDownExcludes check
  rw [rulesOf_eq, rulesOf_eq, hall, List.filter_map]
  rfl

/-- With the excludes handed down, a source has the findings that it had, or none if an exclude matches it. -/
theorem findings_outcome_handDownExcludes [Parser] (fs : FileSystem) (c : Settings) (p : Path) :
    (outcome fs (rulesOf c.handDownExcludes) p).findings =
      if Glob.Spare c.excludes p.text then (outcome fs (rulesOf c) p).findings else [] := by
  rw [outcome_eq, outcome_eq, rulesOf_handDownExcludes]
  cases hfile : readSource fs p with
  | error e => simp [Outcome.findings]
  | ok file =>
    obtain ⟨package, text, rfl⟩ := eq_of_readSource hfile
    exact Analysis.report_items_exclude _ _ _

theorem flatMap_filter {α β : Type} (p : α → Bool) (f : α → List β) (l : List α) :
    (l.filter p).flatMap f = l.flatMap fun a => if p a then f a else [] := by
  induction l with
  | nil => rfl
  | cons a rest ih =>
    by_cases ha : p a = true
    · rw [List.filter_cons_of_pos ha, List.flatMap_cons, List.flatMap_cons, ih, if_pos ha]
    · rw [List.filter_cons_of_neg ha, List.flatMap_cons, ih, if_neg ha, List.nil_append]

/-- Excludes of a run do what the same excludes do in every rule. Handing them down changes neither what is found nor
its order, and of the failures those remain without it whose path no exclude matches, in the same order. -/
theorem handing_down_excludes_finds_alike [Parser] {fs : FileSystem} {arguments : List Path} {c : Settings}
    {r r' : RunResult} (hr : ComesOut fs arguments c r) (hr' : ComesOut fs arguments c.handDownExcludes r') :
    r.findings = r'.findings ∧ r.failures = r'.failures.filter fun e => Glob.Spare c.excludes e.path := by
  have hsources : Sources.collect fs arguments c.excludes =
      (Sources.collect fs arguments []).filter fun p => Glob.Spare c.excludes p.text := by
    rw [← Sources.collect_append, List.nil_append]
  rw [hr.eq_lint, hr'.eq_lint]
  constructor
  · simp only [lint, gather, hsources, flatMap_filter, findings_outcome_handDownExcludes, decide_eq_true_eq]
    rfl
  · simp only [lint, gather, hsources, List.filterMap_filter, List.filter_filterMap, decide_eq_true_eq]
    refine List.filterMap_congr fun p _ => ?_
    rw [failure?_outcome fs (rulesOf c) (rulesOf c.handDownExcludes)]
    cases hfailure : (outcome fs (rulesOf c.handDownExcludes) p).failure? p with
    | none => simp
    | some e =>
      have hpath := path_of_failure? hfailure
      by_cases hspare : Glob.Spare c.excludes p.text
      · simp [Option.filter, hpath, hspare]
      · simp [Option.filter, hpath, hspare]

/-! ### A source that is left out and cannot be read -/

namespace UnreadableLeftOut

/-- All that is below a directory `b` is left out. -/
def settings : Settings :=
  { projectBase := "a", excludes := ["*/b/*"], rules := [("ForbiddenLayerImport", { excludes := ["*.kts"] })] }

theorem unreadable_mem (content : ByteArray) :
    TwoProjects.unreadable ∈ Sources.collect (TwoProjects.large content) [⟨"", ["b"]⟩, ⟨"", ["a"]⟩] [] := by
  refine Sources.mem_collect.mpr ⟨⟨_, List.mem_cons_self, ?_⟩, rfl⟩
  rw [TwoProjects.found_large_b]
  exact List.mem_cons_self

theorem shared_mem (content : ByteArray) : TwoProjects.shared ∈
    Sources.collect (TwoProjects.large content) [⟨"", ["b"]⟩, ⟨"", ["a"]⟩] settings.excludes := by
  refine Sources.mem_collect.mpr ⟨⟨_, List.mem_cons_of_mem _ List.mem_cons_self, ?_⟩, by decide⟩
  rw [TwoProjects.found_large_a]
  exact List.mem_cons_self

theorem failure_mem (content : ByteArray) (elapsed : Elapsed) :
    TwoProjects.failure ∈
      (lint (TwoProjects.large content) [⟨"", ["b"]⟩, ⟨"", ["a"]⟩] settings.handDownExcludes elapsed).failures := by
  refine List.mem_filterMap.mpr ⟨TwoProjects.unreadable, unreadable_mem content, ?_⟩
  rw [TwoProjects.outcome_unreadable]
  rfl

end UnreadableLeftOut

/-- A source that is left out fails once the excludes are handed down, and not before. What is found in the other
source does not change. -/
theorem excludes_of_unreadable_source :
    let fs := TwoProjects.large ThrowingSource.text.toUTF8
    let c := UnreadableLeftOut.settings
    let r := lint fs [⟨"", ["b"]⟩, ⟨"", ["a"]⟩] c (.whole 0)
    let r' := lint fs [⟨"", ["b"]⟩, ⟨"", ["a"]⟩] c.handDownExcludes (.whole 0)
    ComesOut fs [⟨"", ["b"]⟩, ⟨"", ["a"]⟩] c r ∧ ComesOut fs [⟨"", ["b"]⟩, ⟨"", ["a"]⟩] c.handDownExcludes r' ∧
      r.findings = r'.findings ∧ (r.failures = r'.failures.filter fun e => Glob.Spare c.excludes e.path) ∧
      TwoProjects.failure ∈ r'.failures ∧ TwoProjects.failure ∉ r.failures ∧
      r.findings.filter (fun f => f.path = "/w/a/c.kt") =
        [ThrowingSource.importFinding "/w/a/c.kt", ThrowingSource.throwFinding "/w/a/c.kt"] := by
  intro fs c r r'
  have hr : ComesOut fs [⟨"", ["b"]⟩, ⟨"", ["a"]⟩] c r := comesOut_lint ..
  have hr' : ComesOut fs [⟨"", ["b"]⟩, ⟨"", ["a"]⟩] c.handDownExcludes r' := comesOut_lint ..
  obtain ⟨hfindings, hfailures⟩ := handing_down_excludes_finds_alike hr hr'
  refine ⟨hr, hr', hfindings, hfailures, UnreadableLeftOut.failure_mem _ _, ?_, ?_⟩
  · intro hmem
    rw [hfailures, List.mem_filter, decide_eq_true_eq] at hmem
    exact absurd hmem.2 (by decide)
  · have hread := (TwoProjects.read_eq ThrowingSource.text.toUTF8).trans (TwoProjects.read_small _)
    refine (filter_findings _ (UnreadableLeftOut.shared_mem _)).trans ?_
    rw [ThrowingSource.outcome_eq ThrowingSource.tree_eq hread]
    decide

end Run

end Strata
