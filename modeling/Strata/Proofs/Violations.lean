import Mathlib.Tactic
import Strata.Analysis
import Strata.Proofs.Glob
import Strata.Proofs.Search
import Strata.Proofs.Traversal

/-!
# The analysis of a source reports exactly the violations

`Rule.Violated` says when an event of a source violates a rule, and `Rule.complaint` what is reported then. A rule
that is handed an event reports a complaint iff the source is not exempt and the event is forbidden
(`visit_eq_some_iff`); that events are handed only to the rules that look at their kind loses nothing
(`findingsAt_eq_filterMap_visit`).
-/

namespace Strata

open Syntax (Event)

namespace Rule

/-! ## Violations -/

/-- The rule is on and looks at the source at that path: the path, with slashes for backslashes, does not contain
the marker of tests, and no exclude matches it. -/
structure Covers (r : Rule) (path : String) : Prop where
  active : r.settings.active = true
  notTest : ¬ r.testMarker.toList <:+: path.toList.map fun c => if c = '\\' then '/' else c
  notExcluded : ∀ pattern ∈ r.settings.excludes, ¬ Glob.Matches (Glob.parse pattern).parts path.toList

/-- The policy of the rule forbids the event in a package: an import with a path if the layer of the package has
an import constraint and no prefix of the layer or of all layers begins the path, and a throw if the layer must
not throw. -/
def Forbids (r : Rule) (package : String) : Event → Prop
  | .imported (some path) _ =>
    r.check = .forbiddenImport ∧ ∃ entry own,
      r.policy.lookup (Layer.ofPackage r.policy.base package) = some entry ∧ entry.prefixes = some own ∧
        ∀ q ∈ r.policy.common ++ own, ¬ q.toList <+: path.toList
  | .imported none _ => False
  | .thrown _ =>
    r.check = .noThrow ∧ ∃ entry,
      r.policy.lookup (Layer.ofPackage r.policy.base package) = some entry ∧ entry.throwAllowed = false

/-- The event violates the rule in that source. -/
def Violated (r : Rule) (file : SourceFile) (e : Event) : Prop :=
  r.Covers file.path ∧ r.Forbids file.package e

/-- What a violation is reported with. -/
def complaint (r : Rule) (file : SourceFile) (e : Event) : Finding where
  rule := r.check.name
  path := file.path
  location := e.location
  message := match e with
    | .imported path _ =>
      "Import '" ++ path.getD "" ++ "' is not allowed in " ++
        (Layer.ofPackage r.policy.base file.package).name ++ " layer."
    | .thrown _ =>
      "throw detected in package '" ++ file.package ++
        "'. Use a typed result (Either<XxxError, T>) instead of throwing."
  severity := r.settings.severity

/-! ## What a rule reports -/

theorem isTestSource_iff {marker path : String} :
    isTestSource marker path = true ↔
      marker.toList <:+: path.toList.map fun c => if c = '\\' then '/' else c := by
  simp [isTestSource, PathSpelling.isTestSource, PathSpelling.slashed, Text.contains_iff, Text.replaceChar]

/-- A rule that is on looks at exactly the sources that it covers. -/
theorem covers_iff {r : Rule} {path : String} :
    r.Covers path ↔ r.settings.active = true ∧ r.appliesTo path = true := by
  rw [appliesTo, Bool.and_eq_true, Bool.not_eq_true', Bool.not_eq_true', ← Bool.not_eq_true,
    ← Bool.not_eq_true, isTestSource_iff, Glob.anyAccepts_iff]
  constructor
  · rintro ⟨hactive, htest, hexcluded⟩
    exact ⟨hactive, htest, fun ⟨p, hp, hm⟩ => hexcluded p hp hm⟩
  · rintro ⟨hactive, htest, hexcluded⟩
    exact ⟨hactive, htest, fun p hp hm => hexcluded ⟨p, hp, hm⟩⟩

end Rule

/-- A layer may not import a path iff it has an import constraint and no prefix begins the path. -/
theorem Policy.allowsImport_eq_false_iff (p : Policy) (entry : LayerPolicy) (path : String) :
    p.allowsImport entry path = false ↔
      ∃ own, entry.prefixes = some own ∧ ∀ q ∈ p.common ++ own, ¬ q.toList <+: path.toList := by
  rw [← Bool.not_eq_true, allowsImport]
  cases entry.prefixes with
  | none => simp
  | some own =>
    simp only [Bool.or_eq_true, List.any_eq_true, Text.beginsWith_iff, Option.some.injEq, exists_eq_left',
      List.mem_append]
    constructor
    · rintro h q (hq | hq) hpre
      · exact h (Or.inl ⟨q, hq, hpre⟩)
      · exact h (Or.inr ⟨q, hq, hpre⟩)
    · rintro h (⟨q, hq, hpre⟩ | ⟨q, hq, hpre⟩)
      · exact h q (Or.inl hq) hpre
      · exact h q (Or.inr hq) hpre

namespace Rule

/-- What a rule reports of an import. -/
theorem visitImport_eq_some_iff {r : Rule} {file : SourceFile} {path : Option String} {location : Location}
    {f : Finding} :
    r.visitImport file path location = some f ↔
      r.appliesTo file.path = true ∧ r.Forbids file.package (.imported path location) ∧
        f = r.complaint file (.imported path location) := by
  cases hcheck : r.check with
  | noThrow => cases path <;> simp [visitImport, Forbids, hcheck]
  | forbiddenImport =>
    cases happlies : r.appliesTo file.path with
    | false => simp [visitImport, hcheck, happlies]
    | true =>
      cases path with
      | none => simp [visitImport, Forbids, hcheck, happlies]
      | some path =>
        cases hentry : r.policy.lookup (Layer.ofPackage r.policy.base file.package) with
        | none => simp [visitImport, Forbids, Policy.layerOf, hcheck, happlies, hentry]
        | some entry =>
          have hvisit : r.visitImport file (some path) location =
              if r.policy.allowsImport entry path then none
              else some (r.complaint file (.imported (some path) location)) := by
            simp only [visitImport, Policy.layerOf, hcheck, happlies, hentry]
            rfl
          have hforbids : r.Forbids file.package (.imported (some path) location) ↔
              r.policy.allowsImport entry path = false := by
            simp only [Forbids, hcheck, hentry, true_and, Option.some.injEq, exists_and_left, exists_eq_left']
            exact (Policy.allowsImport_eq_false_iff r.policy entry path).symm
          rw [hvisit, hforbids]
          cases r.policy.allowsImport entry path with
          | true => simp
          | false => simp [eq_comm]

/-- What a rule reports of a throw. -/
theorem visitThrow_eq_some_iff {r : Rule} {file : SourceFile} {location : Location} {f : Finding} :
    r.visitThrow file location = some f ↔
      r.appliesTo file.path = true ∧ r.Forbids file.package (.thrown location) ∧
        f = r.complaint file (.thrown location) := by
  cases hcheck : r.check with
  | forbiddenImport => simp [visitThrow, Forbids, hcheck]
  | noThrow =>
    cases happlies : r.appliesTo file.path with
    | false => simp [visitThrow, hcheck, happlies]
    | true =>
      cases hentry : r.policy.lookup (Layer.ofPackage r.policy.base file.package) with
      | none => simp [visitThrow, Forbids, Policy.layerOf, hcheck, happlies, hentry]
      | some entry =>
        have hvisit : r.visitThrow file location =
            if entry.throwAllowed then none else some (r.complaint file (.thrown location)) := by
          simp only [visitThrow, Policy.layerOf, hcheck, happlies, hentry]
          rfl
        have hforbids : r.Forbids file.package (.thrown location) ↔ entry.throwAllowed = false := by
          simp [Forbids, hcheck, hentry]
        rw [hvisit, hforbids]
        cases entry.throwAllowed with
        | true => simp
        | false => simp [eq_comm]

/-- A rule reports an event iff it looks at the source and the event is forbidden there. -/
theorem visit_eq_some_iff {r : Rule} {file : SourceFile} {e : Event} {f : Finding} :
    r.visit file e = some f ↔
      r.appliesTo file.path = true ∧ r.Forbids file.package e ∧ f = r.complaint file e := by
  cases e with
  | imported path location => exact visitImport_eq_some_iff
  | thrown location => exact visitThrow_eq_some_iff

theorem visit_isSome_iff {r : Rule} {file : SourceFile} {e : Event} :
    r.settings.active = true ∧ (r.visit file e).isSome = true ↔ r.Violated file e := by
  rw [Option.isSome_iff_exists, Violated, covers_iff]
  constructor
  · rintro ⟨hactive, f, hf⟩
    obtain ⟨happlies, hforbids, -⟩ := visit_eq_some_iff.1 hf
    exact ⟨⟨hactive, happlies⟩, hforbids⟩
  · rintro ⟨⟨hactive, happlies⟩, hforbids⟩
    exact ⟨hactive, _, visit_eq_some_iff.2 ⟨happlies, hforbids, rfl⟩⟩

instance (r : Rule) (file : SourceFile) (e : Event) : Decidable (r.Violated file e) :=
  decidable_of_iff _ visit_isSome_iff

/-- A rule that is on reports exactly the violations. -/
theorem visit_eq_ite {r : Rule} (hactive : r.settings.active = true) (file : SourceFile) (e : Event) :
    r.visit file e = if r.Violated file e then some (r.complaint file e) else none := by
  by_cases h : r.Violated file e
  · rw [if_pos h]
    exact visit_eq_some_iff.2 ⟨(covers_iff.1 h.1).2, h.2, rfl⟩
  · rw [if_neg h, Option.eq_none_iff_forall_ne_some]
    intro f hf
    exact h (visit_isSome_iff.1 ⟨hactive, by rw [hf]; rfl⟩)

end Rule

/-! ## What an analysis reports -/

namespace SourceTree

/-- What there is to read in the tree of a source. -/
def readings : SourceTree → List (Except Text.Utf8.Fault Event)
  | .parsed root => root.readings
  | .recorded events => events.map .ok

/-- Every import in the tree of a source has a path that is UTF-8, if it has one. Recorded events have been
read before. -/
def Readable : SourceTree → Prop
  | .parsed root => ∀ n ∈ root.visits, n.isImport → n.HasReadablePath
  | .recorded _ => True

/-- A readable tree delivers all that there is to read. -/
theorem delivery_of_readable {t : SourceTree} (h : t.Readable) :
    ∃ events, t.readings = events.map .ok ∧ t.delivery = ⟨events, none⟩ := by
  cases t with
  | parsed root => exact Syntax.walk_eq_of_readable h
  | recorded events => exact ⟨events, rfl, rfl⟩

end SourceTree

namespace Analysis

/-- Handing events only to the rules that look at their kind loses nothing. -/
theorem findingsAt_eq_filterMap_visit (file : SourceFile) (rules : List Rule) (e : Event) :
    findingsAt file rules e = rules.filterMap fun r => r.visit file e := by
  cases e with
  | imported path location =>
    simp only [findingsAt, List.filterMap_filter]
    congr 1
    funext r
    cases hcheck : r.check with
    | forbiddenImport => rfl
    | noThrow => simp [Check.looksAtImports, Rule.visit, Rule.visitImport, hcheck]
  | thrown location =>
    simp only [findingsAt, List.filterMap_filter]
    congr 1
    funext r
    cases hcheck : r.check with
    | forbiddenImport => simp [Check.looksAtThrows, Rule.visit, Rule.visitThrow, hcheck]
    | noThrow => rfl

/-- The rules that are on report the violations of an event, in their order. -/
theorem findingsAt_activeRules (file : SourceFile) (rules : List Rule) (e : Event) :
    findingsAt file (activeRules rules) e =
      (rules.filter fun r => r.Violated file e).map fun r => r.complaint file e := by
  rw [findingsAt_eq_filterMap_visit]
  induction rules with
  | nil => rfl
  | cons r rules ih =>
    by_cases hactive : r.settings.active = true
    · have hcons : activeRules (r :: rules) = r :: activeRules rules := List.filter_cons_of_pos hactive
      rw [hcons, List.filterMap_cons, Rule.visit_eq_ite hactive, ih]
      by_cases h : r.Violated file e
      · simp [h]
      · simp [h]
    · have hcons : activeRules (r :: rules) = activeRules rules := List.filter_cons_of_neg hactive
      have h : ¬ r.Violated file e := fun h => hactive h.1.active
      rw [hcons, ih]
      simp [h]

/-- What is reported while a source is analysed is reported event by event. If no rule is on, that is nothing. -/
theorem report_items_eq_flatMap (file : SourceFile) (rules : List Rule) :
    (report file rules).items = file.tree.delivery.items.flatMap (findingsAt file (activeRules rules)) := by
  unfold report
  by_cases hactive : (activeRules rules).isEmpty = true
  · have hnone : ∀ e, findingsAt file (activeRules rules) e = [] := by
      intro e
      rw [findingsAt_eq_filterMap_visit, List.isEmpty_iff.1 hactive]
      rfl
    rw [if_pos hactive]
    simp [hnone]
  · rw [if_neg hactive]

/-- What is reported are the violations of the events that are delivered. -/
theorem report_items (file : SourceFile) (rules : List Rule) :
    (report file rules).items = file.tree.delivery.items.flatMap fun e =>
      (rules.filter fun r => r.Violated file e).map fun r => r.complaint file e := by
  rw [report_items_eq_flatMap]
  congr 1
  funext e
  exact findingsAt_activeRules file rules e

/-- An analysis ends early iff some rule is on and the tree cannot be read to its end. -/
theorem report_fault (file : SourceFile) (rules : List Rule) :
    (report file rules).fault =
      if (activeRules rules).isEmpty = true then none else file.tree.delivery.fault := by
  simp only [report]
  split <;> rfl

/-- The analysis of a readable source gives, event by event and for each event rule by rule, one finding for
every rule that the event violates, and nothing else. -/
theorem analyse_reports_exactly_violations (file : SourceFile) (rules : List Rule)
    (h : file.tree.Readable) :
    ∃ events : List Event, file.tree.readings = events.map .ok ∧
      analyse file rules = .ok (events.flatMap fun e =>
        (rules.filter fun r => r.Violated file e).map fun r => r.complaint file e) := by
  obtain ⟨events, hreadings, hdelivery⟩ := SourceTree.delivery_of_readable h
  refine ⟨events, hreadings, ?_⟩
  have hitems := report_items file rules
  have hfault : (report file rules).fault = none := by
    rw [report_fault, hdelivery]
    split <;> rfl
  rw [analyse, Delivery.complete, hfault, hitems, hdelivery]

/-- A source of the domain with an import and a throw is readable, and so its two violations are found. -/
theorem violations_of_import_and_throw :
    let path : Syntax.Node := .mk "identifier" true "org.x".toUTF8 ⟨⟨1, 7⟩, ⟨1, 12⟩⟩ []
    let importNode : Syntax.Node := .mk "import" true ByteArray.empty ⟨⟨1, 0⟩, ⟨1, 12⟩⟩ [path]
    let keyword : Syntax.Node := .mk "throw" false ByteArray.empty ⟨⟨2, 0⟩, ⟨2, 5⟩⟩ []
    let throwNode : Syntax.Node := .mk "jump_expression" true ByteArray.empty ⟨⟨2, 0⟩, ⟨2, 9⟩⟩ [keyword]
    let root : Syntax.Node := .mk "source_file" true ByteArray.empty ⟨⟨0, 0⟩, ⟨3, 0⟩⟩ [importNode, throwNode]
    let file : SourceFile := ⟨"/repo/src/main/A.kt", "a.domain", .parsed root⟩
    let rules : List Rule := [⟨.noThrow, {}, Policy.standard "a", "/test/"⟩,
      ⟨.forbiddenImport, {}, Policy.standard "a", "/test/"⟩]
    file.tree.Readable ∧ ∃ events : List Event, file.tree.readings = events.map .ok ∧
      analyse file rules = .ok (events.flatMap fun e =>
        (rules.filter fun r => r.Violated file e).map fun r => r.complaint file e) := by
  intro path importNode keyword throwNode root file rules
  have hreadable : file.tree.Readable := by
    have hvisits : root.visits = [root, importNode, throwNode, keyword] := rfl
    have himport : importNode.HasReadablePath := by
      intro c hc
      have hpath : importNode.pathChild? = some path := rfl
      rw [hpath] at hc
      cases hc
      exact "org.x".isValidUTF8
    intro n hn hisImport
    rw [hvisits] at hn
    simp only [List.mem_cons, List.not_mem_nil, or_false] at hn
    rcases hn with rfl | rfl | rfl | rfl
    · exact absurd hisImport (by decide)
    · exact himport
    · exact absurd hisImport (by decide)
    · exact absurd hisImport (by decide)
  exact ⟨hreadable, analyse_reports_exactly_violations file rules hreadable⟩

end Analysis

end Strata
