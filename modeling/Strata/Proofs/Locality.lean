import Strata.Proofs.DottedNames
import Strata.Proofs.Legible
import Strata.Proofs.Schedule

/-!
# Sources do not influence each other

What a run says about a source is what the analysis of that source alone says: the findings with its path are its
block, whatever blocks stand around it, and it has a failure iff its analysis fails (`filter_findings`,
`filter_failures`). The analysis reads nothing but the content of the source. So two runs with the same settings say
the same about a source that has the same content in both, whichever other sources they have and whichever of their
workers are done first, and a run can be split into runs over parts of its sources.
-/

namespace Strata

namespace Run

/-- `r` can come out of a run over the arguments: in some order the workers are done with all sources. -/
def ComesOut [Parser] (fs : FileSystem) (arguments : List Path) (s : Settings) (r : RunResult) : Prop :=
  ∃ k pool, Pool.Runs (work fs (rulesOf s)) (Sources.collect fs arguments s.excludes) k pool ∧ pool.tasks = [] ∧
    r = pool.result (Sources.collect fs arguments s.excludes) (rulesOf s) r.elapsed

section

variable [Parser] {fs : FileSystem} {arguments : List Path} {s : Settings} {r : RunResult}

/-- Whatever the workers do, the result is that of analysing one source after the other. -/
theorem ComesOut.eq_lint (h : ComesOut fs arguments s r) : r = lint fs arguments s r.elapsed := by
  obtain ⟨k, pool, hruns, hdone, hr⟩ := h
  exact hr.trans (hruns.result_eq hdone (rulesOf s) r.elapsed)

/-- Analysing one source after the other is something that the workers can do. -/
theorem comesOut_lint (fs : FileSystem) (arguments : List Path) (s : Settings) (elapsed : Elapsed) :
    ComesOut fs arguments s (lint fs arguments s elapsed) := by
  have hgathers := Pool.alwaysGathers (work fs (rulesOf s)) (Sources.collect fs arguments s.excludes) (rulesOf s)
    elapsed
  obtain ⟨pool, hruns⟩ := hgathers.ends
  have hdone : pool.tasks = [] := (hgathers.done hruns).2 rfl
  exact ⟨_, pool, hruns, hdone, (hgathers.result_eq hruns hdone).symm⟩

/-! ## What a run says about one source -/

theorem sourceOf_toUTF8 (path t : String) :
    sourceOf path t.toUTF8 = (SourceFile.ofTree path (Parser.tree (Text.unifyNewlines t))).mapError .encoding := by
  rw [sourceOf, Text.Utf8.decode_toUTF8]

/-- A source that was read is analysed to its end, and what rules are on does not matter for that. -/
theorem outcome_eq (fs : FileSystem) (rules : List Rule) (p : Path) :
    outcome fs rules p =
      match readSource fs p with
      | .error e => .error e.message
      | .ok file => .ok (Analysis.report file rules).items := by
  rw [outcome, work, report]
  cases hfile : readSource fs p with
  | error e => rfl
  | ok file =>
    obtain ⟨package, text, rfl⟩ := eq_of_readSource hfile
    have htree : (Syntax.walk (Parser.tree text)).fault = none := (Parser.legible text).walk_fault
    refine Delivery.complete_eq_ok_iff.2 ⟨?_, rfl⟩
    simp only [Delivery.mapFault, Analysis.report_fault, SourceTree.delivery, htree, ite_self, Option.map_none]

theorem path_of_mem_findings {rules : List Rule} {p : Path} {f : Finding}
    (h : f ∈ (outcome fs rules p).findings) : f.path = p.text := by
  rw [outcome, findings_complete] at h
  split at h
  · exact path_of_mem_work h
  · cases h

omit [Parser] in
theorem path_of_failure? {p : Path} {o : Outcome} {e : Failure} (h : o.failure? p = some e) : e.path = p.text := by
  cases o with
  | ok findings => cases h
  | error message =>
    cases h
    rfl

/-- The findings at a path are the blocks of the sources with that path. -/
theorem filter_findings_eq_flatMap (fs : FileSystem) (arguments : List Path) (s : Settings) (elapsed : Elapsed)
    (path : String) :
    (lint fs arguments s elapsed).findings.filter (fun f => f.path = path) =
      ((Sources.collect fs arguments s.excludes).filter fun p => p.text = path).flatMap fun p =>
        (outcome fs (rulesOf s) p).findings := by
  have hown : ∀ p ∈ Sources.collect fs arguments s.excludes, ∀ f ∈ (outcome fs (rulesOf s) p).findings,
      f.path = p.text :=
    fun p _ f hf => path_of_mem_findings hf
  rw [← StableSort.filter_flatMap hown]
  exact StableSort.filter_mergeSort lexLE_path_iff _ path

/-- The findings at the path of a source are its own. -/
theorem filter_findings (elapsed : Elapsed) {p : Path} (hp : p ∈ Sources.collect fs arguments s.excludes) :
    (lint fs arguments s elapsed).findings.filter (fun f => f.path = p.text) =
      (outcome fs (rulesOf s) p).findings := by
  rw [filter_findings_eq_flatMap, Sources.filter_text_collect _ _ _ hp, List.flatMap_singleton]

/-- The failure at the path of a source, if there is one, is its own. -/
theorem filter_failures (elapsed : Elapsed) {p : Path} (hp : p ∈ Sources.collect fs arguments s.excludes) :
    (lint fs arguments s elapsed).failures.filter (fun e => e.path = p.text) =
      ((outcome fs (rulesOf s) p).failure? p).toList := by
  have hblocks : (lint fs arguments s elapsed).failures =
      (Sources.collect fs arguments s.excludes).flatMap fun q =>
        ((outcome fs (rulesOf s) q).failure? q).toList :=
    List.filterMap_eq_flatMap_toList ..
  have hown : ∀ q ∈ Sources.collect fs arguments s.excludes,
      ∀ e ∈ ((outcome fs (rulesOf s) q).failure? q).toList, e.path = q.text :=
    fun q _ e he => path_of_failure? (Option.mem_toList.1 he)
  rw [hblocks, StableSort.filter_flatMap hown, Sources.filter_text_collect _ _ _ hp, List.flatMap_singleton]

end

/-- Of the file system the analysis of a source sees nothing but the content of the source. -/
theorem outcome_congr [Parser] {fs₁ fs₂ : FileSystem} {p : Path} (h : fs₁.read p = fs₂.read p) (rules : List Rule) :
    outcome fs₁ rules p = outcome fs₂ rules p := by
  simp only [outcome, work, report, readSource, h]

/-! ## Runs over parts of the sources -/

/-- A run over arguments with disjoint sources finds what runs over the parts find. -/
theorem findings_append [Parser] {fs : FileSystem} {arguments more : List Path} {s : Settings}
    (hdisjoint : ∀ p ∈ Sources.collect fs arguments s.excludes, p ∉ Sources.collect fs more s.excludes)
    (elapsed elapsed₁ elapsed₂ : Elapsed) :
    (lint fs (arguments ++ more) s elapsed).findings =
      sortByPath ((lint fs arguments s elapsed₁).findings ++ (lint fs more s elapsed₂).findings) := by
  refine StableSort.eq_of_filter_eq (StableSort.pairwise_mergeSort lexLE_path_iff _)
    (StableSort.pairwise_mergeSort lexLE_path_iff _) fun path => ?_
  have hparts := StableSort.filter_mergeSort lexLE_path_iff
    ((lint fs arguments s elapsed₁).findings ++ (lint fs more s elapsed₂).findings) path
  rw [List.filter_append, filter_findings_eq_flatMap, filter_findings_eq_flatMap, ← List.flatMap_append,
    ← List.filter_append, ← Sources.filter_text_collect_append hdisjoint, ← filter_findings_eq_flatMap] at hparts
  exact hparts.symm

/-- Files do not influence each other. Two runs with the same settings say the same about a source that both have and
that has the same content in both: they find the same in it, in the same order, and it fails in both, with the same
message, or in neither. A run over arguments with disjoint sources has the findings of the runs over the parts,
sorted by their paths, and scans as many files as they do. -/
theorem sources_do_not_interfere [Parser] (s : Settings) :
    (∀ {fs₁ fs₂ : FileSystem} {arguments₁ arguments₂ : List Path} {r₁ r₂ : RunResult} {p : Path},
      ComesOut fs₁ arguments₁ s r₁ → ComesOut fs₂ arguments₂ s r₂ →
      p ∈ Sources.collect fs₁ arguments₁ s.excludes → p ∈ Sources.collect fs₂ arguments₂ s.excludes →
      fs₁.read p = fs₂.read p →
      r₁.findings.filter (fun f => f.path = p.text) = r₂.findings.filter (fun f => f.path = p.text) ∧
        r₁.failures.filter (fun e => e.path = p.text) = r₂.failures.filter (fun e => e.path = p.text)) ∧
    (∀ {fs : FileSystem} {arguments more : List Path} {r r₁ r₂ : RunResult},
      ComesOut fs (arguments ++ more) s r → ComesOut fs arguments s r₁ → ComesOut fs more s r₂ →
      (∀ p ∈ Sources.collect fs arguments s.excludes, p ∉ Sources.collect fs more s.excludes) →
      r.findings = sortByPath (r₁.findings ++ r₂.findings) ∧
        r.filesScanned = r₁.filesScanned + r₂.filesScanned) := by
  constructor
  · intro fs₁ fs₂ arguments₁ arguments₂ r₁ r₂ p h₁ h₂ hp₁ hp₂ hread
    rw [h₁.eq_lint, h₂.eq_lint, filter_findings _ hp₁, filter_findings _ hp₂, filter_failures _ hp₁,
      filter_failures _ hp₂, outcome_congr hread]
    exact ⟨rfl, rfl⟩
  · intro fs arguments more r r₁ r₂ h h₁ h₂ hdisjoint
    rw [h.eq_lint, h₁.eq_lint, h₂.eq_lint]
    refine ⟨findings_append hdisjoint _ _ _, ?_⟩
    have hlength := (Sources.collect_append_perm hdisjoint).length_eq
    rw [List.length_append] at hlength
    simp only [lint, gather, hlength]
    push_cast
    rfl

end Run

/-! ### Sources of the domain layer -/

open Syntax (Node Event)

namespace DomainSource

/-- A source that imports what its layer may not. -/
def text : String :=
  "package a.domain\nimport b"

/-- The header of a package. -/
def headerOf (package : String) : Node :=
  .mk "package_header" true ByteArray.empty ⟨⟨0, 0⟩, ⟨0, 8 + package.length⟩⟩
    [.mk "qualified_identifier" true package.toUTF8 ⟨⟨0, 8⟩, ⟨0, 8 + package.length⟩⟩ []]

/-- The import on that line, counted from zero. -/
def importedAt (row : Nat) : Node :=
  .mk "import" true ByteArray.empty ⟨⟨row, 0⟩, ⟨row, 8⟩⟩
    [.mk "qualified_identifier" true "b".toUTF8 ⟨⟨row, 7⟩, ⟨row, 8⟩⟩ []]

/-- The tree of such a source in a package. -/
def treeOf (package : String) : Node :=
  .mk "source_file" true ByteArray.empty ⟨⟨0, 0⟩, ⟨1, 8⟩⟩ [headerOf package, importedAt 1]

def tree : Node :=
  treeOf "a.domain"

def event : Event :=
  .imported (some "b") ⟨2, 1, some 2, some 9⟩

/-- The source at a path. -/
def file (path : String) : SourceFile :=
  ⟨path, "a.domain", .parsed tree⟩

def settings : Settings :=
  { projectBase := "a" }

def rule : Rule :=
  ⟨.forbiddenImport, {}, Policy.standard "a", defaultTestMarker⟩

/-- A tree with the header of a package is that of a source in the package. -/
theorem ofTree_of_header {package : String} (hne : package ≠ "") (hblank : Text.deleteBlanks package = package)
    {root : Node} (h : root.children.find? (fun c => c.kind = "package_header") = some (headerOf package))
    (path : String) : SourceFile.ofTree path root = .ok ⟨path, package, .parsed root⟩ := by
  have hpath : (headerOf package).dottedPath = .ok (some package) :=
    Node.dottedPath_eq_some_iff.mpr ⟨hne, _, package, rfl, Text.Utf8.decode_toUTF8 _, hblank.symm⟩
  have hpackage : root.packageName = .ok package := by
    rw [Node.packageName, h]
    simp only [hpath]
    rfl
  rw [SourceFile.ofTree, hpackage]
  rfl

theorem ofTree_eq (path : String) : SourceFile.ofTree path tree = .ok (file path) :=
  ofTree_of_header (by decide) (by decide) rfl path

theorem sourceOf_text (path : String) : Run.sourceOf path text.toUTF8 = .ok (file path) := by
  have htree : Parser.tree (Text.unifyNewlines text) = tree := rfl
  rw [Run.sourceOf_toUTF8, htree, ofTree_eq]
  rfl

theorem importEvent_eq (row : Nat) :
    (importedAt row).importEvent = .ok (.imported (some "b") ⟨row + 1, 1, some (row + 1), some 9⟩) := by
  have hpath : (importedAt row).dottedPath = .ok (some "b") :=
    Node.dottedPath_eq_some_iff.mpr ⟨by decide, _, "b", rfl, Text.Utf8.decode_toUTF8 "b", by decide⟩
  rw [Node.importEvent, hpath]
  rfl

theorem walk_items (package : String) : (Syntax.walk (treeOf package)).items = [event] := by
  have hreadings : (treeOf package).readings = [(importedAt 1).importEvent] := rfl
  rw [Syntax.walk_eq_toldOf, hreadings, importEvent_eq]
  rfl

theorem complaint_mem {path : String} {rules : List Rule} (hrule : rule ∈ rules)
    (h : rule.Violated (file path) event) :
    rule.complaint (file path) event ∈ (Analysis.report (file path) rules).items := by
  have hevent : event ∈ (file path).tree.delivery.items := by
    rw [file, tree, SourceTree.delivery, walk_items]
    exact List.mem_cons_self
  rw [Analysis.report_items, List.mem_flatMap]
  refine ⟨event, hevent, List.mem_map_of_mem ?_⟩
  rw [List.mem_filter, decide_eq_true_iff]
  exact ⟨hrule, h⟩

end DomainSource

namespace ThrowingSource

/-- A source that imports what its layer may not, and throws. -/
def text : String :=
  "package a.domain\n\nimport b\nthrow x\n"

def thrown : Node :=
  .mk "throw_expression" true ByteArray.empty ⟨⟨3, 0⟩, ⟨3, 7⟩⟩ []

def tree : Node :=
  .mk "source_file" true ByteArray.empty ⟨⟨0, 0⟩, ⟨4, 0⟩⟩
    [DomainSource.headerOf "a.domain", DomainSource.importedAt 2, thrown]

def events : List Event :=
  [.imported (some "b") ⟨3, 1, some 3, some 9⟩, .thrown ⟨4, 1, some 4, some 8⟩]

/-- The source at a path. -/
def file (path : String) : SourceFile :=
  ⟨path, "a.domain", .parsed tree⟩

/-- What is found in the source at a path: the import. -/
def importFinding (path : String) : Finding :=
  ⟨"ForbiddenLayerImport", path, ⟨3, 1, some 3, some 9⟩, "Import 'b' is not allowed in domain layer.", .error⟩

/-- What is found in the source at a path: the throw. -/
def throwFinding (path : String) : Finding :=
  ⟨"NoThrowOutsidePresentation", path, ⟨4, 1, some 4, some 8⟩,
    "throw detected in package 'a.domain'. Use a typed result (Either<XxxError, T>) instead of throwing.", .error⟩

theorem tree_eq : Parser.tree (Text.unifyNewlines text) = tree :=
  rfl

theorem walk_items : (Syntax.walk tree).items = events := by
  have hreadings : tree.readings =
      [(DomainSource.importedAt 2).importEvent, .ok (.thrown ⟨4, 1, some 4, some 8⟩)] := rfl
  rw [Syntax.walk_eq_toldOf, hreadings, DomainSource.importEvent_eq]
  rfl

theorem sourceOf_text [Parser] (htree : Parser.tree (Text.unifyNewlines text) = tree) (path : String) :
    Run.sourceOf path text.toUTF8 = .ok (file path) := by
  have hfile : SourceFile.ofTree path tree = .ok (file path) :=
    DomainSource.ofTree_of_header (by decide) (by decide) rfl path
  rw [Run.sourceOf_toUTF8, htree, hfile]
  rfl

/-- Where the source stands, what comes out of its analysis is what the rules say about its two events. -/
theorem outcome_eq [Parser] (htree : Parser.tree (Text.unifyNewlines text) = tree) {fs : FileSystem} {p : Path}
    (hread : fs.read p = .ok text.toUTF8) (rules : List Rule) :
    Run.outcome fs rules p = .ok (events.flatMap fun e =>
      (rules.filter fun r => r.Violated (file p.text) e).map fun r => r.complaint (file p.text) e) := by
  rw [Run.outcome_eq, Run.readSource, hread]
  simp only [sourceOf_text htree]
  rw [Analysis.report_items, ← walk_items]
  rfl

end ThrowingSource

namespace Run

/-! ### A source in two projects -/

namespace TwoProjects

/-- A source that both projects have. -/
def shared : Path :=
  ⟨"/", ["w", "a", "c.kt"]⟩

/-- A project with that source alone. -/
def small (content : ByteArray) : FileSystem :=
  (FileSystem.empty ⟨"/", ["w"]⟩).add ⟨"", ["a", "c.kt"]⟩ (.file content)

/-- A project in which there is also a source that is not UTF-8. -/
def large (content : ByteArray) : FileSystem :=
  (small content).add ⟨"", ["b", "d.kt"]⟩ (.file ⟨#[255]⟩)

/-- The source of the large project that is not UTF-8. -/
def unreadable : Path :=
  ⟨"/", ["w", "b", "d.kt"]⟩

variable (content : ByteArray)

theorem found_small : Sources.found (small content) ⟨"", []⟩ = [shared] := by
  have hresolve : (small content).resolve ⟨"", []⟩ = .ok ⟨"/", ["w"]⟩ := by cbv
  have hentry : FileSystem.entry? (small content) ["w"] =
      some (.directory "w" [.directory "a" [.file "c.kt" content]]) := by cbv
  have hways : Entry.waysTo [.directory "a" [.file "c.kt" content]] = [["a"], ["a", "c.kt"]] := rfl
  have hnames : [["a"], ["a", "c.kt"]].filter (fun way => Sources.isSourceName (way.getLast?.getD "")) =
      [["a", "c.kt"]] := by decide
  rw [Sources.found_of_directory hresolve hentry, Sources.ofDirectory, hways, hnames]
  cbv

theorem found_large : Sources.found (large content) ⟨"", []⟩ = [shared, unreadable] := by
  have hresolve : (large content).resolve ⟨"", []⟩ = .ok ⟨"/", ["w"]⟩ := by cbv
  have hentry : FileSystem.entry? (large content) ["w"] = some (.directory "w"
      [.directory "a" [.file "c.kt" content], .directory "b" [.file "d.kt" ⟨#[255]⟩]]) := by cbv
  have hways : Entry.waysTo [.directory "a" [.file "c.kt" content], .directory "b" [.file "d.kt" ⟨#[255]⟩]] =
      [["a"], ["a", "c.kt"], ["b"], ["b", "d.kt"]] := rfl
  have hnames : [["a"], ["a", "c.kt"], ["b"], ["b", "d.kt"]].filter
      (fun way => Sources.isSourceName (way.getLast?.getD "")) = [["a", "c.kt"], ["b", "d.kt"]] := by decide
  rw [Sources.found_of_directory hresolve hentry, Sources.ofDirectory, hways, hnames]
  cbv

theorem found_large_a : Sources.found (large content) ⟨"", ["a"]⟩ = [shared] := by
  have hresolve : (large content).resolve ⟨"", ["a"]⟩ = .ok ⟨"/", ["w", "a"]⟩ := by cbv
  have hentry : FileSystem.entry? (large content) ["w", "a"] = some (.directory "a" [.file "c.kt" content]) := by cbv
  have hways : Entry.waysTo [.file "c.kt" content] = [["c.kt"]] := rfl
  have hnames : [["c.kt"]].filter (fun way => Sources.isSourceName (way.getLast?.getD "")) = [["c.kt"]] := by decide
  rw [Sources.found_of_directory hresolve hentry, Sources.ofDirectory, hways, hnames]
  cbv

theorem found_large_b : Sources.found (large content) ⟨"", ["b"]⟩ = [unreadable] := by
  have hresolve : (large content).resolve ⟨"", ["b"]⟩ = .ok ⟨"/", ["w", "b"]⟩ := by cbv
  have hentry : FileSystem.entry? (large content) ["w", "b"] = some (.directory "b" [.file "d.kt" ⟨#[255]⟩]) := by cbv
  have hways : Entry.waysTo [.file "d.kt" ⟨#[255]⟩] = [["d.kt"]] := rfl
  have hnames : [["d.kt"]].filter (fun way => Sources.isSourceName (way.getLast?.getD "")) = [["d.kt"]] := by decide
  rw [Sources.found_of_directory hresolve hentry, Sources.ofDirectory, hways, hnames]
  cbv

theorem sources_small : Sources.collect (small content) [⟨"", []⟩] [] = [shared] :=
  Sources.collect_of_found (found_small content)

theorem sources_large_a : Sources.collect (large content) [⟨"", ["a"]⟩] [] = [shared] :=
  Sources.collect_of_found (found_large_a content)

theorem sources_large_b : Sources.collect (large content) [⟨"", ["b"]⟩] [] = [unreadable] :=
  Sources.collect_of_found (found_large_b content)

theorem read_small : (small content).read shared = .ok content := by
  cbv

theorem read_eq : (large content).read shared = (small content).read shared := by
  cbv

theorem disjoint : ∀ p ∈ Sources.collect (large content) [⟨"", ["a"]⟩] [],
    p ∉ Sources.collect (large content) [⟨"", ["b"]⟩] [] := by
  rw [sources_large_a, sources_large_b]
  decide

/-- What is told about that source. -/
def failure : Failure :=
  ⟨"/w/b/d.kt", (SourceFault.encoding ⟨0, 255, 0, .invalidStart⟩).message⟩

theorem read_unreadable : (large content).read unreadable = .ok ⟨#[255]⟩ := by
  cbv

theorem outcome_unreadable [Parser] (rules : List Rule) :
    outcome (large content) rules unreadable = .error failure.message := by
  have hread : readSource (large content) unreadable = .error (.encoding ⟨0, 255, 0, .invalidStart⟩) := by
    rw [readSource, read_unreadable]
    rfl
  rw [outcome, work, report, hread]
  rfl

/-- What is found in the source that both projects have, if it is the one with an import and a throw. -/
theorem filter_findings_eq [Parser] (htree : Parser.tree (Text.unifyNewlines ThrowingSource.text) = ThrowingSource.tree)
    (c : Settings) (hc : c.excludes = []) :
    (lint (large ThrowingSource.text.toUTF8) [⟨"", []⟩] c (.whole 0)).findings.filter (fun f => f.path = "/w/a/c.kt") =
      ThrowingSource.events.flatMap fun e =>
        ((rulesOf c).filter fun r => r.Violated (ThrowingSource.file "/w/a/c.kt") e).map fun r =>
          r.complaint (ThrowingSource.file "/w/a/c.kt") e := by
  have hmem : shared ∈ Sources.collect (large ThrowingSource.text.toUTF8) [⟨"", []⟩] c.excludes := by
    refine Sources.mem_collect.mpr ⟨⟨_, List.mem_cons_self, ?_⟩, hc ▸ rfl⟩
    rw [found_large]
    exact List.mem_cons_self
  have hread := (read_eq ThrowingSource.text.toUTF8).trans (read_small _)
  have hfindings := filter_findings (.whole 0) hmem
  rw [ThrowingSource.outcome_eq htree hread] at hfindings
  exact hfindings

theorem findings_shared {fs : FileSystem} (hread : fs.read shared = .ok ThrowingSource.text.toUTF8) :
    (outcome fs (rulesOf DomainSource.settings) shared).findings =
      [ThrowingSource.importFinding "/w/a/c.kt", ThrowingSource.throwFinding "/w/a/c.kt"] := by
  rw [ThrowingSource.outcome_eq ThrowingSource.tree_eq hread]
  decide

end TwoProjects

/-- What is said about a source of two projects, and a run over one of them split into two. There are two findings in
the source. -/
theorem locality_of_two_projects :
    let large := TwoProjects.large ThrowingSource.text.toUTF8
    let small := TwoProjects.small ThrowingSource.text.toUTF8
    let s := DomainSource.settings
    let whole := lint large [⟨"", ["a"]⟩, ⟨"", ["b"]⟩] s (.whole 0)
    let a := lint large [⟨"", ["a"]⟩] s (.whole 0)
    let b := lint large [⟨"", ["b"]⟩] s (.whole 0)
    let alone := lint small [⟨"", []⟩] s (.whole 0)
    TwoProjects.shared ∈ Sources.collect large [⟨"", ["a"]⟩] s.excludes ∧
      TwoProjects.shared ∈ Sources.collect small [⟨"", []⟩] s.excludes ∧
      large.read TwoProjects.shared = small.read TwoProjects.shared ∧
      a.findings.filter (fun f => f.path = TwoProjects.shared.text) =
        alone.findings.filter (fun f => f.path = TwoProjects.shared.text) ∧
      a.findings.filter (fun f => f.path = TwoProjects.shared.text) =
        [ThrowingSource.importFinding "/w/a/c.kt", ThrowingSource.throwFinding "/w/a/c.kt"] ∧
      a.failures.filter (fun e => e.path = TwoProjects.shared.text) =
        alone.failures.filter (fun e => e.path = TwoProjects.shared.text) ∧
      whole.findings = sortByPath (a.findings ++ b.findings) ∧
      whole.filesScanned = a.filesScanned + b.filesScanned := by
  intro large small s whole a b alone
  have hlarge : TwoProjects.shared ∈ Sources.collect large [⟨"", ["a"]⟩] [] := by
    rw [TwoProjects.sources_large_a]
    exact List.mem_cons_self
  have hsmall : TwoProjects.shared ∈ Sources.collect small [⟨"", []⟩] [] := by
    rw [TwoProjects.sources_small]
    exact List.mem_cons_self
  have hread := TwoProjects.read_eq ThrowingSource.text.toUTF8
  have hsame := (sources_do_not_interfere s).1 (comesOut_lint large _ s (.whole 0)) (comesOut_lint small _ s (.whole 0))
    hlarge hsmall hread
  have hdisjoint : ∀ p ∈ Sources.collect large [⟨"", ["a"]⟩] s.excludes,
      p ∉ Sources.collect large [⟨"", ["b"]⟩] s.excludes := TwoProjects.disjoint _
  have hwhole : ComesOut large ([⟨"", ["a"]⟩] ++ [⟨"", ["b"]⟩]) s whole := comesOut_lint ..
  have hsplit := (sources_do_not_interfere s).2 hwhole (comesOut_lint large _ s (.whole 0))
    (comesOut_lint large _ s (.whole 0)) hdisjoint
  have hfound := TwoProjects.findings_shared (hread.trans (TwoProjects.read_small _))
  exact ⟨hlarge, hsmall, hread, hsame.1, (filter_findings _ hlarge).trans hfound, hsame.2, hsplit⟩

end Run

end Strata
