import Mathlib.Data.List.Forall2
import Strata.Proofs.DottedNames
import Strata.Proofs.Legible
import Strata.Proofs.Violations

/-!
# The layout of paths does not matter

A path may be broken over lines, and its blanks are deleted before a rule looks at it. Two trees that differ only in
the blanks of their texts are therefore read alike: each function of a node is shown to give the same for related
nodes, and the recursion over a tree carries this from the children to the node (`SameButLayout.readings_eq`). For a
path of its own it is said what it is: the pieces between the blanks of the first named path, joined, and never an
empty text.
-/

namespace Strata

namespace Text

/-- Both texts are UTF-8, and they are equal once their blanks are deleted. -/
def SameButBlanks (a b : ByteArray) : Prop :=
  ∃ s t : String, a = s.toUTF8 ∧ b = t.toUTF8 ∧ deleteBlanks s = deleteBlanks t

end Text

namespace Syntax

open Text (BlankFree SameButBlanks)

namespace Node

/-! ## Trees of the same shape -/

mutual

/-- The trees have nodes of the same kinds, flags and spans at the same places, and the texts of these nodes are UTF-8
and differ only in their blanks. -/
def SameButLayout : Node → Node → Prop
  | mk kind named text span children, mk kind' named' text' span' children' =>
    kind = kind' ∧ named = named' ∧ span = span' ∧ SameButBlanks text text' ∧ AllSameButLayout children children'

/-- The same for several trees, one by one. -/
def AllSameButLayout : List Node → List Node → Prop
  | [], [] => True
  | n :: rest, n' :: rest' => n.SameButLayout n' ∧ AllSameButLayout rest rest'
  | [], _ :: _ => False
  | _ :: _, [] => False

end

theorem allSameButLayout_iff {ns ns' : List Node} :
    AllSameButLayout ns ns' ↔ List.Forall₂ SameButLayout ns ns' := by
  induction ns generalizing ns' with
  | nil => cases ns' <;> simp [AllSameButLayout]
  | cons n rest ih => cases ns' <;> simp [AllSameButLayout, ih]

variable {n n' : Node}

theorem sameButLayout_iff :
    n.SameButLayout n' ↔ n.kind = n'.kind ∧ n.named = n'.named ∧ n.span = n'.span ∧
      SameButBlanks n.text n'.text ∧ List.Forall₂ SameButLayout n.children n'.children := by
  cases n
  cases n'
  rw [SameButLayout, allSameButLayout_iff]
  rfl

/-! ## Functions of a node -/

namespace SameButLayout

theorem kind_eq (h : n.SameButLayout n') : n.kind = n'.kind :=
  (sameButLayout_iff.mp h).1

theorem location_eq (h : n.SameButLayout n') : n.location = n'.location := by
  obtain ⟨-, -, hspan, -⟩ := sameButLayout_iff.mp h
  unfold location
  rw [hspan]

theorem isImport_eq (h : n.SameButLayout n') : n.isImport = n'.isImport := by
  unfold isImport
  rw [h.kind_eq]

theorem throwEvents_eq (h : n.SameButLayout n') : n.throwEvents = n'.throwEvents := by
  obtain ⟨hkind, -, -, -, hchildren⟩ := sameButLayout_iff.mp h
  have hhead : n.children.head?.map kind = n'.children.head?.map kind := by
    generalize n.children = cs, n'.children = cs' at hchildren
    cases hchildren with
    | nil => rfl
    | cons hfirst _ => simp [hfirst.kind_eq]
  have hthrow : n.isThrow = n'.isThrow := by
    unfold isThrow
    rw [hkind, hhead]
  unfold throwEvents
  rw [hthrow, h.location_eq]

end SameButLayout

/-- A search that does not look at texts finds the same node, or nothing in both. -/
theorem find?_rel {p : Node → Bool} (hp : ∀ {m m' : Node}, m.SameButLayout m' → p m = p m') {ns ns' : List Node}
    (h : List.Forall₂ SameButLayout ns ns') : Option.Rel SameButLayout (ns.find? p) (ns'.find? p) := by
  induction h with
  | nil => exact .none
  | @cons m m' rest rest' hm hrest ih =>
    rw [List.find?_cons, List.find?_cons, ← hp hm]
    cases p m with
    | true => exact .some hm
    | false => exact ih

namespace SameButLayout

theorem dottedPath_eq (h : n.SameButLayout n') : n.dottedPath = n'.dottedPath := by
  have hchild : Option.Rel SameButLayout n.pathChild? n'.pathChild? := by
    refine find?_rel ?_ (sameButLayout_iff.mp h).2.2.2.2
    intro m m' hm
    obtain ⟨hkind, hnamed, -⟩ := sameButLayout_iff.mp hm
    unfold isPath
    rw [hkind, hnamed]
  generalize hfound : n.pathChild? = found, hfound' : n'.pathChild? = found' at hchild
  cases hchild with
  | none => rw [dottedPath, dottedPath, hfound, hfound']
  | @some c c' hc =>
    obtain ⟨-, -, -, ⟨s, t, hs, ht, hblanks⟩, -⟩ := sameButLayout_iff.mp hc
    have hdecode : Text.Utf8.decode c.text = .ok s := Text.Utf8.decode_eq_ok_iff.mpr hs
    have hdecode' : Text.Utf8.decode c'.text = .ok t := Text.Utf8.decode_eq_ok_iff.mpr ht
    rw [dottedPath_of_decode hfound hdecode, dottedPath_of_decode hfound' hdecode', hblanks]

theorem packageName_eq (h : n.SameButLayout n') : n.packageName = n'.packageName := by
  have hheader : Option.Rel SameButLayout (n.children.find? fun c => c.kind = "package_header")
      (n'.children.find? fun c => c.kind = "package_header") := by
    refine find?_rel ?_ (sameButLayout_iff.mp h).2.2.2.2
    intro m m' hm
    rw [hm.kind_eq]
  unfold packageName
  generalize (n.children.find? fun c => c.kind = "package_header") = found,
    (n'.children.find? fun c => c.kind = "package_header") = found' at hheader
  cases hheader with
  | none => rfl
  | some hc => simp only [hc.dottedPath_eq]

end SameButLayout

/-! ## The recursion over a tree -/

mutual

/-- Trees that differ only in layout are read alike. -/
theorem SameButLayout.readings_eq : ∀ {n n' : Node}, n.SameButLayout n' → n.readings = n'.readings
  | mk kind named text span children, mk kind' named' text' span' children', h => by
    have ih : readingsOfAll children = readingsOfAll children' := AllSameButLayout.readings_eq h.2.2.2.2
    have hevent : importEvent (mk kind named text span children) =
        importEvent (mk kind' named' text' span' children') := by
      unfold importEvent
      rw [h.dottedPath_eq, h.location_eq]
    rw [Node.readings_eq, Node.readings_eq, h.isImport_eq, hevent, h.throwEvents_eq]
    split
    · rfl
    · exact congrArg (_ ++ ·) ih

/-- The same for several trees. -/
theorem AllSameButLayout.readings_eq : ∀ {ns ns' : List Node}, AllSameButLayout ns ns' →
    readingsOfAll ns = readingsOfAll ns'
  | [], [], _ => rfl
  | n :: rest, n' :: rest', h => by
    rw [readingsOfAll, readingsOfAll, SameButLayout.readings_eq h.1, AllSameButLayout.readings_eq h.2]

end

mutual

/-- Trees that differ only in layout have texts that are UTF-8. -/
theorem SameButLayout.legible : ∀ {n n' : Node}, n.SameButLayout n' → n.Legible ∧ n'.Legible
  | mk kind named text span children, mk kind' named' text' span' children', h => by
    obtain ⟨hchildren, hchildren'⟩ := AllSameButLayout.legible h.2.2.2.2
    obtain ⟨s, t, rfl, rfl, -⟩ := h.2.2.2.1
    exact ⟨⟨s.isValidUTF8, hchildren⟩, ⟨t.isValidUTF8, hchildren'⟩⟩

/-- The same for several trees. -/
theorem AllSameButLayout.legible : ∀ {ns ns' : List Node}, AllSameButLayout ns ns' → AllLegible ns ∧ AllLegible ns'
  | [], [], _ => ⟨trivial, trivial⟩
  | n :: rest, n' :: rest', h => by
    obtain ⟨hn, hn'⟩ := SameButLayout.legible h.1
    obtain ⟨hrest, hrest'⟩ := AllSameButLayout.legible h.2
    exact ⟨⟨hn, hrest⟩, ⟨hn', hrest'⟩⟩

end

theorem HasReadablePath.exists_dottedPath (h : n.HasReadablePath) : ∃ path, n.dottedPath = .ok path := by
  obtain ⟨e, he⟩ := n.exists_importEvent_ok_iff.mpr h
  unfold importEvent at he
  cases hpath : n.dottedPath with
  | error f =>
    rw [hpath] at he
    cases he
  | ok path => exact ⟨path, rfl⟩

theorem Legible.exists_packageName {root : Node} (h : root.Legible) : ∃ package, root.packageName = .ok package := by
  unfold packageName
  cases hheader : root.children.find? fun c => c.kind = "package_header" with
  | none => exact ⟨"", rfl⟩
  | some header =>
    have hlegible : header.Legible := (legible_iff.mp h).2 header (List.mem_of_find?_eq_some hheader)
    obtain ⟨path, hpath⟩ := hlegible.hasReadablePath.exists_dottedPath
    refine ⟨path.getD "", ?_⟩
    simp only [hpath]
    rfl

/-! ## What a path is -/

/-- The node is a path and not a mere mark. -/
def IsNamedPath (c : Node) : Prop :=
  c.named = true ∧ (c.kind = "qualified_identifier" ∨ c.kind = "identifier")

/-- `c` is the first named path among the children of `n`. -/
def FirstPath (n c : Node) : Prop :=
  c.IsNamedPath ∧ ∃ before after, n.children = before ++ c :: after ∧ ∀ m ∈ before, ¬ m.IsNamedPath

/-- The path of `n` is that of its first named path without the blanks. It is none if nothing is left, or if there is
no named path. -/
def HasPath (n : Node) (path : Option String) : Prop :=
  (path = none ∧ ∀ c, ¬ n.FirstPath c) ∨
    ∃ c s, n.FirstPath c ∧ c.text = s.toUTF8 ∧
      path = if Text.deleteBlanks s = "" then none else some (Text.deleteBlanks s)

theorem isNamedPath_iff {c : Node} : (c.named && c.isPath) = true ↔ c.IsNamedPath := by
  simp [isPath, IsNamedPath]

theorem pathChild?_eq_some_iff {c : Node} : n.pathChild? = some c ↔ n.FirstPath c := by
  have hbefore : ∀ {m : Node}, (!(m.named && m.isPath)) = true ↔ ¬ m.IsNamedPath := by
    intro m
    rw [← isNamedPath_iff, Bool.not_eq_true', Bool.not_eq_true]
  rw [pathChild?, List.find?_eq_some_iff_append, isNamedPath_iff]
  simp only [hbefore]
  rfl

theorem hasPath_of_dottedPath {path : Option String} (h : n.dottedPath = .ok path) : n.HasPath path := by
  cases hchild : n.pathChild? with
  | none =>
    rw [dottedPath, hchild] at h
    cases h
    left
    refine ⟨rfl, ?_⟩
    intro c hc
    rw [← pathChild?_eq_some_iff, hchild] at hc
    cases hc
  | some c =>
    cases hdecode : Text.Utf8.decode c.text with
    | error f =>
      simp only [dottedPath, hchild, hdecode] at h
      cases h
    | ok s =>
      rw [dottedPath_of_decode hchild hdecode] at h
      cases h
      right
      exact ⟨c, s, pathChild?_eq_some_iff.mp hchild, Text.Utf8.decode_eq_ok_iff.mp hdecode, rfl⟩

theorem SameButLayout.walk_eq (h : n.SameButLayout n') : walk n = walk n' := by
  rw [walk_eq_toldOf, walk_eq_toldOf, h.readings_eq]

end Node

end Syntax

/-! ## Analysis -/

/-- An analysis sees nothing of a tree but what it delivers. -/
theorem Analysis.analyse_congr {t t' : SourceTree} (h : t.delivery = t'.delivery) (path package : String)
    (rules : List Rule) : analyse ⟨path, package, t⟩ rules = analyse ⟨path, package, t'⟩ rules := by
  have hfindings : findingsAt ⟨path, package, t⟩ (activeRules rules) =
      findingsAt ⟨path, package, t'⟩ (activeRules rules) := by
    funext e
    cases e <;> rfl
  simp only [analyse, report, hfindings, h]

namespace Syntax

open Text (BlankFree)

/-- The layout of paths does not matter. Two trees of the same shape whose texts are UTF-8 and differ only in their
blanks have the same package and the same events, and whatever the path of the source and the rules are, the same is
found in it. In any tree, the package and the paths of imports hold no blank. The path of an import is never empty: it
is the text of the first named path below the import with its blanks deleted, or none if that leaves nothing or if
there is no such path. Deleting the blanks of a text is joining the pieces between them. -/
theorem layout_does_not_matter :
    (∀ root root' : Node, root.SameButLayout root' → ∃ package events,
      root.packageName = .ok package ∧ root'.packageName = .ok package ∧
      deliver root = .ok events ∧ deliver root' = .ok events ∧
      ∀ (path : String) (rules : List Rule), ∃ file file' findings,
        SourceFile.ofTree path root = .ok file ∧ SourceFile.ofTree path root' = .ok file' ∧
        Analysis.analyse file rules = .ok findings ∧ Analysis.analyse file' rules = .ok findings) ∧
    (∀ (root : Node) (package : String), root.packageName = .ok package → BlankFree package) ∧
    (∀ (root : Node) (path : Option String) (location : Location), .imported path location ∈ (walk root).items →
      (∀ p, path = some p → BlankFree p ∧ p ≠ "") ∧
      ∃ n ∈ root.visits, n.isImport = true ∧ n.location = location ∧ n.HasPath path) ∧
    ∀ s : String, Text.deleteBlanks s = String.join (Text.pieces s) := by
  refine ⟨?_, fun root package h => Node.blankFree_of_packageName h, ?_, fun s => (Text.join_pieces s).symm⟩
  · intro root root' h
    obtain ⟨hlegible, -⟩ := h.legible
    obtain ⟨package, hpackage⟩ := hlegible.exists_packageName
    have hpackage' : root'.packageName = .ok package := h.packageName_eq ▸ hpackage
    have hevents : deliver root = .ok (walk root).items :=
      Delivery.complete_eq_ok_iff.mpr ⟨hlegible.walk_fault, rfl⟩
    have hevents' : deliver root' = .ok (walk root).items := by
      rw [← hevents, deliver, deliver, h.walk_eq]
    refine ⟨package, (walk root).items, hpackage, hpackage', hevents, hevents', ?_⟩
    intro path rules
    have hdelivery : (SourceTree.parsed root).delivery = (SourceTree.parsed root').delivery := h.walk_eq
    have hanalyse : Analysis.analyse ⟨path, package, .parsed root⟩ rules =
        .ok (Analysis.report ⟨path, package, .parsed root⟩ rules).items := by
      have hfault : (SourceTree.parsed root).delivery.fault = none := hlegible.walk_fault
      refine Delivery.complete_eq_ok_iff.mpr ⟨?_, rfl⟩
      rw [Analysis.report_fault, hfault, ite_self]
    refine ⟨⟨path, package, .parsed root⟩, ⟨path, package, .parsed root'⟩, _, ?_, ?_, hanalyse, ?_⟩
    · rw [SourceFile.ofTree, hpackage]
      rfl
    · rw [SourceFile.ofTree, hpackage']
      rfl
    · rw [← Analysis.analyse_congr hdelivery, hanalyse]
  · intro root path location hevent
    have hread := hevent
    rw [walk_eq_toldOf] at hread
    obtain ⟨n, hn, himport, hpath, hlocation⟩ := Node.dottedPath_of_mem_readings (mem_readings_of_mem_toldOf hread)
    refine ⟨?_, n, hn, himport, hlocation, Node.hasPath_of_dottedPath hpath⟩
    rintro p rfl
    exact ⟨Node.blankFree_of_dottedPath hpath, (Node.dottedPath_eq_some_iff.mp hpath).1⟩

/-! ### A path over two lines -/

namespace BrokenPath

/-- A source with a package and an import, whose paths have these texts. -/
def tree (package path : String) : Node :=
  .mk "source_file" true ByteArray.empty ⟨⟨0, 0⟩, ⟨4, 0⟩⟩ [
    .mk "package_header" true ByteArray.empty ⟨⟨0, 0⟩, ⟨1, 10⟩⟩ [
      .mk "qualified_identifier" true package.toUTF8 ⟨⟨0, 8⟩, ⟨1, 10⟩⟩ []],
    .mk "import" true ByteArray.empty ⟨⟨2, 0⟩, ⟨3, 8⟩⟩ [
      .mk "qualified_identifier" true path.toUTF8 ⟨⟨2, 7⟩, ⟨3, 8⟩⟩ []]]

theorem sameButBlanks_empty : Text.SameButBlanks ByteArray.empty ByteArray.empty :=
  ⟨"", "", rfl, rfl, rfl⟩

theorem sameButLayout {package package' path path' : String}
    (hpackage : Text.deleteBlanks package = Text.deleteBlanks package')
    (hpath : Text.deleteBlanks path = Text.deleteBlanks path') :
    (tree package path).SameButLayout (tree package' path') := by
  have hleaf : ∀ {s t : String} {span : Span}, Text.deleteBlanks s = Text.deleteBlanks t →
      (Node.mk "qualified_identifier" true s.toUTF8 span []).SameButLayout
        (.mk "qualified_identifier" true t.toUTF8 span []) := by
    intro s t span h
    exact ⟨rfl, rfl, rfl, ⟨s, t, rfl, rfl, h⟩, trivial⟩
  exact ⟨rfl, rfl, rfl, sameButBlanks_empty,
    ⟨rfl, rfl, rfl, sameButBlanks_empty, hleaf hpackage, trivial⟩,
    ⟨rfl, rfl, rfl, sameButBlanks_empty, hleaf hpath, trivial⟩, trivial⟩

/-- Where the import stands. -/
def place : Location :=
  ⟨3, 1, some 4, some 9⟩

theorem import_mem (package : String) {path : String} (h : Text.deleteBlanks path ≠ "") :
    .imported (some (Text.deleteBlanks path)) place ∈ (walk (tree package path)).items := by
  have hpath : (Node.mk "import" true ByteArray.empty ⟨⟨2, 0⟩, ⟨3, 8⟩⟩ [
      .mk "qualified_identifier" true path.toUTF8 ⟨⟨2, 7⟩, ⟨3, 8⟩⟩ []]).dottedPath =
        .ok (some (Text.deleteBlanks path)) :=
    Node.dottedPath_eq_some_iff.mpr ⟨h, _, path, rfl, Text.Utf8.decode_toUTF8 path, rfl⟩
  have hreadings : (tree package path).readings = [.ok (.imported (some (Text.deleteBlanks path)) place)] := by
    show [Except.map _ _] = _
    rw [hpath]
    rfl
  rw [walk_eq_toldOf, hreadings]
  exact List.mem_singleton_self _

end BrokenPath

/-- A package and a path that are broken before a dot, with a tabulator and a wide blank in them, are read like those on
one line. -/
theorem layout_of_broken_path :
    let root := BrokenPath.tree "a\n  .domain" "org\t.\u3000x\n  .Foo"
    let root' := BrokenPath.tree "a.domain" "org.x.Foo"
    root.SameButLayout root' ∧ .imported (some "org.x.Foo") BrokenPath.place ∈ (walk root).items ∧
    BlankFree "org.x.Foo" ∧ (∃ n ∈ root.visits, n.isImport = true ∧ n.location = BrokenPath.place ∧
      n.HasPath (some "org.x.Foo")) ∧
    ∃ package events,
      root.packageName = .ok package ∧ root'.packageName = .ok package ∧ BlankFree package ∧
      deliver root = .ok events ∧ deliver root' = .ok events ∧
      ∀ (path : String) (rules : List Rule), ∃ file file' findings,
        SourceFile.ofTree path root = .ok file ∧ SourceFile.ofTree path root' = .ok file' ∧
        Analysis.analyse file rules = .ok findings ∧ Analysis.analyse file' rules = .ok findings := by
  intro root root'
  have hsame : root.SameButLayout root' := BrokenPath.sameButLayout (by decide) (by decide)
  have hname : Text.deleteBlanks "org\t.\u3000x\n  .Foo" = "org.x.Foo" := by decide
  have hevent : .imported (some "org.x.Foo") BrokenPath.place ∈ (walk root).items := by
    rw [← hname]
    exact BrokenPath.import_mem _ (by decide)
  obtain ⟨hpaths, himport⟩ := layout_does_not_matter.2.2.1 root _ _ hevent
  obtain ⟨package, events, hpackage, hpackage', hrest⟩ := layout_does_not_matter.1 root root' hsame
  exact ⟨hsame, hevent, (hpaths _ rfl).1, himport, package, events, hpackage, hpackage',
    layout_does_not_matter.2.1 root package hpackage, hrest⟩

end Syntax

end Strata
