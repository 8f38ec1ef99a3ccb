import Mathlib.Data.Prod.Lex
import Mathlib.Tactic
import Strata.Proofs.Locality

/-!
# Events and findings in the order of the source

Nothing sorts the events of a source by where they stand. They come in the order in which a walk visits the nodes of the
tree, and that order is the order of the source if the tree is well nested: what is visited in one child starts before
the child ends, and the next child starts only there. Each event stands where a visited node stands, and each finding
where an event stands, so both come in the order of the source as well. A run puts whole sources in the order of their
paths and leaves the findings of a source as they are.

The outline of a text has its nodes where its tokens are, in the order of the tokens, and each token starts behind the
one before it. So outlines are visited in the order of the source, whatever the text.
-/

namespace Strata

/-! ## Positions -/

/-- Rows come first, and columns count within a row. -/
def Syntax.Point.position (p : Syntax.Point) : ℤ ×ₗ ℤ :=
  toLex (p.row, p.column)

/-- Where a span starts. -/
def Location.position (l : Location) : ℤ ×ₗ ℤ :=
  toLex (l.line, l.column)

/-- One finding may stand before another in a report: by its path, and for one path by its position. -/
def Finding.Precedes (f g : Finding) : Prop :=
  f.path < g.path ∨ f.path = g.path ∧ f.location.position ≤ g.location.position

namespace Syntax

namespace Node

/-- The tree lies in its source as parsers leave it: no node ends before it starts, children lie inside their parent,
and a child starts where the one before it has ended. -/
inductive WellNested : Node → Prop
  | intro {n : Node} (forward : n.span.start.position ≤ n.span.stop.position)
      (inside : ∀ c ∈ n.children, n.span.start.position ≤ c.span.start.position ∧
        c.span.stop.position ≤ n.span.stop.position)
      (apart : n.children.IsChain fun c d => c.span.stop.position ≤ d.span.start.position)
      (children : ∀ c ∈ n.children, c.WellNested) : n.WellNested

/-- The nodes that a walk comes to start one after the other. -/
def InOrder (root : Node) : Prop :=
  root.visits.Pairwise fun m n => m.span.start.position ≤ n.span.start.position

theorem visitsOfAll_eq_flatMap (ns : List Node) : visitsOfAll ns = ns.flatMap visits := by
  induction ns with
  | nil => rfl
  | cons n ns ih => rw [visitsOfAll, ih, List.flatMap_cons]

theorem visitsOfAll_append (a b : List Node) : visitsOfAll (a ++ b) = visitsOfAll a ++ visitsOfAll b := by
  rw [visitsOfAll_eq_flatMap, visitsOfAll_eq_flatMap, visitsOfAll_eq_flatMap, List.flatMap_append]

/-! ## Well nested trees are visited in order -/

theorem WellNested.forward {n : Node} (h : n.WellNested) : n.span.start.position ≤ n.span.stop.position := by
  cases h
  assumption

/-- Of nodes that each start where the one before has ended, every one starts after all before it have ended. -/
theorem pairwise_of_isChain {ns : List Node} (hforward : ∀ n ∈ ns, n.span.start.position ≤ n.span.stop.position)
    (h : ns.IsChain fun m n => m.span.stop.position ≤ n.span.start.position) :
    ns.Pairwise fun m n => m.span.stop.position ≤ n.span.start.position := by
  induction ns with
  | nil => exact List.Pairwise.nil
  | cons m rest ih =>
    have hrest := ih (fun n hn => hforward n (List.mem_cons_of_mem m hn)) h.tail
    refine List.pairwise_cons.mpr ⟨?_, hrest⟩
    cases rest with
    | nil =>
      intro n hn
      cases hn
    | cons next rest =>
      have hnext := (List.isChain_cons_cons.mp h).1
      intro n hn
      rcases List.mem_cons.mp hn with rfl | hn
      · exact hnext
      · have hspan := hforward next (List.mem_cons_of_mem m List.mem_cons_self)
        have hlater := (List.pairwise_cons.mp hrest).1 n hn
        exact hnext.trans (hspan.trans hlater)

/-- What a walk comes to in a well nested tree starts in the span of the tree. -/
theorem WellNested.start_within {root : Node} (h : root.WellNested) :
    ∀ n ∈ root.visits, root.span.start.position ≤ n.span.start.position ∧
      n.span.start.position ≤ root.span.stop.position := by
  induction h with
  | @intro root forward inside apart children ih =>
    intro n hn
    rw [visits_eq] at hn
    rcases List.mem_cons.mp hn with rfl | hn
    · exact ⟨le_refl _, forward⟩
    · have hbelow : n ∈ visitsOfAll root.children := by
        split at hn
        · cases hn
        · exact hn
      rw [visitsOfAll_eq_flatMap] at hbelow
      obtain ⟨c, hc, hn⟩ := List.mem_flatMap.mp hbelow
      obtain ⟨hfrom, hto⟩ := ih c hc n hn
      obtain ⟨hstart, hstop⟩ := inside c hc
      exact ⟨hstart.trans hfrom, hto.trans hstop⟩

theorem WellNested.inOrder {root : Node} (h : root.WellNested) : root.InOrder := by
  induction h with
  | @intro root forward inside apart children ih =>
    have hroot : root.WellNested := .intro forward inside apart children
    have hchildren := pairwise_of_isChain (fun c hc => (children c hc).forward) apart
    -- whatever is visited in one child starts before the child ends, so before the next one starts
    have hbelow : (visitsOfAll root.children).Pairwise fun m n => m.span.start.position ≤ n.span.start.position := by
      rw [visitsOfAll_eq_flatMap, List.pairwise_flatMap]
      refine ⟨ih, hchildren.imp_of_mem ?_⟩
      intro c d hc hd hcd m hm n hn
      have hm := ((children c hc).start_within m hm).2
      have hn := ((children d hd).start_within n hn).1
      exact hm.trans (hcd.trans hn)
    have hfirst := hroot.start_within
    unfold InOrder
    rw [visits_eq] at hfirst ⊢
    split
    · exact List.pairwise_singleton _ _
    · next himport =>
      rw [if_neg himport] at hfirst
      refine List.pairwise_cons.mpr ⟨?_, hbelow⟩
      intro n hn
      exact (hfirst n (List.mem_cons_of_mem root hn)).1

/-! ## Events stand where the visited nodes stand -/

theorem position_location_le_iff {m n : Node} :
    m.location.position ≤ n.location.position ↔ m.span.start.position ≤ n.span.start.position := by
  unfold Location.position location Point.position
  rw [Prod.Lex.toLex_le_toLex, Prod.Lex.toLex_le_toLex]
  dsimp only
  omega

theorem location_of_importEvent {n : Node} {e : Event} (h : n.importEvent = .ok e) : e.location = n.location := by
  unfold importEvent at h
  cases hpath : n.dottedPath with
  | error f =>
    rw [hpath] at h
    cases h
  | ok path =>
    rw [hpath] at h
    cases h
    rfl

theorem locations_sublist (ns : List Node) :
    ((toldOf (ns.flatMap sights)).items.map Event.location).Sublist (ns.map location) := by
  induction ns with
  | nil => exact List.Sublist.slnil
  | cons n ns ih =>
    rw [List.flatMap_cons, List.map_cons, sights]
    by_cases himport : n.isImport = true
    · rw [if_pos himport, List.singleton_append]
      cases hevent : n.importEvent with
      | error f => exact List.nil_sublist _
      | ok e =>
        rw [toldOf, List.map_cons, location_of_importEvent hevent]
        exact ih.cons_cons n.location
    · rw [if_neg himport, toldOf_ok_append, List.map_append]
      unfold throwEvents
      split
      · exact ih.cons_cons n.location
      · exact ih.cons n.location

/-- A tree that is visited in order tells its events in order, up to the fault that ends the walk, if there is one. -/
theorem InOrder.events {root : Node} (h : root.InOrder) :
    (walk root).items.Pairwise fun d e => d.location.position ≤ e.location.position := by
  have hnodes : (root.visits.map location).Pairwise fun k l => k.position ≤ l.position := by
    rw [List.pairwise_map]
    exact h.imp fun hmn => position_location_le_iff.mpr hmn
  rw [walk_eq_toldOf, readings_eq_flatMap_visits]
  have hevents := hnodes.sublist (locations_sublist root.visits)
  rwa [List.pairwise_map] at hevents

end Node

end Syntax

/-! ## Findings stand where the events stand -/

namespace Analysis

theorem report_inOrder {file : SourceFile} (rules : List Rule)
    (h : file.tree.delivery.items.Pairwise fun d e => d.location.position ≤ e.location.position) :
    (report file rules).items.Pairwise fun f g => f.location.position ≤ g.location.position := by
  rw [report_items, List.pairwise_flatMap]
  have hlocation : ∀ e, ∀ f ∈ (rules.filter fun r => r.Violated file e).map fun r => r.complaint file e,
      f.location = e.location := by
    intro e f hf
    obtain ⟨r, -, rfl⟩ := List.mem_map.mp hf
    rfl
  constructor
  · -- all findings for one event stand where it stands
    intro e _
    refine List.pairwise_of_forall_mem_list ?_
    intro f hf g hg
    rw [hlocation e f hf, hlocation e g hg]
  · refine h.imp ?_
    intro d e hde f hf g hg
    rw [hlocation d f hf, hlocation e g hg]
    exact hde

end Analysis

/-! ## Outlines are visited in order -/

namespace Kotlin

open Syntax (Point Node)
open Syntax.Node (visits visitsOfAll)

theorem position_le_nextPoint (p : Point) (c : Char) : p.position ≤ (nextPoint p c).position := by
  unfold Point.position nextPoint
  rw [Prod.Lex.toLex_le_toLex]
  split
  · left
    dsimp only
    omega
  · right
    dsimp only
    omega

/-- Tokens start one after the other, and none of them before the place from which they are read. -/
theorem tokensFrom_inOrder (skip : Nat) (context : List Context) (offset : Nat) (p : Point) (newline : Bool)
    (cs : List Char) :
    (p :: (tokensFrom skip context offset p newline cs).map Token.start).Pairwise
      fun a b => a.position ≤ b.position := by
  induction cs generalizing skip context offset p newline with
  | nil => exact List.pairwise_singleton _ _
  | cons c cs ih =>
    -- what is read behind the character starts behind `p`
    have hlater : ∀ skip context offset newline,
        (p :: (tokensFrom skip context offset (nextPoint p c) newline cs).map Token.start).Pairwise
          fun a b => a.position ≤ b.position := by
      intro skip context offset newline
      have htokens := ih skip context offset (nextPoint p c) newline
      rw [List.pairwise_cons] at htokens ⊢
      refine ⟨?_, htokens.2⟩
      intro q hq
      exact (position_le_nextPoint p c).trans (htokens.1 q hq)
    cases skip with
    | succ skip => exact hlater skip context (offset + 1) newline
    | zero =>
      rw [tokensFrom]
      split
      · exact hlater ..
      · -- the token starts at `p` itself
        rw [List.map_cons, List.pairwise_cons]
        refine ⟨?_, hlater ..⟩
        intro q hq
        rcases List.mem_cons.mp hq with rfl | hq
        · exact le_refl _
        · exact (List.pairwise_cons.mp (hlater ..)).1 q hq

theorem starts_pathNode (source : List Char) (path : List Token) :
    (visitsOfAll (pathNode source path)).map (fun n => n.span.start) = (path.take 1).map Token.start := by
  unfold pathNode
  cases path with
  | nil => rfl
  | cons first rest =>
    obtain ⟨last, hlast⟩ : ∃ last, (first :: rest).getLast? = some last := by
      simp [List.getLast?_cons]
    rw [hlast]
    rfl

theorem starts_header (kind : String) (source : List Char) (keyword : Token) (path tail : List Token) :
    ((header kind source keyword path tail).1.visits.map fun n => n.span.start).Sublist
      (keyword.start :: (path.take 1).map Token.start) := by
  rw [Node.visits_eq, List.map_cons]
  refine List.Sublist.cons_cons _ ?_
  split
  · exact List.nil_sublist _
  · rw [← starts_pathNode source path]
    exact List.Sublist.refl _

/-- The path of a header begins with the token behind the keyword, if there is a path. -/
theorem pathTokens_eq_or (ts : List Token) :
    pathTokens ts = [] ∨ ∃ first rest more, ts = first :: rest ∧ pathTokens ts = first :: more := by
  cases ts with
  | nil => exact Or.inl rfl
  | cons first rest =>
    rw [pathTokens]
    by_cases hname : first.isName = true
    · rw [if_pos hname]
      exact Or.inr ⟨first, rest, pathTail rest, rfl, rfl⟩
    · exact Or.inl (if_neg hname)

/-- The nodes of a header start where its keyword and the next token start, and the tokens of the header are skipped. -/
theorem starts_header_append (kind : String) (source : List Char) (keyword : Token) {ts tail : List Token}
    {later : List Point}
    (hlater : later.Sublist
      ((ts.drop (header kind source keyword (pathTokens ts) tail).2).map Token.start)) :
    (((header kind source keyword (pathTokens ts) tail).1.visits.map fun n => n.span.start) ++ later).Sublist
      ((keyword :: ts).map Token.start) := by
  refine ((starts_header kind source keyword (pathTokens ts) tail).append hlater).trans ?_
  rw [List.cons_append, List.map_cons]
  refine List.Sublist.cons_cons _ ?_
  rcases pathTokens_eq_or ts with hpath | ⟨first, rest, more, rfl, hpath⟩
  · rw [hpath]
    exact (List.drop_sublist _ ts).map Token.start
  · have hlength : (header kind source keyword (pathTokens (first :: rest)) tail).2 =
        (more.length + tail.length) + 1 := by
      rw [hpath]
      show more.length + 1 + tail.length = _
      omega
    rw [hpath] at hlength ⊢
    rw [hlength, List.drop_succ_cons]
    exact ((List.drop_sublist _ rest).map Token.start).cons_cons _

theorem exists_importHeader_eq (source : List Char) (keyword : Token) (ts : List Token) :
    ∃ tail, importHeader source keyword ts = header "import" source keyword (pathTokens ts) tail := by
  simp only [importHeader]
  split
  · next hnone => exact ⟨[], by rw [List.getLast?_eq_none_iff.mp hnone]⟩
  · exact ⟨_, rfl⟩

/-- The nodes of the entries start where some of the tokens start, in the order of the tokens. -/
theorem starts_entriesFrom (source : List Char) (skip : Nat) (p : Place) (ts : List Token) :
    ((visitsOfAll (entriesFrom source skip p ts)).map fun n => n.span.start).Sublist
      ((ts.drop skip).map Token.start) := by
  fun_induction entriesFrom source skip p ts with
  | case1 => exact List.nil_sublist _
  | case2 p t ts skip ih => exact ih
  | case3 p t ts hpackage node length hheader ih =>
    have hnode : node = (packageHeader source t ts).1 := by rw [hheader]
    have hlength : length = (packageHeader source t ts).2 := by rw [hheader]
    subst hnode hlength
    rw [visitsOfAll, List.map_append]
    exact starts_header_append "package_header" source t ih
  | case4 p t ts hpackage himport node length hheader ih =>
    obtain ⟨tail, htail⟩ := exists_importHeader_eq source t ts
    have hnode : node = (header "import" source t (pathTokens ts) tail).1 := by rw [← htail, hheader]
    have hlength : length = (header "import" source t (pathTokens ts) tail).2 := by rw [← htail, hheader]
    subst hnode hlength
    rw [visitsOfAll, List.map_append]
    exact starts_header_append "import" source t ih
  | case5 p t ts hpackage himport hthrow ih =>
    exact ih.cons_cons t.start
  | case6 p t ts hpackage himport hthrow ih =>
    exact ih.cons t.start

/-- Putting trees below the node before them keeps the order in which they are visited; below an import they are not
visited at all. -/
theorem starts_nest (n : Node) (following : List Node) :
    ((visitsOfAll (nest n following)).map fun m => m.span.start).Sublist
      ((n.visits ++ visitsOfAll following).map fun m => m.span.start) := by
  unfold nest
  rw [visitsOfAll, Node.visits_eq, Node.visits_eq, List.cons_append, List.cons_append, List.map_cons, List.map_cons]
  refine List.Sublist.cons_cons _ (List.Sublist.map _ ?_)
  set inside := fun m : Node => isBefore m.span.start n.span.stop
  have hsame : (Node.mk n.kind n.named n.text n.span (n.children ++ following.takeWhile inside)).isImport =
      n.isImport := rfl
  rw [hsame]
  by_cases himport : n.isImport = true
  · rw [if_pos himport, if_pos himport, List.nil_append, List.nil_append, Node.visitsOfAll_eq_flatMap,
      Node.visitsOfAll_eq_flatMap]
    exact (List.dropWhile_sublist inside).flatMap _
  · rw [if_neg himport, if_neg himport]
    have hchildren : (Node.mk n.kind n.named n.text n.span (n.children ++ following.takeWhile inside)).children =
        n.children ++ following.takeWhile inside := rfl
    rw [hchildren, Node.visitsOfAll_append, List.append_assoc, ← Node.visitsOfAll_append,
      List.takeWhile_append_dropWhile]

theorem starts_nested (entries : List Node) :
    ((visitsOfAll (entries.foldr nest [])).map fun n => n.span.start).Sublist
      ((visitsOfAll entries).map fun n => n.span.start) := by
  induction entries with
  | nil => exact List.nil_sublist _
  | cons n rest ih =>
    rw [List.foldr_cons, visitsOfAll, List.map_append]
    refine (starts_nest n (rest.foldr nest [])).trans ?_
    rw [List.map_append]
    exact (List.Sublist.refl _).append ih

theorem inOrder_outline (source : String) : (outline source).InOrder := by
  have htokens : (⟨0, 0⟩ :: (tokensOf source.toList).map Token.start).Pairwise
      fun a b => a.position ≤ b.position := tokensFrom_inOrder ..
  have hnodes : ((outline source).visits.map fun n => n.span.start).Sublist
      (⟨0, 0⟩ :: (tokensOf source.toList).map Token.start) :=
    ((starts_nested _).trans (starts_entriesFrom _ 0 _ _)).cons_cons _
  have hstarts := htokens.sublist hnodes
  rwa [List.pairwise_map] at hstarts

end Kotlin

/-! ## Runs -/

namespace Run

variable [Parser] (h : ∀ text, (Parser.tree text).InOrder)

include h

theorem work_inOrder (fs : FileSystem) (rules : List Rule) (p : Path) :
    (work fs rules p).items.Pairwise fun f g => f.location.position ≤ g.location.position := by
  rw [work, Delivery.mapFault, report]
  split
  · exact List.Pairwise.nil
  · next file hfile =>
    obtain ⟨package, text, rfl⟩ := eq_of_readSource hfile
    exact Analysis.report_inOrder rules (h text).events

theorem lint_inOrder (fs : FileSystem) (arguments : List Path) (s : Settings) (elapsed : Elapsed) :
    (lint fs arguments s elapsed).findings.Pairwise Finding.Precedes := by
  set sources := Sources.collect fs arguments s.excludes
  have hown : ∀ p ∈ sources, ∀ f ∈ (work fs (rulesOf s) p).items, f.path = p.text :=
    fun p _ f hf => path_of_mem_work hf
  have hwhole := gather_allOrNothing hown (Sources.nodup_collect fs arguments s.excludes)
    (fun p hp q hq => Sources.text_injective_of_mem_collect hp hq) (rulesOf s) elapsed
  obtain ⟨ordered, -, hordered, hfindings⟩ := hwhole.blocks
  have hlint : (lint fs arguments s elapsed).findings = ordered.flatMap fun p => (work fs (rulesOf s) p).items :=
    hfindings
  rw [hlint, List.pairwise_flatMap]
  constructor
  · -- within a source the path stays and the positions grow
    intro p _
    refine (work_inOrder h fs (rulesOf s) p).imp_of_mem ?_
    intro f g hf hg hfg
    exact Or.inr ⟨(path_of_mem_work hf).trans (path_of_mem_work hg).symm, hfg⟩
  · refine hordered.imp ?_
    intro p q hpq f hf g hg
    left
    rw [path_of_mem_work hf, path_of_mem_work hg]
    exact hpq

end Run

/-! ## The order of reports -/

/-- A well nested tree tells its events in the order of the source, and whichever rules and policies look at it, the
findings in it come in that order too, also if a fault ends the analysis. If all trees of a parser are well nested, the
findings of a run are in the order of their paths, and those with one path in the order of the source. The trees that
the program gets need not be well nested, and yet the same holds of its runs. -/
theorem findings_come_in_source_order :
    (∀ root : Syntax.Node, root.WellNested →
      (Syntax.walk root).items.Pairwise (fun d e => d.location.position ≤ e.location.position) ∧
      ∀ (path package : String) (rules : List Rule),
        (Analysis.report ⟨path, package, .parsed root⟩ rules).items.Pairwise
          (fun f g => f.location.position ≤ g.location.position) ∧
        ∀ findings, Analysis.analyse ⟨path, package, .parsed root⟩ rules = .ok findings →
          findings.Pairwise fun f g => f.location.position ≤ g.location.position) ∧
    (∀ [Parser], (∀ text, (Parser.tree text).WellNested) →
      ∀ (fs : FileSystem) (arguments : List Path) (s : Settings) (elapsed : Elapsed),
        (Run.lint fs arguments s elapsed).findings.Pairwise Finding.Precedes) ∧
    ∀ (fs : FileSystem) (arguments : List Path) (s : Settings) (elapsed : Elapsed),
      (Run.lint fs arguments s elapsed).findings.Pairwise Finding.Precedes := by
  refine ⟨?_, fun h => Run.lint_inOrder fun text => (h text).inOrder, Run.lint_inOrder Kotlin.inOrder_outline⟩
  intro root hroot
  have hevents := hroot.inOrder.events
  refine ⟨hevents, ?_⟩
  intro path package rules
  have hreport : (Analysis.report ⟨path, package, .parsed root⟩ rules).items.Pairwise
      fun f g => f.location.position ≤ g.location.position := Analysis.report_inOrder rules hevents
  refine ⟨hreport, ?_⟩
  intro findings hfindings
  obtain ⟨-, hitems⟩ := Delivery.complete_eq_ok_iff.mp hfindings
  rw [← hitems]
  exact hreport

namespace NestedThrows

/-- The second throw of `throw a ?: throw b`. -/
def inner : Syntax.Node :=
  .mk "throw_expression" true ByteArray.empty ⟨⟨1, 11⟩, ⟨1, 18⟩⟩ []

def outer : Syntax.Node :=
  .mk "throw_expression" true ByteArray.empty ⟨⟨1, 0⟩, ⟨1, 18⟩⟩ [inner]

def header : Syntax.Node :=
  .mk "import" true ByteArray.empty ⟨⟨0, 0⟩, ⟨0, 6⟩⟩ []

def root : Syntax.Node :=
  .mk "source_file" true ByteArray.empty ⟨⟨0, 0⟩, ⟨2, 0⟩⟩ [header, outer]

theorem wellNested : root.WellNested := by
  have hinner : inner.WellNested := .intro (by decide) (by simp [inner, Syntax.Node.children]) .nil
    (by simp [inner, Syntax.Node.children])
  have houter : outer.WellNested := by
    refine .intro (by decide) ?_ (.singleton inner) ?_
    · exact List.forall_mem_singleton.mpr ⟨by decide, by decide⟩
    · exact List.forall_mem_singleton.mpr hinner
  have hheader : header.WellNested := .intro (by decide) (by simp [header, Syntax.Node.children]) .nil
    (by simp [header, Syntax.Node.children])
  refine .intro (by decide) ?_ ?_ ?_
  · intro c hc
    rcases List.mem_pair.mp hc with rfl | rfl
    · exact ⟨by decide, by decide⟩
    · exact ⟨by decide, by decide⟩
  · exact List.isChain_cons_cons.mpr ⟨by decide, .singleton outer⟩
  · intro c hc
    rcases List.mem_pair.mp hc with rfl | rfl
    · exact hheader
    · exact houter

/-- The rule about throws, for a source of the domain. -/
def rule : Rule :=
  ⟨.noThrow, {}, Policy.standard "a", defaultTestMarker⟩

def findings : List Finding :=
  [rule.finding ⟨"/repo/A.kt", "a.domain", .parsed root⟩ outer.location (Rule.throwMessage "a.domain"),
    rule.finding ⟨"/repo/A.kt", "a.domain", .parsed root⟩ inner.location (Rule.throwMessage "a.domain")]

theorem walk_eq : Syntax.walk root =
    ⟨[.imported none header.location, .thrown outer.location, .thrown inner.location], none⟩ := by
  rw [Syntax.walk_eq_toldOf]
  rfl

theorem analyse_eq : Analysis.analyse ⟨"/repo/A.kt", "a.domain", .parsed root⟩ [rule] = .ok findings := by
  have hreport : Analysis.report ⟨"/repo/A.kt", "a.domain", .parsed root⟩ [rule] = ⟨findings, none⟩ := by
    rw [Analysis.report]
    simp only [SourceTree.delivery, walk_eq]
    decide
  rw [Analysis.analyse, hreport]
  rfl

end NestedThrows

namespace ThrowingSource

theorem wellNested : tree.WellNested := by
  have hleaf : ∀ n : Syntax.Node, n.span.start.position ≤ n.span.stop.position → n.children = [] → n.WellNested := by
    intro n hforward hnone
    exact .intro hforward (by simp [hnone]) (by simp [hnone]) (by simp [hnone])
  -- a header and an import have a path below them and nothing else
  have hpath : ∀ n c : Syntax.Node, n.span.start.position ≤ n.span.stop.position → n.children = [c] →
      n.span.start.position ≤ c.span.start.position ∧ c.span.stop.position ≤ n.span.stop.position →
      c.WellNested → n.WellNested := by
    intro n c hforward hchildren hinside hc
    refine .intro hforward ?_ ?_ ?_
    · simpa [hchildren] using hinside
    · simp [hchildren]
    · simpa [hchildren] using hc
  refine .intro (by decide) ?_ ?_ ?_
  · refine List.forall_mem_cons.mpr ⟨by decide, List.forall_mem_cons.mpr ⟨by decide, ?_⟩⟩
    exact List.forall_mem_singleton.mpr (by decide)
  · exact List.isChain_cons_cons.mpr ⟨by decide, List.isChain_cons_cons.mpr ⟨by decide, .singleton _⟩⟩
  · refine List.forall_mem_cons.mpr ⟨?_, List.forall_mem_cons.mpr ⟨?_, List.forall_mem_singleton.mpr ?_⟩⟩
    · exact hpath _ _ (by decide) rfl (by decide) (hleaf _ (by decide) rfl)
    · exact hpath _ _ (by decide) rfl (by decide) (hleaf _ (by decide) rfl)
    · exact hleaf _ (by decide) rfl

/-- The parser that finds this tree in every text. -/
abbrev parser : Parser where
  tree _ := tree
  legible _ :=
    have hempty := Kotlin.isValidUTF8_empty
    ⟨hempty, ⟨hempty, ⟨String.isValidUTF8 _, trivial⟩, trivial⟩, ⟨hempty, ⟨String.isValidUTF8 _, trivial⟩, trivial⟩,
      ⟨hempty, trivial⟩, trivial⟩

end ThrowingSource

/-- The import, the throw and the throw inside it are told one after the other, and so are the findings. A run with
another parser, whose trees are well nested, has its findings in order. -/
theorem order_of_nested_throws :
    NestedThrows.root.WellNested ∧
      (Syntax.walk NestedThrows.root).items.Pairwise (fun d e => d.location.position ≤ e.location.position) ∧
      Analysis.analyse ⟨"/repo/A.kt", "a.domain", .parsed NestedThrows.root⟩ [NestedThrows.rule] =
        .ok NestedThrows.findings ∧
      NestedThrows.findings.map (fun f => f.location.position) = [toLex (2, 1), toLex (2, 12)] ∧
      (NestedThrows.findings.Pairwise fun f g => f.location.position ≤ g.location.position) ∧
      (∀ text, (ThrowingSource.parser.tree text).WellNested) ∧
      (let r := @Run.lint ThrowingSource.parser (Run.TwoProjects.large ThrowingSource.text.toUTF8) [⟨"", []⟩]
        DomainSource.settings (.whole 0)
      r.findings.Pairwise Finding.Precedes ∧ r.findings.filter (fun f => f.path = "/w/a/c.kt") =
        [ThrowingSource.importFinding "/w/a/c.kt", ThrowingSource.throwFinding "/w/a/c.kt"]) := by
  obtain ⟨htree, hparser, -⟩ := findings_come_in_source_order
  obtain ⟨hevents, hfindings⟩ := htree _ NestedThrows.wellNested
  have hwell : ∀ text, (ThrowingSource.parser.tree text).WellNested := fun _ => ThrowingSource.wellNested
  refine ⟨NestedThrows.wellNested, hevents, NestedThrows.analyse_eq, rfl,
    (hfindings _ _ _).2 _ NestedThrows.analyse_eq, hwell, @hparser ThrowingSource.parser hwell _ _ _ _, ?_⟩
  exact (@Run.TwoProjects.filter_findings_eq ThrowingSource.parser rfl _ rfl).trans (by decide)

end Strata
