import Strata.Proofs.Collection
import Strata.Proofs.DottedNames
import Strata.Proofs.Numerals
import Strata.Proofs.RuleIndependence
import Strata.Report

/-!
# Lines for other programs

A line has colons between its parts, and nothing in the parts is escaped. What a line says can be told nevertheless,
although paths and messages may hold colons: the name of the rule and the severity are free of colons and stand in
front, line and column are numerals, and a message ends in the words of its rule and in a name without blanks. So
the parts are cut off one by one, from both ends, until the path is left.

What is not told is where a line ends: the path of a source may hold a line feed, and then a finding takes several
lines.
-/

namespace Strata

namespace Text

/-! ## Cutting at a separator -/

/-- There is one way to cut a text at its first separator. -/
theorem cut_first {sep : Char} {xs ys xs' ys' : List Char} (h : xs ++ sep :: ys = xs' ++ sep :: ys')
    (hxs : sep ∉ xs) (hxs' : sep ∉ xs') : xs = xs' ∧ ys = ys' := by
  have hfront := congrArg (List.takeWhile (· ≠ sep)) h
  have hstop : ∀ zs tail : List Char, sep ∉ zs → List.takeWhile (· ≠ sep) (zs ++ sep :: tail) = zs := by
    intro zs tail hzs
    rw [List.takeWhile_append_of_pos]
    · simp
    · intro c hc
      have hne : c ≠ sep := by
        rintro rfl
        exact hzs hc
      simpa using hne
  rw [hstop xs ys hxs, hstop xs' ys' hxs'] at hfront
  subst hfront
  have hrest := List.append_cancel_left h
  exact ⟨rfl, (List.cons.inj hrest).2⟩

/-- There is one way to cut a text at its last separator. -/
theorem cut_last {sep : Char} {xs ys xs' ys' : List Char} (h : xs ++ sep :: ys = xs' ++ sep :: ys')
    (hys : sep ∉ ys) (hys' : sep ∉ ys') : xs = xs' ∧ ys = ys' := by
  have hreverse : ys.reverse ++ sep :: xs.reverse = ys'.reverse ++ sep :: xs'.reverse := by
    simpa using congrArg List.reverse h
  obtain ⟨hy, hx⟩ := cut_first hreverse (by simpa using hys) (by simpa using hys')
  exact ⟨List.reverse_injective hx, List.reverse_injective hy⟩

end Text

open Text (BlankFree)

/-! ## How findings are worded -/

/-- The finding has the words of one of the rules, about a name without blanks. -/
inductive Finding.Worded (f : Finding) : Prop
  | imported {path : String} {layer : Layer} (hrule : f.rule = Check.forbiddenImport.name) (hfree : BlankFree path)
      (hmessage : f.message = Rule.importMessage path layer)
  | thrown {package : String} (hrule : f.rule = Check.noThrow.name) (hfree : BlankFree package)
      (hmessage : f.message = Rule.throwMessage package)

/-- Whatever is reported about a tree is worded so. -/
theorem Analysis.worded_of_mem_report {path : String} {root : Syntax.Node} {file : SourceFile} {rules : List Rule}
    {f : Finding} (hfile : SourceFile.ofTree path root = .ok file) (hf : f ∈ (report file rules).items) :
    f.Worded := by
  obtain ⟨package, hpackage, rfl⟩ := Run.eq_of_ofTree hfile
  rw [report_items] at hf
  obtain ⟨e, he, hf⟩ := List.mem_flatMap.mp hf
  obtain ⟨r, hr, rfl⟩ := List.mem_map.mp hf
  have hforbids := (of_decide_eq_true (List.mem_filter.mp hr).2).2
  cases e with
  | thrown location =>
    exact .thrown (congrArg Check.name hforbids.1) (Syntax.Node.blankFree_of_packageName hpackage) rfl
  | imported imported location =>
    cases imported with
    | none => exact hforbids.elim
    | some imported => exact .imported (congrArg Check.name hforbids.1) (Syntax.blankFree_of_mem_walk he) rfl

theorem Layer.blankFree_name (layer : Layer) : BlankFree layer.name := by
  cases layer <;> decide

namespace Rule

/-- A name without blanks that stands quoted between the same words is told from what stands before it. -/
theorem quoted_cancel {before before' : List Char} {opening word name name' closing : String}
    (hopening : opening = word ++ " '") (hname : BlankFree name) (hname' : BlankFree name')
    (h : before ++ (opening ++ name ++ closing).toList = before' ++ (opening ++ name' ++ closing).toList) :
    before = before' ∧ name = name' := by
  subst hopening
  have htext : ∀ (front : List Char) (name : String), front ++ (word ++ " '" ++ name ++ closing).toList =
      ((front ++ word.toList) ++ ' ' :: ('\'' :: name.toList)) ++ closing.toList := by
    intro front name
    simp [String.toList_append]
  have hblank : ∀ {name : String}, BlankFree name → ' ' ∉ '\'' :: name.toList := by
    intro name hname hmem
    rcases List.mem_cons.mp hmem with hquote | hmem
    · exact absurd hquote (by decide)
    · exact hname.notMem rfl hmem
  rw [htext, htext] at h
  obtain ⟨hbefore, hquoted⟩ := Text.cut_last (List.append_cancel_right h) (hblank hname) (hblank hname')
  exact ⟨List.append_cancel_right hbefore, String.toList_inj.mp (List.cons.inj hquoted).2⟩

theorem importMessage_cancel {before before' : List Char} {path path' : String} {layer layer' : Layer}
    (hpath : BlankFree path) (hpath' : BlankFree path')
    (h : before ++ (importMessage path layer).toList = before' ++ (importMessage path' layer').toList) :
    before = before' ∧ importMessage path layer = importMessage path' layer' := by
  have htext : ∀ (front : List Char) (path : String) (layer : Layer),
      front ++ (importMessage path layer).toList =
        ((front ++ ("Import '" ++ path ++ "' is not allowed in").toList) ++ ' ' :: layer.name.toList) ++
          " layer.".toList := by
    intro front path layer
    simp [importMessage, String.toList_append]
  have hopening : "Import '" = "Import" ++ " '" := by decide
  rw [htext, htext] at h
  -- the layer is cut off at the last blank but one, and then the path at the blank before it
  obtain ⟨hfront, hlayer⟩ := Text.cut_last (List.append_cancel_right h) (layer.blankFree_name.notMem rfl)
    (layer'.blankFree_name.notMem rfl)
  obtain ⟨hbefore, rfl⟩ := quoted_cancel hopening hpath hpath' hfront
  refine ⟨hbefore, ?_⟩
  rw [importMessage, importMessage, String.toList_inj.mp hlayer]

theorem throwMessage_cancel {before before' : List Char} {package package' : String} (hpackage : BlankFree package)
    (hpackage' : BlankFree package')
    (h : before ++ (throwMessage package).toList = before' ++ (throwMessage package').toList) :
    before = before' ∧ throwMessage package = throwMessage package' := by
  have hopening : "throw detected in package '" = "throw detected in package" ++ " '" := by decide
  unfold throwMessage at h
  obtain ⟨hbefore, rfl⟩ := quoted_cancel hopening hpackage hpackage' h
  exact ⟨hbefore, rfl⟩

theorem lineFeed_notMem_importMessage {path : String} (hpath : BlankFree path) (layer : Layer) :
    '\n' ∉ (importMessage path layer).toList := by
  unfold importMessage
  simp only [String.toList_append, List.mem_append]
  rintro ((((h | h) | h) | h) | h)
  · exact absurd h (by decide)
  · exact hpath.notMem rfl h
  · exact absurd h (by decide)
  · exact layer.blankFree_name.notMem rfl h
  · exact absurd h (by decide)

theorem lineFeed_notMem_throwMessage {package : String} (hpackage : BlankFree package) :
    '\n' ∉ (throwMessage package).toList := by
  unfold throwMessage
  simp only [String.toList_append, List.mem_append]
  rintro ((h | h) | h)
  · exact absurd h (by decide)
  · exact hpackage.notMem rfl h
  · exact absurd h (by decide)

end Rule

/-- Of two findings of one rule, neither has a message that the message of the other ends in. -/
theorem Finding.Worded.message_cancel {f g : Finding} {before before' : List Char} (hf : f.Worded) (hg : g.Worded)
    (hrule : f.rule = g.rule) (h : before ++ f.message.toList = before' ++ g.message.toList) :
    before = before' ∧ f.message = g.message := by
  have hnames : Check.forbiddenImport.name ≠ Check.noThrow.name := by decide
  cases hf with
  | imported hf hfree hmessage =>
    cases hg with
    | imported hg hfree' hmessage' =>
      rw [hmessage, hmessage'] at h ⊢
      exact Rule.importMessage_cancel hfree hfree' h
    | thrown hg hfree' hmessage' => exact absurd (hf.symm.trans (hrule.trans hg)) hnames
  | thrown hf hfree hmessage =>
    cases hg with
    | imported hg hfree' hmessage' => exact absurd (hf.symm.trans (hrule.trans hg)).symm hnames
    | thrown hg hfree' hmessage' =>
      rw [hmessage, hmessage'] at h ⊢
      exact Rule.throwMessage_cancel hfree hfree' h

namespace Report

/-! ## The parts of a line -/

/-- The path of a finding and where it starts, as they stand in its line. -/
def place (f : Finding) : List Char :=
  f.path.toList ++ ':' :: ((toString f.location.line).toList ++ ':' ::
    ((toString f.location.column).toList ++ [':']))

theorem toList_porcelainLine (f : Finding) :
    (porcelainLine f).toList =
      f.rule.toList ++ ':' :: (f.severity.name.toList ++ ':' :: (place f ++ f.message.toList)) := by
  simp [porcelainLine, place, String.toList_append]

theorem notMem_toString_int {c : Char} (n : Int) (hdash : c ≠ '-') (hdigit : c.isDigit = false) :
    c ∉ (toString n).toList := by
  intro hmem
  rcases Json.mem_toString_int hmem with h | h
  · exact hdash h
  · rw [hdigit] at h
    cases h

theorem place_eq {f g : Finding} (h : place f = place g) :
    f.path = g.path ∧ f.location.line = g.location.line ∧ f.location.column = g.location.column := by
  have hplace : ∀ f : Finding, place f =
      ((f.path.toList ++ ':' :: (toString f.location.line).toList) ++ ':' ::
        (toString f.location.column).toList) ++ [':'] := by
    intro f
    simp [place]
  rw [hplace, hplace] at h
  have hcolon : ∀ n : Int, ':' ∉ (toString n).toList := fun n => notMem_toString_int n (by decide) (by decide)
  obtain ⟨hfront, hcolumn⟩ := Text.cut_last (List.append_cancel_right h) (hcolon _) (hcolon _)
  obtain ⟨hpath, hline⟩ := Text.cut_last hfront (hcolon _) (hcolon _)
  exact ⟨String.toList_inj.mp hpath, Json.toString_int_injective (String.toList_inj.mp hline),
    Json.toString_int_injective (String.toList_inj.mp hcolumn)⟩

theorem severity_name_injective {s t : Severity} (h : s.name = t.name) : s = t := by
  cases s <;> cases t <;> first | rfl | exact absurd h (by decide)

theorem notMem_severity {c : Char} (s : Severity) (hc : c.isAlpha = false) : c ∉ s.name.toList := by
  have hletters : s.name.toList.all Char.isAlpha = true := by
    cases s <;> decide
  intro hmem
  rw [List.all_eq_true.mp hletters c hmem] at hc
  cases hc

theorem notMem_rule {f : Finding} {c : Char} (h : f.Worded) (hc : c.isAlpha = false) : c ∉ f.rule.toList := by
  have hletters : ∀ check : Check, check.name.toList.all Char.isAlpha = true := by
    intro check
    cases check <;> decide
  have hname : ∃ check : Check, f.rule = check.name := by
    cases h with
    | imported hrule _ _ => exact ⟨_, hrule⟩
    | thrown hrule _ _ => exact ⟨_, hrule⟩
  obtain ⟨check, hrule⟩ := hname
  intro hmem
  rw [hrule] at hmem
  rw [List.all_eq_true.mp (hletters check) c hmem] at hc
  cases hc

end Report

/-! ## One line for one finding -/

namespace Report

/-- Of what is reported about two trees, up to their ends or to a fault, two findings have the same line just when they
agree on all that a line says. -/
theorem porcelainLine_identifies_finding {path path' : String} {root root' : Syntax.Node} {file file' : SourceFile}
    {rules rules' : List Rule} {f g : Finding} (hfile : SourceFile.ofTree path root = .ok file)
    (hfile' : SourceFile.ofTree path' root' = .ok file') (hf : f ∈ (Analysis.report file rules).items)
    (hg : g ∈ (Analysis.report file' rules').items) :
    porcelainLine f = porcelainLine g ↔
      f.rule = g.rule ∧ f.severity = g.severity ∧ f.path = g.path ∧ f.location.line = g.location.line ∧
        f.location.column = g.location.column ∧ f.message = g.message := by
  have hwf := Analysis.worded_of_mem_report hfile hf
  have hwg := Analysis.worded_of_mem_report hfile' hg
  constructor
  · intro h
    have hchars := congrArg String.toList h
    rw [toList_porcelainLine, toList_porcelainLine] at hchars
    obtain ⟨hrule, hrest⟩ := Text.cut_first hchars (notMem_rule hwf (by decide)) (notMem_rule hwg (by decide))
    obtain ⟨hseverity, hrest⟩ := Text.cut_first hrest (notMem_severity _ (by decide)) (notMem_severity _ (by decide))
    have hrule := String.toList_inj.mp hrule
    obtain ⟨hplace, hmessage⟩ := hwf.message_cancel hwg hrule hrest
    obtain ⟨hpath, hline, hcolumn⟩ := place_eq hplace
    exact ⟨hrule, severity_name_injective (String.toList_inj.mp hseverity), hpath, hline, hcolumn, hmessage⟩
  · rintro ⟨hrule, hseverity, hpath, hline, hcolumn, hmessage⟩
    rw [porcelainLine, porcelainLine, hrule, hseverity, hpath, hline, hcolumn, hmessage]

/-- Two sources, one at a path that goes on like a line of the other: their findings are told apart. -/
theorem lines_of_paths_with_colons :
    let f := DomainSource.rule.complaint (DomainSource.file "/w/x:2:1:A.kt") DomainSource.event
    let g := DomainSource.rule.complaint (DomainSource.file "/w/x") DomainSource.event
    f ∈ (Analysis.report (DomainSource.file "/w/x:2:1:A.kt") [DomainSource.rule]).items ∧
      g ∈ (Analysis.report (DomainSource.file "/w/x") [DomainSource.rule]).items ∧
      (porcelainLine f = porcelainLine g ↔
        f.rule = g.rule ∧ f.severity = g.severity ∧ f.path = g.path ∧ f.location.line = g.location.line ∧
          f.location.column = g.location.column ∧ f.message = g.message) ∧
      porcelainLine f ≠ porcelainLine g := by
  intro f g
  have hf : f ∈ (Analysis.report (DomainSource.file "/w/x:2:1:A.kt") [DomainSource.rule]).items :=
    DomainSource.complaint_mem List.mem_cons_self (by decide)
  have hg : g ∈ (Analysis.report (DomainSource.file "/w/x") [DomainSource.rule]).items :=
    DomainSource.complaint_mem List.mem_cons_self (by decide)
  have hiff := porcelainLine_identifies_finding (DomainSource.ofTree_eq "/w/x:2:1:A.kt")
    (DomainSource.ofTree_eq "/w/x") hf hg
  refine ⟨hf, hg, hiff, ?_⟩
  intro h
  have hpath : f.path = g.path := (hiff.mp h).2.2.1
  exact absurd hpath (by decide)

end Report

/-! ## As many lines as findings -/

namespace Text

theorem length_splitAt (sep : Char) (cs : List Char) : (splitAt sep cs).length = cs.count sep + 1 := by
  induction cs with
  | nil => rfl
  | cons c cs ih =>
    by_cases hc : c = sep
    · rw [hc, splitAt_cons_sep, List.length_cons, ih, List.count_cons_self]
    · obtain ⟨runs, hruns⟩ := splitAt_eq_cons sep cs
      rw [splitAt_cons_of_ne hc hruns, List.count_cons_of_ne hc, ← ih, hruns]
      rfl

/-- Pieces put together with separators fall apart into themselves and one more for each separator in them. -/
theorem length_split_intercalate (sep : Char) {pieces : List String} (hne : pieces ≠ []) :
    (split sep (String.intercalate (String.singleton sep) pieces)).length =
      pieces.length + (pieces.map fun s => s.toList.count sep).sum := by
  rw [split, List.length_map, length_splitAt]
  induction pieces with
  | nil => exact absurd rfl hne
  | cons s rest ih =>
    cases rest with
    | nil => simp [Nat.add_comm]
    | cons t rest =>
      have hrest := ih (List.cons_ne_nil t rest)
      rw [toList_intercalate_cons_cons, List.count_append, List.count_cons_self]
      simp only [List.map_cons, List.sum_cons, List.length_cons] at hrest ⊢
      omega

end Text

namespace Run

/-- A run finds what is reported about the sources that it could read. -/
theorem mem_findings_lint [Parser] {fs : FileSystem} {arguments : List Path} {s : Settings} {elapsed : Elapsed}
    {f : Finding} :
    f ∈ (lint fs arguments s elapsed).findings ↔
      ∃ p ∈ Sources.collect fs arguments s.excludes, ∃ file, readSource fs p = .ok file ∧
        f ∈ (Analysis.report file (rulesOf s)).items := by
  have hsorted : f ∈ (lint fs arguments s elapsed).findings ↔
      f ∈ (Sources.collect fs arguments s.excludes).flatMap fun p => (outcome fs (rulesOf s) p).findings :=
    List.mem_mergeSort
  rw [hsorted, List.mem_flatMap]
  refine exists_congr fun p => and_congr_right fun _ => ?_
  rw [outcome_eq]
  cases hfile : readSource fs p with
  | error e => simp [Outcome.findings]
  | ok file => simp [Outcome.findings]

theorem worded_of_mem_lint [Parser] {fs : FileSystem} {arguments : List Path} {s : Settings} {elapsed : Elapsed}
    {f : Finding} (h : f ∈ (lint fs arguments s elapsed).findings) : f.Worded := by
  obtain ⟨p, -, file, hfile, hf⟩ := mem_findings_lint.mp h
  obtain ⟨text, htree⟩ := ofTree_of_readSource hfile
  exact Analysis.worded_of_mem_report htree hf

end Run

namespace Report

theorem lineFeed_notMem_message {f : Finding} (h : f.Worded) : '\n' ∉ f.message.toList := by
  cases h with
  | imported _ hfree hmessage =>
    rw [hmessage]
    exact Rule.lineFeed_notMem_importMessage hfree _
  | thrown _ hfree hmessage =>
    rw [hmessage]
    exact Rule.lineFeed_notMem_throwMessage hfree

/-- Only the path of a finding can hold a line feed. -/
theorem count_porcelainLine {f : Finding} (h : f.Worded) :
    (porcelainLine f).toList.count '\n' = f.path.toList.count '\n' := by
  have hrule := List.count_eq_zero.mpr (notMem_rule (c := '\n') h (by decide))
  have hseverity := List.count_eq_zero.mpr (notMem_severity (c := '\n') f.severity (by decide))
  have hline := List.count_eq_zero.mpr (notMem_toString_int (c := '\n') f.location.line (by decide) (by decide))
  have hcolumn := List.count_eq_zero.mpr (notMem_toString_int (c := '\n') f.location.column (by decide) (by decide))
  have hmessage := List.count_eq_zero.mpr (lineFeed_notMem_message h)
  have hcolon : ∀ rest : List Char, (':' :: rest).count '\n' = rest.count '\n' := fun rest =>
    List.count_cons_of_ne (by decide)
  rw [toList_porcelainLine, place]
  simp only [List.count_append, hcolon, hrule, hseverity, hline, hcolumn, hmessage, List.count_nil, Nat.zero_add,
    Nat.add_zero]

theorem porcelain_eq_intercalate (r : RunResult) :
    porcelain r = String.intercalate (String.singleton '\n') (r.findings.map porcelainLine) := by
  have hsep : "\n" = String.singleton '\n' := by decide
  rw [porcelain, hsep]

section

variable {r : RunResult} (hworded : ∀ f ∈ r.findings, f.Worded) (hne : r.findings ≠ [])

include hworded hne

theorem length_split_porcelain :
    (Text.split '\n' (porcelain r)).length =
      r.findings.length + (r.findings.map fun f => f.path.toList.count '\n').sum := by
  have hlines : r.findings.map porcelainLine ≠ [] := by simpa using hne
  have hlength := Text.length_split_intercalate '\n' hlines
  have hcounts : (r.findings.map porcelainLine).map (fun s => s.toList.count '\n') =
      r.findings.map fun f => f.path.toList.count '\n' := by
    simp only [List.map_map, Function.comp_def]
    apply List.map_congr_left
    intro f hf
    exact count_porcelainLine (hworded f hf)
  rw [porcelain_eq_intercalate, hlength, hcounts, List.length_map]

/-- The lines are those of the findings just when no path holds a line feed. -/
theorem split_porcelain_eq_iff :
    Text.split '\n' (porcelain r) = r.findings.map porcelainLine ↔ ∀ f ∈ r.findings, '\n' ∉ f.path.toList := by
  constructor
  · intro h f hf
    have hlength := length_split_porcelain hworded hne
    rw [h, List.length_map] at hlength
    have hsum : (r.findings.map fun f => f.path.toList.count '\n').sum = 0 := by omega
    have hcount : f.path.toList.count '\n' = 0 :=
      List.sum_eq_zero_iff.mp hsum _ (List.mem_map_of_mem (f := fun f => f.path.toList.count '\n') hf)
    exact List.count_eq_zero.mp hcount
  · intro h
    have hlines : ∀ line ∈ r.findings.map porcelainLine, '\n' ∉ line.toList := by
      intro line hline
      obtain ⟨f, hf, rfl⟩ := List.mem_map.mp hline
      have hcount := count_porcelainLine (hworded f hf)
      rw [List.count_eq_zero.mpr (h f hf)] at hcount
      exact List.count_eq_zero.mp hcount
    rw [porcelain_eq_intercalate]
    exact Text.split_intercalate (by simpa using hne) hlines

end

/-- The report of a run without findings is empty. Otherwise it has a line for each finding and one more for each line
feed in their paths, so that the lines are those of the findings just when no path holds one. The paths are those of
the sources that the run collects. -/
theorem porcelain_one_line_each_iff [Parser] (fs : FileSystem) (arguments : List Path) (s : Settings)
    (elapsed : Elapsed) :
    let r := Run.lint fs arguments s elapsed
    (r.findings = [] → porcelain r = "") ∧
      (r.findings ≠ [] →
        (Text.split '\n' (porcelain r)).length =
            r.findings.length + (r.findings.map fun f => f.path.toList.count '\n').sum ∧
          (Text.split '\n' (porcelain r) = r.findings.map porcelainLine ↔
            ∀ f ∈ r.findings, '\n' ∉ f.path.toList)) ∧
      ∀ f ∈ r.findings, ∃ p ∈ Sources.collect fs arguments s.excludes, f.path = p.text := by
  intro r
  have hworded : ∀ f ∈ r.findings, f.Worded := fun f hf => Run.worded_of_mem_lint hf
  refine ⟨?_, ?_, ?_⟩
  · intro hnone
    rw [porcelain, hnone]
    rfl
  · intro hne
    exact ⟨length_split_porcelain hworded hne, split_porcelain_eq_iff hworded hne⟩
  · intro f hf
    obtain ⟨p, hp, file, hfile, hmem⟩ := Run.mem_findings_lint.mp hf
    obtain ⟨package, text, rfl⟩ := Run.eq_of_readSource hfile
    exact ⟨p, hp, Run.path_of_mem_report hmem⟩

/-! ## A line feed in the name of a file -/

namespace LineFeedProject

def files (content : ByteArray) : FileSystem :=
  (FileSystem.empty ⟨"/", ["w"]⟩).add ⟨"", ["A\nB.kt"]⟩ (.file content)

def source : Path :=
  ⟨"/", ["w", "A\nB.kt"]⟩

/-- The line of the source is broken in two. -/
def finding : Finding :=
  DomainSource.rule.complaint (DomainSource.file source.text) DomainSource.event

theorem source_mem (content : ByteArray) : source ∈ Sources.collect (files content) [⟨"", []⟩] [] := by
  have hworking : (files content).lookup ⟨"", []⟩ = .ok (.directory "w" [.file "A\nB.kt" content]) := by
    cbv
  have hreaches : Entry.Reaches [.file "A\nB.kt" content] ["A\nB.kt"] (.file "A\nB.kt" content) :=
    .here List.mem_cons_self
  have hname : Sources.IsSourceName (Entry.file "A\nB.kt" content).name := ⟨"A\nB", by decide, Or.inl rfl⟩
  have hleads : (files content).LeadsToFile ⟨"", [] ++ ["A\nB.kt"]⟩ source :=
    ⟨by cbv, "A\nB.kt", content, by cbv⟩
  exact Sources.mem_collect_iff.mpr ⟨fun pattern h => absurd h List.not_mem_nil, _, List.mem_cons_self,
    .below hworking hreaches hname hleads⟩

theorem read_source (content : ByteArray) : (files content).read source = .ok content := by
  cbv

theorem readSource_source :
    Run.readSource (files DomainSource.text.toUTF8) source = .ok (DomainSource.file source.text) := by
  rw [Run.readSource, read_source]
  exact DomainSource.sourceOf_text source.text

theorem finding_mem (elapsed : Elapsed) :
    finding ∈ (Run.lint (files DomainSource.text.toUTF8) [⟨"", []⟩] DomainSource.settings elapsed).findings := by
  have hrule : DomainSource.rule ∈ Run.rulesOf DomainSource.settings :=
    List.mem_cons_of_mem _ List.mem_cons_self
  exact Run.mem_findings_lint.mpr ⟨source, source_mem _, _, readSource_source,
    DomainSource.complaint_mem hrule (by decide)⟩

end LineFeedProject

/-- The project with one source whose name holds a line feed: there is a finding in it, and there are more lines than
findings. -/
theorem lines_of_name_with_line_feed :
    let fs := LineFeedProject.files DomainSource.text.toUTF8
    let r := Run.lint fs [⟨"", []⟩] DomainSource.settings (.whole 0)
    r.findings ≠ [] ∧
      (Text.split '\n' (porcelain r)).length =
        r.findings.length + (r.findings.map fun f => f.path.toList.count '\n').sum ∧
      ¬ Text.split '\n' (porcelain r) = r.findings.map porcelainLine := by
  intro fs r
  have hmem : LineFeedProject.finding ∈ r.findings := LineFeedProject.finding_mem (.whole 0)
  have hne : r.findings ≠ [] := List.ne_nil_of_mem hmem
  obtain ⟨-, hlines, -⟩ := porcelain_one_line_each_iff fs [⟨"", []⟩] DomainSource.settings (.whole 0)
  obtain ⟨hlength, hiff⟩ := hlines hne
  refine ⟨hne, hlength, ?_⟩
  intro hsplit
  exact absurd (hiff.mp hsplit LineFeedProject.finding hmem) (by decide)

/-- It is not so that the lines of every report are those of the findings. -/
theorem not_every_report_one_line_each :
    ¬ ∀ (fs : FileSystem) (arguments : List Path) (s : Settings) (elapsed : Elapsed),
      let r := Run.lint fs arguments s elapsed
      (r.findings = [] → porcelain r = "") ∧
        (r.findings ≠ [] → Text.split '\n' (porcelain r) = r.findings.map porcelainLine) := by
  intro h
  have hmem := LineFeedProject.finding_mem (.whole 0)
  have hne := List.ne_nil_of_mem hmem
  obtain ⟨-, hsplit⟩ := h (LineFeedProject.files DomainSource.text.toUTF8) [⟨"", []⟩] DomainSource.settings (.whole 0)
  have hpath := (split_porcelain_eq_iff (fun f hf => Run.worded_of_mem_lint hf) hne).mp (hsplit hne) _ hmem
  exact absurd hpath (by decide)

end Report

end Strata
