import Strata.CommandLine.Plan
import Strata.Proofs.Collection
import Strata.Proofs.Layout
import Strata.Proofs.RuleIndependence

/-!
# Line ends do not matter

Some programs end a line with a line feed, others with a carriage return or with both. Files are read with all line
ends made line feeds, and what that undoes is said by `Text.Reended`: the texts that become `t` are those that are `t`
but for their line ends (`Text.unifyNewlines_eq_iff`). A carriage return alone must not be followed by a line feed,
since the two would be one line end.

So the same source and the same settings are read from files that are the same but for line ends. Two file systems
whose files are so have the same directories and links, every path leads to the same place in both, and no command
line can tell them apart.
-/

namespace Strata

namespace Text

/-! ## Texts -/

/-- The second text is the first one with some of its line feeds replaced, by a carriage return and a line feed or by
a carriage return alone. What follows one that is alone is no line feed. -/
inductive Reended : List Char → List Char → Prop
  | nil : Reended [] []
  | keep (c : Char) {cs ds : List Char} (h : Reended cs ds) : Reended (c :: cs) (c :: ds)
  | both {cs ds : List Char} (h : Reended cs ds) : Reended ('\n' :: cs) ('\r' :: '\n' :: ds)
  | alone {cs ds : List Char} (h : Reended cs ds) (hnext : ds.head? ≠ some '\n') : Reended ('\n' :: cs) ('\r' :: ds)

theorem Reended.refl (cs : List Char) : Reended cs cs := by
  induction cs with
  | nil => exact .nil
  | cons c cs ih => exact .keep c ih

theorem unifyNewlineChars_alone {ds : List Char} (h : ds.head? ≠ some '\n') :
    unifyNewlineChars ('\r' :: ds) = '\n' :: unifyNewlineChars ds := by
  rw [unifyNewlineChars]
  rintro rest rfl
  exact h rfl

theorem unifyNewlineChars_keep {c : Char} (h : c ≠ '\r') (ds : List Char) :
    unifyNewlineChars (c :: ds) = c :: unifyNewlineChars ds := by
  rw [unifyNewlineChars]
  · exact fun _ hc _ => h hc
  · exact h

/-- Only line feeds are left, and the text was that one but for its line ends. -/
theorem reended_unifyNewlineChars (ds : List Char) :
    '\r' ∉ unifyNewlineChars ds ∧ Reended (unifyNewlineChars ds) ds := by
  fun_induction unifyNewlineChars ds with
  | case1 ds ih => exact ⟨by simpa using ih.1, .both ih.2⟩
  | case2 ds hnext ih =>
    refine ⟨by simpa using ih.1, .alone ih.2 ?_⟩
    cases ds with
    | nil => simp
    | cons d ds =>
      rw [List.head?_cons]
      rintro ⟨rfl⟩
      exact hnext ds rfl
  | case3 c ds _ hc ih =>
    refine ⟨?_, .keep c ih.2⟩
    rw [List.mem_cons, not_or]
    exact ⟨fun heq => hc heq.symm, ih.1⟩
  | case4 => exact ⟨List.not_mem_nil, .nil⟩

theorem Reended.unifyNewlineChars_eq {cs ds : List Char} (h : Reended cs ds) (hcs : '\r' ∉ cs) :
    unifyNewlineChars ds = cs := by
  induction h with
  | nil => rfl
  | keep c h ih =>
    rw [List.mem_cons, not_or] at hcs
    rw [unifyNewlineChars_keep (Ne.symm hcs.1), ih hcs.2]
  | both h ih => rw [unifyNewlineChars, ih fun hmem => hcs (List.mem_cons_of_mem _ hmem)]
  | alone h hnext ih => rw [unifyNewlineChars_alone hnext, ih fun hmem => hcs (List.mem_cons_of_mem _ hmem)]

/-- `t` has no carriage returns, and `t'` is `t` with other line ends. -/
def SameButLineEnds (t t' : String) : Prop :=
  '\r' ∉ t.toList ∧ Reended t.toList t'.toList

theorem unifyNewlines_eq_iff {t t' : String} : unifyNewlines t' = t ↔ SameButLineEnds t t' := by
  rw [unifyNewlines, SameButLineEnds]
  constructor
  · rintro rfl
    rw [String.toList_ofList]
    exact reended_unifyNewlineChars t'.toList
  · rintro ⟨hcs, h⟩
    rw [h.unifyNewlineChars_eq hcs, String.ofList_toList]

theorem SameButLineEnds.unifyNewlines_self {t t' : String} (h : SameButLineEnds t t') : unifyNewlines t = t :=
  unifyNewlines_eq_iff.mpr ⟨h.1, .refl t.toList⟩

/-! ## Files -/

theorem Utf8.decodeStream_toUTF8 (t : String) : Utf8.decodeStream t.toUTF8 = .ok t := by
  rw [Utf8.decodeStream, Utf8.decode_toUTF8]

/-- The contents of two files: they are the same, or texts that are the same but for line ends. -/
def SameContent (bytes bytes' : ByteArray) : Prop :=
  bytes' = bytes ∨ ∃ t t', SameButLineEnds t t' ∧ bytes = t.toUTF8 ∧ bytes' = t'.toUTF8

end Text

namespace Run

variable [Parser]

theorem sourceOf_eq_of_sameButLineEnds {t t' : String} (h : Text.SameButLineEnds t t') (path : String) :
    sourceOf path t'.toUTF8 = sourceOf path t.toUTF8 := by
  rw [sourceOf_toUTF8, sourceOf_toUTF8, Text.unifyNewlines_eq_iff.mpr h, h.unifyNewlines_self]

theorem sourceOf_congr {bytes bytes' : ByteArray} (h : Text.SameContent bytes bytes') (path : String) :
    sourceOf path bytes' = sourceOf path bytes := by
  rcases h with rfl | ⟨t, t', h, rfl, rfl⟩
  · rfl
  · exact sourceOf_eq_of_sameButLineEnds h path

/-- A text without carriage returns is read as the source with its tree, which has a package and events. -/
theorem exists_sourceOf {t : String} (h : Text.unifyNewlines t = t) (path : String) :
    ∃ package events, sourceOf path t.toUTF8 = .ok ⟨path, package, .parsed (Parser.tree t)⟩ ∧
      (SourceTree.parsed (Parser.tree t)).events = .ok events := by
  have hlegible := Parser.legible t
  obtain ⟨package, hpackage⟩ := hlegible.exists_packageName
  refine ⟨package, (Syntax.walk (Parser.tree t)).items, ?_, ?_⟩
  · rw [sourceOf_toUTF8, h, SourceFile.ofTree, hpackage]
    rfl
  · exact Delivery.complete_eq_ok_iff.mpr ⟨hlegible.walk_fault, rfl⟩

end Run

namespace Settings

theorem ofFile_eq_of_sameButLineEnds {t t' : String} (h : Text.SameButLineEnds t t') (known : Option (List String))
    (path : String) : ofFile known path t'.toUTF8 = ofFile known path t.toUTF8 := by
  have hdocument : documentOfFile path t'.toUTF8 = documentOfFile path t.toUTF8 := by
    simp only [documentOfFile, Text.Utf8.decodeStream_toUTF8, Text.unifyNewlines_eq_iff.mpr h, h.unifyNewlines_self]
  rw [ofFile, ofFile, hdocument]

theorem ofFile_congr {bytes bytes' : ByteArray} (h : Text.SameContent bytes bytes') (known : Option (List String))
    (path : String) : ofFile known path bytes' = ofFile known path bytes := by
  rcases h with rfl | ⟨t, t', h, rfl, rfl⟩
  · rfl
  · exact ofFile_eq_of_sameButLineEnds h known path

end Settings

/-! ## File systems -/

namespace Entry

/-- The entries have the same names and links at the same places, and contents that are the same but for line ends. -/
inductive SameButLineEnds : Entry → Entry → Prop
  | file (name : String) {bytes bytes' : ByteArray} (h : Text.SameContent bytes bytes') :
      SameButLineEnds (.file name bytes) (.file name bytes')
  | link (name target : String) : SameButLineEnds (.link name target) (.link name target)
  | directory (name : String) {entries entries' : List Entry} (h : List.Forall₂ SameButLineEnds entries entries') :
      SameButLineEnds (.directory name entries) (.directory name entries')

variable {e e' : Entry} {entries entries' : List Entry}

theorem SameButLineEnds.name_eq (h : e.SameButLineEnds e') : e'.name = e.name := by
  cases h <;> rfl

theorem find?_rel (h : List.Forall₂ SameButLineEnds entries entries') (name : String) :
    Option.Rel SameButLineEnds (find? name entries) (find? name entries') := by
  induction h with
  | nil => exact .none
  | @cons d d' rest rest' hd hrest ih =>
    unfold find? at ih ⊢
    rw [List.find?_cons, List.find?_cons, hd.name_eq]
    cases decide (d.name = name) with
    | true => exact .some hd
    | false => exact ih

theorem SameButLineEnds.child?_rel (h : e.SameButLineEnds e') (name : String) :
    Option.Rel SameButLineEnds (e.child? name) (e'.child? name) := by
  cases h with
  | file => exact .none
  | link => exact .none
  | directory top h => exact find?_rel h name

theorem SameButLineEnds.foldlM_rel (h : e.SameButLineEnds e') (way : List String) :
    Option.Rel SameButLineEnds (way.foldlM (fun e name => e.child? name) e)
      (way.foldlM (fun e name => e.child? name) e') := by
  induction way generalizing e e' with
  | nil => exact .some h
  | cons name way ih =>
    rw [List.foldlM_cons, List.foldlM_cons]
    have hchild := h.child?_rel name
    generalize e.child? name = child, e'.child? name = child' at hchild
    cases hchild with
    | none => exact .none
    | some hc => exact ih hc

theorem exists_of_rel_some {found : Option Entry} (h : Option.Rel SameButLineEnds (some e) found) :
    ∃ e', found = some e' ∧ e.SameButLineEnds e' := by
  cases h with
  | some h => exact ⟨_, rfl, h⟩

theorem eq_none_of_rel_none {found : Option Entry} (h : Option.Rel SameButLineEnds none found) : found = none := by
  cases h
  rfl

mutual

/-- The same ways lead through the directories. -/
theorem SameButLineEnds.waysBelow_eq : ∀ {e e' : Entry}, e.SameButLineEnds e' → e'.waysBelow = e.waysBelow
  | file _ _, _, .file _ _ => rfl
  | link _ _, _, .link _ _ => rfl
  | directory _ _, _, .directory _ h => by
    rw [waysBelow, waysBelow, waysTo_eq h]

/-- The same for the entries of a directory. -/
theorem waysTo_eq : ∀ {entries entries' : List Entry}, List.Forall₂ SameButLineEnds entries entries' →
    waysTo entries' = waysTo entries
  | [], _, .nil => rfl
  | e :: rest, _, .cons h hrest => by
    rw [waysTo, waysTo, h.name_eq, h.waysBelow_eq, waysTo_eq hrest]

end

end Entry

namespace FileSystem

/-- The file systems have the same directories and links and the same working directory, and files that are the same
but for line ends. -/
structure SameButLineEnds (fs fs' : FileSystem) : Prop where
  entries : List.Forall₂ Entry.SameButLineEnds fs.entries fs'.entries
  working : fs'.working = fs.working

/-- The same error, or answers that are related. -/
inductive Alike {α : Type} (rel : α → α → Prop) : Except FileError α → Except FileError α → Prop
  | error (e : FileError) : Alike rel (.error e) (.error e)
  | ok {a a' : α} (h : rel a a') : Alike rel (.ok a) (.ok a')

namespace SameButLineEnds

variable {fs fs' : FileSystem} (h : fs.SameButLineEnds fs')

include h

theorem entry?_rel (way : List String) : Option.Rel Entry.SameButLineEnds (fs.entry? way) (fs'.entry? way) :=
  (Entry.SameButLineEnds.directory "" h.entries).foldlM_rel way

theorem exists_entry? {way : List String} {e : Entry} (hentry : fs.entry? way = some e) :
    ∃ e', fs'.entry? way = some e' ∧ e.SameButLineEnds e' :=
  Entry.exists_of_rel_some (hentry ▸ h.entry?_rel way)

theorem entry?_eq_none {way : List String} (hentry : fs.entry? way = none) : fs'.entry? way = none :=
  Entry.eq_none_of_rel_none (hentry ▸ h.entry?_rel way)

/-- A directory is at the same place in both. -/
theorem exists_directory {way : List String} {name : String} {entries : List Entry}
    (hentry : fs.entry? way = some (.directory name entries)) :
    ∃ entries', fs'.entry? way = some (.directory name entries') ∧
      List.Forall₂ Entry.SameButLineEnds entries entries' := by
  obtain ⟨e', hentry', hsame⟩ := h.exists_entry? hentry
  cases hsame with
  | directory _ hentries => exact ⟨_, hentry', hentries⟩

/-- The same links are followed, and they lead to the same places. -/
theorem follow_eq (links : Nat) (here segments : List String) :
    fs'.follow links here segments = fs.follow links here segments := by
  fun_induction FileSystem.follow fs links here segments with
  | case1 => rw [FileSystem.follow]
  | case2 links here rest name entries hentry ih =>
    obtain ⟨entries', hentry', -⟩ := h.exists_directory hentry
    simp only [FileSystem.follow, hentry', if_true, ih]
  | case3 links here rest name entries hentry hdot ih =>
    obtain ⟨entries', hentry', -⟩ := h.exists_directory hentry
    simp only [FileSystem.follow, hentry', if_neg hdot, if_true, ih]
  | case4 links here s rest name entries hentry hdot hdots hfind =>
    obtain ⟨entries', hentry', hentries⟩ := h.exists_directory hentry
    have hfind' := Entry.eq_none_of_rel_none (hfind ▸ Entry.find?_rel hentries s)
    simp only [FileSystem.follow, hentry', if_neg hdot, if_neg hdots, hfind']
  | case5 here s rest name entries hentry hdot hdots link target hfind =>
    obtain ⟨entries', hentry', hentries⟩ := h.exists_directory hentry
    obtain ⟨e', hfind', hsame⟩ := Entry.exists_of_rel_some (hfind ▸ Entry.find?_rel hentries s)
    cases hsame with
    | link => simp only [FileSystem.follow, hentry', if_neg hdot, if_neg hdots, hfind']
  | case6 here s rest name entries hentry hdot hdots link target hfind links start ih =>
    obtain ⟨entries', hentry', hentries⟩ := h.exists_directory hentry
    obtain ⟨e', hfind', hsame⟩ := Entry.exists_of_rel_some (hfind ▸ Entry.find?_rel hentries s)
    cases hsame with
    | link =>
      simp only [FileSystem.follow, hentry', if_neg hdot, if_neg hdots, hfind']
      exact ih
  | case7 links here s rest name entries hentry hdot hdots e hlink hfind ih =>
    obtain ⟨entries', hentry', hentries⟩ := h.exists_directory hentry
    obtain ⟨e', hfind', hsame⟩ := Entry.exists_of_rel_some (hfind ▸ Entry.find?_rel hentries s)
    cases hsame with
    | file => simp only [FileSystem.follow, hentry', if_neg hdot, if_neg hdots, hfind', ih]
    | link name target => exact absurd rfl (hlink name target)
    | directory => simp only [FileSystem.follow, hentry', if_neg hdot, if_neg hdots, hfind', ih]
  | case8 links here s rest e hdirectory hentry =>
    obtain ⟨e', hentry', hsame⟩ := h.exists_entry? hentry
    cases hsame with
    | file => simp only [FileSystem.follow, hentry']
    | link => simp only [FileSystem.follow, hentry']
    | directory name => exact absurd rfl (hdirectory name _)
  | case9 links here s rest hentry => simp only [FileSystem.follow, h.entry?_eq_none hentry]

theorem resolve_eq (p : Path) : fs'.resolve p = fs.resolve p := by
  rw [resolve, resolve, h.working, h.follow_eq]

theorem lookup_alike (p : Path) : Alike Entry.SameButLineEnds (fs.lookup p) (fs'.lookup p) := by
  unfold lookup
  rw [h.resolve_eq]
  cases fs.resolve p with
  | error e => exact .error e
  | ok q =>
    have hentry := h.entry?_rel q.segments
    dsimp only
    generalize fs.entry? q.segments = found, fs'.entry? q.segments = found' at hentry ⊢
    cases hentry with
    | none => exact .error _
    | some hsame => exact .ok hsame

theorem lookupText_alike (text : String) : Alike Entry.SameButLineEnds (fs.lookupText text) (fs'.lookupText text) := by
  unfold lookupText
  split
  · exact .error _
  · exact h.lookup_alike _

theorem isFile_eq (p : Path) : fs'.isFile p = fs.isFile p := by
  unfold isFile
  have hlookup := h.lookup_alike p
  generalize fs.lookup p = found, fs'.lookup p = found' at hlookup ⊢
  cases hlookup with
  | error => rfl
  | ok hsame => cases hsame <;> rfl

theorem read_alike (p : Path) : Alike Text.SameContent (fs.read p) (fs'.read p) := by
  unfold read
  have hlookup := h.lookup_alike p
  generalize fs.lookup p = found, fs'.lookup p = found' at hlookup ⊢
  cases hlookup with
  | error e => exact .error e
  | ok hsame =>
    cases hsame with
    | file name hcontent => exact .ok hcontent
    | link => exact .error _
    | directory => exact .error _

end SameButLineEnds

end FileSystem

section SameFiles

variable {fs fs' : FileSystem} (h : fs.SameButLineEnds fs')

include h

namespace Sources

theorem ofDirectory_congr (directory : Path) {entries entries' : List Entry}
    (hentries : List.Forall₂ Entry.SameButLineEnds entries entries') :
    ofDirectory fs' directory entries' = ofDirectory fs directory entries := by
  simp only [ofDirectory, Entry.waysTo_eq hentries, regularFile?, h.resolve_eq, h.isFile_eq]

theorem ofArgument?_congr (argument : Path) : ofArgument? fs' argument = ofArgument? fs argument := by
  unfold ofArgument?
  rw [h.resolve_eq]
  cases fs.resolve argument with
  | error e => rfl
  | ok canonical =>
    cases hentry : fs.entry? canonical.segments with
    | none => simp only [hentry, h.entry?_eq_none hentry]
    | some e =>
      obtain ⟨e', hentry', hsame⟩ := h.exists_entry? hentry
      simp only [hentry, hentry']
      cases hsame with
      | file => rfl
      | link => rfl
      | directory _ hentries => exact congrArg some (ofDirectory_congr h argument hentries)

theorem collect_congr_files (arguments : List Path) (excludes : List String) :
    collect fs' arguments excludes = collect fs arguments excludes := by
  simp only [collect, ofArgument?_congr h]

theorem logs_congr (arguments : List Path) : logs fs' arguments = logs fs arguments := by
  simp only [logs, ofArgument?_congr h]

end Sources

namespace Run

variable [Parser]

theorem readSource_congr (p : Path) : readSource fs' p = readSource fs p := by
  unfold readSource
  have hread := h.read_alike p
  generalize fs.read p = content, fs'.read p = content' at hread ⊢
  cases hread with
  | error => rfl
  | ok hcontent => exact sourceOf_congr hcontent p.text

theorem lint_congr (arguments : List Path) (s : Settings) (elapsed : Elapsed) :
    lint fs' arguments s elapsed = lint fs arguments s elapsed := by
  have houtcome : outcome fs' (rulesOf s) = outcome fs (rulesOf s) := by
    funext p
    simp only [outcome, work, report, readSource_congr h]
  rw [lint, lint, houtcome, Sources.collect_congr_files h]

theorem logs_congr (arguments : List Path) (s : Settings) : logs fs' arguments s = logs fs arguments s := by
  have hlogs : logsOfPath fs' (rulesOf s) = logsOfPath fs (rulesOf s) := by
    funext p
    simp only [logsOfPath, analysePath, report, readSource_congr h]
  rw [logs, logs, hlogs, Sources.collect_congr_files h, Sources.logs_congr h]

end Run

namespace Settings

theorem ofPath_congr (p : Path) : ofPath fs' p = ofPath fs p := by
  unfold ofPath
  have hread := h.read_alike p
  generalize fs.read p = content, fs'.read p = content' at hread ⊢
  cases hread with
  | error => rfl
  | ok hcontent => simp only [ofFile_congr hcontent]

theorem lookup_congr (given : Option Path) (directory : Path) :
    lookup fs' given directory = lookup fs given directory := by
  unfold lookup
  cases given with
  | some path => exact ofPath_congr h path
  | none => simp only [h.isFile_eq, ofPath_congr h]

end Settings

namespace CommandLine

theorem pathOf_congr (value : String) : pathOf fs' value = pathOf fs value := by
  unfold pathOf
  have hlookup := h.lookupText_alike value
  generalize fs.lookupText value = found, fs'.lookupText value = found' at hlookup ⊢
  cases hlookup <;> rfl

theorem configOf_congr (value : String) : configOf fs' value = configOf fs value := by
  unfold configOf
  have hlookup := h.lookupText_alike value
  generalize fs.lookupText value = found, fs'.lookupText value = found' at hlookup ⊢
  cases hlookup with
  | error => rfl
  | ok hsame => cases hsame <;> rfl

theorem ofParsed_congr (q : Parsed LintSwitch) : LintArguments.ofParsed fs' q = LintArguments.ofParsed fs q := by
  have hswitch : LintArguments.withSwitch fs' q = LintArguments.withSwitch fs q := by
    funext a id
    cases id <;> simp only [LintArguments.withSwitch, configOf_congr h]
  have hpath : pathOf fs' = pathOf fs := funext (pathOf_congr h)
  rw [LintArguments.ofParsed, LintArguments.ofParsed, hswitch, hpath]

end CommandLine

end SameFiles

namespace CommandLine

variable {w w' : World}

theorem plan_congr (h : w.files.SameButLineEnds w'.files) (hterminal : w'.terminal = w.terminal)
    (arguments : List String) : plan w' arguments = plan w arguments := by
  have hdirectory : w'.directory = w.directory := by
    rw [World.directory, World.directory, h.working]
  have hlint : planLint w' = planLint w := by
    funext level rest
    simp only [planLint, ofParsed_congr h, Settings.lookup_congr h, hdirectory, Outcome.ofUsageError,
      Outcome.ofSettingsError, hterminal]
  have hrules : planRules w' = planRules w := by
    funext level rest
    simp only [planRules, rulesOutcome, configOf_congr h, Settings.lookup_congr h, hdirectory, Outcome.ofUsageError,
      Outcome.ofSettingsError, hterminal]
  simp only [plan, hlint, hrules, unknownCommand, Outcome.ofUsageError, hterminal]

/-- No command line can tell the two apart. -/
theorem run_congr [Parser] (h : w.files.SameButLineEnds w'.files) (hterminal : w'.terminal = w.terminal)
    (elapsed : Elapsed) (arguments : List String) : run w' elapsed arguments = run w elapsed arguments := by
  rw [run, run, plan_congr h hterminal]
  cases plan w arguments with
  | done o => rfl
  | lint p =>
    have htargets : p.targets w' = p.targets w := by
      rw [LintPlan.targets, LintPlan.targets, World.directory, World.directory, h.working]
    have hformat : p.format w' = p.format w := by
      rw [LintPlan.format, LintPlan.format, hterminal]
    have hresult : p.result w' elapsed = p.result w elapsed := by
      rw [LintPlan.result, LintPlan.result, htargets, Run.lint_congr h]
    have hlines : LintPlan.failureLines w' = LintPlan.failureLines w := by
      funext f r
      cases f <;> simp only [LintPlan.failureLines, hterminal]
    have houtcome : ∀ r, p.outcome w' r = p.outcome w r := by
      intro r
      rw [LintPlan.outcome, LintPlan.outcome, hformat, htargets, Run.logs_congr h, hlines, hterminal]
    rw [Plan.outcome, Plan.outcome, hresult, houtcome]

end CommandLine

/-! ## Sources and checkouts -/

namespace Run

/-- The analysis of a source does not fail, and finds the same whatever its line ends are. -/
theorem exists_outcome [Parser] {t t' : String} (h : Text.SameButLineEnds t t') {fs fs' : FileSystem} {p : Path}
    (hread : fs.read p = .ok t.toUTF8) (hread' : fs'.read p = .ok t'.toUTF8) (rules : List Rule) :
    ∃ findings, outcome fs rules p = .ok findings ∧ outcome fs' rules p = .ok findings := by
  obtain ⟨package, events, hsource, -⟩ := exists_sourceOf h.unifyNewlines_self p.text
  have hfile : readSource fs p = .ok ⟨p.text, package, .parsed (Parser.tree t)⟩ := by
    rw [readSource, hread]
    exact hsource
  have hfile' : readSource fs' p = .ok ⟨p.text, package, .parsed (Parser.tree t)⟩ := by
    rw [readSource, hread']
    exact (sourceOf_eq_of_sameButLineEnds h p.text).trans hsource
  refine ⟨(Analysis.report ⟨p.text, package, .parsed (Parser.tree t)⟩ rules).items, ?_, ?_⟩
  · rw [outcome_eq, hfile]
  · rw [outcome_eq, hfile']

/-- Line ends do not matter. A text without carriage returns, and the text with any choice of its line ends written
otherwise, are read as the same source: the package and the events are those of the text, with the same locations. So
two runs find the same in a source that is the text in one of them and the changed text in the other, and it fails in
neither. As a settings file the two have the same outcome, be it settings or a fault, and the same is told about them.
And if all text files of two checkouts are so, every command line does the same in both. -/
theorem line_ends_do_not_matter [Parser] :
    (∀ {t t' : String}, Text.SameButLineEnds t t' →
      (∀ path, ∃ package events,
        sourceOf path t.toUTF8 = .ok ⟨path, package, .parsed (Parser.tree t)⟩ ∧
          sourceOf path t'.toUTF8 = .ok ⟨path, package, .parsed (Parser.tree t)⟩ ∧
          (SourceTree.parsed (Parser.tree t)).events = .ok events) ∧
      (∀ {fs fs' : FileSystem} {arguments arguments' : List Path} {s : Settings} {r r' : RunResult} {p : Path},
        ComesOut fs arguments s r → ComesOut fs' arguments' s r' →
        p ∈ Sources.collect fs arguments s.excludes → p ∈ Sources.collect fs' arguments' s.excludes →
        fs.read p = .ok t.toUTF8 → fs'.read p = .ok t'.toUTF8 →
        r'.findings.filter (fun f => f.path = p.text) = r.findings.filter (fun f => f.path = p.text) ∧
          r.failures.filter (fun e => e.path = p.text) = [] ∧ r'.failures.filter (fun e => e.path = p.text) = []) ∧
      ∀ known path, Settings.ofFile known path t'.toUTF8 = Settings.ofFile known path t.toUTF8) ∧
    ∀ w w' : CommandLine.World, w.files.SameButLineEnds w'.files → w'.terminal = w.terminal →
      ∀ elapsed arguments, CommandLine.run w' elapsed arguments = CommandLine.run w elapsed arguments := by
  refine ⟨fun {t t'} h => ⟨?_, ?_, Settings.ofFile_eq_of_sameButLineEnds h⟩, fun w w' => CommandLine.run_congr⟩
  · intro path
    obtain ⟨package, events, hsource, hevents⟩ := exists_sourceOf h.unifyNewlines_self path
    exact ⟨package, events, hsource, (sourceOf_eq_of_sameButLineEnds h path).trans hsource, hevents⟩
  · intro fs fs' arguments arguments' s r r' p hr hr' hp hp' hread hread'
    obtain ⟨findings, hout, hout'⟩ := exists_outcome h hread hread' (rulesOf s)
    rw [hr.eq_lint, hr'.eq_lint, filter_findings _ hp, filter_findings _ hp', filter_failures _ hp,
      filter_failures _ hp', hout, hout']
    exact ⟨rfl, rfl, rfl⟩

/-- The first line end is a carriage return alone, the second one, which follows at once, is both, and the others
stay. The same two findings are made with either text. -/
theorem line_ends_of_import_and_throw :
    let t := ThrowingSource.text
    let t' := "package a.domain\r\r\nimport b\nthrow x\n"
    let s := DomainSource.settings
    let fs := TwoProjects.small t.toUTF8
    let fs' := TwoProjects.small t'.toUTF8
    Text.SameButLineEnds t t' ∧ (∃ file, sourceOf "c.kt" t.toUTF8 = .ok file ∧ sourceOf "c.kt" t'.toUTF8 = .ok file) ∧
      (lint fs' [⟨"", []⟩] s (.whole 0)).findings.filter (fun f => f.path = TwoProjects.shared.text) =
        (lint fs [⟨"", []⟩] s (.whole 0)).findings.filter (fun f => f.path = TwoProjects.shared.text) ∧
      (lint fs [⟨"", []⟩] s (.whole 0)).findings.filter (fun f => f.path = TwoProjects.shared.text) =
        [ThrowingSource.importFinding "/w/a/c.kt", ThrowingSource.throwFinding "/w/a/c.kt"] ∧
      Settings.ofFile none "layerlint.yml" t'.toUTF8 = Settings.ofFile none "layerlint.yml" t.toUTF8 ∧
      fs.SameButLineEnds fs' ∧
      CommandLine.run ⟨fs', false⟩ (.whole 0) ["lint"] = CommandLine.run ⟨fs, false⟩ (.whole 0) ["lint"] := by
  intro t t' s fs fs'
  have htexts : Text.SameButLineEnds t t' := Text.unifyNewlines_eq_iff.mp (by decide)
  have hsources : ∀ content, TwoProjects.shared ∈ Sources.collect (TwoProjects.small content) [⟨"", []⟩] [] := by
    intro content
    rw [TwoProjects.sources_small]
    exact List.mem_cons_self
  have hentries : ∀ content, (TwoProjects.small content).entries =
      [.directory "w" [.directory "a" [.file "c.kt" content]]] := by
    intro content
    cbv
  have hfiles : fs.SameButLineEnds fs' := by
    refine ⟨?_, rfl⟩
    rw [hentries, hentries]
    exact .cons (.directory "w" (.cons (.directory "a" (.cons (.file "c.kt" (Or.inr ⟨t, t', htexts, rfl, rfl⟩)) .nil))
      .nil)) .nil
  obtain ⟨hsource, hruns, hsettings⟩ := line_ends_do_not_matter.1 htexts
  obtain ⟨package, events, hfile, hfile', -⟩ := hsource "c.kt"
  have hfindings := hruns (comesOut_lint fs _ s (.whole 0)) (comesOut_lint fs' _ s (.whole 0))
    (hsources _) (hsources _) (TwoProjects.read_small _) (TwoProjects.read_small _)
  have hfound := TwoProjects.findings_shared (TwoProjects.read_small ThrowingSource.text.toUTF8)
  have hrun := line_ends_do_not_matter.2 ⟨fs, false⟩ ⟨fs', false⟩ hfiles rfl (.whole 0) ["lint"]
  exact ⟨htexts, ⟨_, hfile, hfile'⟩, hfindings.1, (filter_findings _ (hsources _)).trans hfound,
    hsettings none "layerlint.yml", hfiles, hrun⟩

end Run

end Strata
