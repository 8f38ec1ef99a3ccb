import Strata.Proofs.Collection
import Strata.Proofs.Excludes

/-!
# Tests are what lies below a directory of that name

A marker of tests is a text that is searched for in the path of a source. If the marker is a name between two slashes,
the search finds it exactly where the name is a whole segment with another one behind it: what stands between two
slashes is one of the runs that splitting at slashes gives, and neither the first nor the last of them
(`between_infix_iff`). The path of a source of a run is canonical, so its segments but the last are the directories
above it, and the source is a test iff one of them has the name. Backslashes count as slashes here, so a name that
holds one is taken for several segments.
-/

namespace Strata

namespace Text

/-! ## Runs between two separators -/

/-- A text begins with a run and a separator iff the run is its first one and there is another one. -/
theorem append_sep_prefix_iff {sep : Char} {word cs : List Char} (hword : sep ∉ word) :
    word ++ [sep] <+: cs ↔ ∃ runs, splitAt sep cs = word :: runs ∧ runs ≠ [] := by
  have hone : splitAt sep word = [word] := splitAt_of_not_mem hword
  constructor
  · rintro ⟨rest, rfl⟩
    rw [List.append_assoc, List.singleton_append]
    obtain ⟨hsplit, hruns⟩ := splitAt_eq_append_iff.mpr ⟨rest, rfl, rfl⟩
    rw [hone, List.singleton_append] at hsplit
    exact ⟨splitAt sep rest, hsplit, hruns⟩
  · rintro ⟨runs, hsplit, hruns⟩
    rw [← List.singleton_append, ← hone] at hsplit
    obtain ⟨rest, rfl, -⟩ := splitAt_eq_append_iff.mp ⟨hsplit, hruns⟩
    exact ⟨rest, by rw [List.append_assoc, List.singleton_append]⟩

/-- A run occurs between two separators iff it is a run of the text, but not the first or the last one. -/
theorem between_infix_iff {sep : Char} {word cs : List Char} (hword : sep ∉ word) :
    sep :: (word ++ [sep]) <:+: cs ↔ word ∈ (splitAt sep cs).tail.dropLast := by
  induction cs with
  | nil => simp
  | cons c cs ih =>
    obtain ⟨runs, hruns⟩ := splitAt_eq_cons sep cs
    rw [List.infix_cons_iff, ih]
    by_cases hc : c = sep
    · -- a new run begins, which is the word or not
      subst hc
      rw [List.prefix_cons_inj, append_sep_prefix_iff hword, splitAt_cons_sep, List.tail_cons, hruns]
      cases runs with
      | nil => simp
      | cons next runs =>
        simp only [List.tail_cons, List.dropLast_cons_cons, List.mem_cons, List.cons.injEq]
        constructor
        · rintro (⟨others, ⟨rfl, -⟩, -⟩ | h)
          · exact Or.inl rfl
          · exact Or.inr h
        · rintro (rfl | h)
          · exact Or.inl ⟨_, ⟨rfl, rfl⟩, List.cons_ne_nil _ _⟩
          · exact Or.inr h
    · have hbegin : ¬ sep :: (word ++ [sep]) <+: c :: cs := by
        intro h
        exact hc (List.cons_prefix_cons.mp h).1.symm
      rw [splitAt_cons_of_ne hc hruns, hruns]
      simp [hbegin]

/-- Where `old` becomes a separator, a text without separators is split. -/
theorem splitAt_map_replace {old sep : Char} {cs : List Char} (hcs : sep ∉ cs) :
    splitAt sep (cs.map fun c => if c = old then sep else c) = splitAt old cs := by
  induction cs with
  | nil => rfl
  | cons c cs ih =>
    obtain ⟨hc, hcs⟩ : sep ≠ c ∧ sep ∉ cs := by simpa using hcs
    obtain ⟨runs, hruns⟩ := splitAt_eq_cons old cs
    rw [List.map_cons]
    by_cases hold : c = old
    · rw [if_pos hold, hold, splitAt_cons_sep, splitAt_cons_sep, ih hcs]
    · rw [if_neg hold, splitAt_cons_of_ne hold hruns, splitAt_cons_of_ne hc.symm ((ih hcs).trans hruns)]

/-- Pieces put together with separators are split further where `old` becomes a separator. -/
theorem split_replaceChar_intercalate {old sep : Char} {pieces : List String} (hne : pieces ≠ [])
    (h : ∀ s ∈ pieces, sep ∉ s.toList) (hold : sep ≠ old) :
    split sep (replaceChar old sep (String.intercalate (String.singleton sep) pieces)) =
      pieces.flatMap (split old) := by
  have hpiece : ∀ {s : String}, sep ∉ s.toList → split sep (replaceChar old sep s) = split old s := by
    intro s hs
    rw [split, replaceChar, String.toList_ofList, splitAt_map_replace hs, split]
  induction pieces with
  | nil => exact absurd rfl hne
  | cons s rest ih =>
    have hs := h s List.mem_cons_self
    cases rest with
    | nil => simpa using hpiece hs
    | cons t rest =>
      have hrest := ih (List.cons_ne_nil t rest) fun u hu => h u (List.mem_cons_of_mem s hu)
      rw [List.flatMap_cons, ← hrest, ← hpiece hs]
      simp only [split, replaceChar, toList_intercalate_cons_cons, String.toList_ofList, List.map_append,
        List.map_cons, if_neg hold, splitAt_append_cons]

end Text

/-! ## Markers between slashes -/

section Marker

variable {d : String} {segments : List String}

/-- A path given as text is a test iff the name is a segment of it, and another one is before it and behind it. -/
theorem isTestSource_slashes_iff (hd : '/' ∉ d.toList) (path : String) :
    isTestSource ("/" ++ d ++ "/") path = true ↔
      d ∈ (Text.split '/' (Text.replaceChar '\\' '/' path)).tail.dropLast := by
  have hmarker : ("/" ++ d ++ "/").toList = '/' :: (d.toList ++ ['/']) := by
    rw [String.toList_append, String.toList_append]
    rfl
  rw [isTestSource, PathSpelling.isTestSource, Text.contains_iff, hmarker, PathSpelling.slashed,
    Text.between_infix_iff hd, ← Text.map_toList_split, ← List.map_tail, ← List.map_dropLast]
  constructor
  · intro h
    obtain ⟨s, hs, hlist⟩ := List.mem_map.mp h
    rwa [← String.toList_inj.mp hlist]
  · intro h
    exact List.mem_map.mpr ⟨d, h, rfl⟩

/-- An absolute path is a test iff the name is what stands before, behind or between the backslashes of some segment,
or the segment itself, and not the end of the path. -/
theorem isTestSource_absolute_iff (hd : '/' ∉ d.toList) (hsegments : ∀ s ∈ segments, '/' ∉ s.toList) :
    isTestSource ("/" ++ d ++ "/") ("/" ++ String.intercalate "/" segments) = true ↔
      d ∈ (segments.flatMap (Text.split '\\')).dropLast := by
  have hroot : Text.split '/' (Text.replaceChar '\\' '/' ("/" ++ String.intercalate "/" segments)) =
      "" :: Text.split '/' (Text.replaceChar '\\' '/' (String.intercalate "/" segments)) := by
    simp [Text.split, Text.replaceChar, Text.splitAt_cons_sep]
  rw [isTestSource_slashes_iff hd, hroot, List.tail_cons]
  by_cases hne : segments = []
  · subst hne
    simp [Text.split, Text.replaceChar]
  · have hsplit := Text.split_replaceChar_intercalate hne hsegments (by decide : '/' ≠ '\\')
    rw [show "/" = String.singleton '/' from rfl, hsplit]

theorem isTestSource_iff_mem_dropLast (hd : '/' ∉ d.toList)
    (hsegments : ∀ s ∈ segments, '/' ∉ s.toList ∧ '\\' ∉ s.toList) :
    isTestSource ("/" ++ d ++ "/") ("/" ++ String.intercalate "/" segments) = true ↔ d ∈ segments.dropLast := by
  have hwhole : segments.flatMap (Text.split '\\') = segments := by
    have hone : ∀ s ∈ segments, Text.split '\\' s = [s] := fun s hs => Text.split_of_notMem (hsegments s hs).2
    rw [List.flatMap_congr hone, List.flatMap_singleton']
  rw [isTestSource_absolute_iff hd fun s hs => (hsegments s hs).1, hwhole]

end Marker

/-! ## Directories above a source -/

namespace FileSystem

variable {fs : FileSystem} {d : String}

/-- Below a directory of that name, at whatever depth, there is what stands at the path. -/
def LiesBelow (fs : FileSystem) (p : Path) (d : String) : Prop :=
  ∃ above below entries, p.segments = above ++ d :: below ∧ below ≠ [] ∧
    fs.entry? (above ++ [d]) = some (.directory d entries)

theorem entry?_append (fs : FileSystem) (way rest : List String) :
    fs.entry? (way ++ rest) = fs.entry? way >>= fun e => rest.foldlM (fun e name => e.child? name) e :=
  List.foldlM_append

/-- All but the end of a way that leads somewhere are directories. -/
theorem exists_directory_above {above below : List String} {e : Entry}
    (h : fs.entry? (above ++ d :: below) = some e) (hbelow : below ≠ []) :
    ∃ entries, fs.entry? (above ++ [d]) = some (.directory d entries) := by
  obtain ⟨next, rest, rfl⟩ := List.exists_cons_of_ne_nil hbelow
  rw [List.append_cons, entry?_append] at h
  obtain ⟨c, hc, hrest⟩ := Option.bind_eq_some_iff.mp h
  have hname : c.name = d := by
    rw [entry?_append] at hc
    obtain ⟨b, -, hchild⟩ := Option.bind_eq_some_iff.mp hc
    have hchild : b.child? d = some c := by simpa using hchild
    cases b with
    | file => cases hchild
    | link => cases hchild
    | directory top entries => simpa using List.find?_some hchild
  rw [List.foldlM_cons] at hrest
  obtain ⟨b, hb, -⟩ := Option.bind_eq_some_iff.mp hrest
  cases c with
  | file => cases hb
  | link => cases hb
  | directory top entries =>
    cases hname
    exact ⟨entries, hc⟩

/-- What stands at a path lies below exactly the directories that its segments name, but for the last one. -/
theorem liesBelow_iff {p : Path} {e : Entry} (h : fs.entry? p.segments = some e) :
    fs.LiesBelow p d ↔ d ∈ p.segments.dropLast := by
  constructor
  · rintro ⟨above, below, entries, hsegments, hbelow, -⟩
    rw [hsegments, List.dropLast_append_of_ne_nil (List.cons_ne_nil d below), List.dropLast_cons_of_ne_nil hbelow]
    exact List.mem_append_right above List.mem_cons_self
  · intro hd
    obtain ⟨above, between, hdrop⟩ := List.append_of_mem hd
    have hne : p.segments ≠ [] := by
      rintro hnil
      simp [hnil] at hd
    have hsegments : p.segments = above ++ d :: (between ++ [p.segments.getLast hne]) := by
      rw [← List.cons_append, ← List.append_assoc, ← hdrop, List.dropLast_append_getLast]
    rw [hsegments] at h
    obtain ⟨entries, hentry⟩ := exists_directory_above h (by simp)
    exact ⟨above, _, entries, hsegments, by simp, hentry⟩

end FileSystem

namespace Sources

theorem exists_file_of_mem_collect {fs : FileSystem} {arguments : List Path} {excludes : List String} {p : Path}
    (h : p ∈ collect fs arguments excludes) : ∃ name bytes, fs.entry? p.segments = some (.file name bytes) := by
  obtain ⟨-, argument, -, hstands⟩ := mem_collect_iff.mp h
  cases hstands with
  | below _ _ _ hleads => exact hleads.2
  | itself _ _ hleads => exact hleads.2

/-- A source that is collected is a test iff it lies below a directory of that name. -/
theorem isTestSource_iff_liesBelow {fs : FileSystem} {arguments : List Path} {excludes : List String} {p : Path}
    {d : String} (hd : '/' ∉ d.toList) (hp : p ∈ collect fs arguments excludes)
    (hplain : ∀ s ∈ p.segments, '\\' ∉ s.toList) :
    isTestSource ("/" ++ d ++ "/") p.text = true ↔ fs.LiesBelow p d := by
  have hcanonical := isCanonical_of_mem_collect hp
  obtain ⟨name, bytes, hentry⟩ := exists_file_of_mem_collect hp
  have htext : p.text = "/" ++ String.intercalate "/" p.segments := by
    rw [← String.toList_inj, hcanonical.toList_text, String.toList_append]
    rfl
  have hsegments : ∀ s ∈ p.segments, '/' ∉ s.toList ∧ '\\' ∉ s.toList := by
    intro s hs
    obtain ⟨-, -, -, hslash⟩ := Path.isName_iff.mp (hcanonical.isName s hs)
    exact ⟨hslash, hplain s hs⟩
  rw [htext, isTestSource_iff_mem_dropLast hd hsegments, FileSystem.liesBelow_iff hentry]

end Sources

namespace Rule

theorem appliesTo_iff {r : Rule} {path : String} :
    r.appliesTo path = true ↔ ¬ isTestSource r.testMarker path = true ∧ Glob.Spare r.settings.excludes path := by
  rw [appliesTo, Bool.and_eq_true, Bool.not_eq_true', Bool.not_eq_true', ← Bool.not_eq_true, Glob.spare_iff]

end Rule

namespace Run

theorem testMarker_of_mem_rulesOf {c : Settings} {r : Rule} (h : r ∈ rulesOf c) : r.testMarker = c.testMarker := by
  rw [rulesOf_eq] at h
  obtain ⟨check, -, rfl⟩ := List.mem_map.mp (List.mem_of_mem_filter h)
  rfl

/-- Nothing is found in a source that no rule looks at. -/
theorem findings_outcome_of_left_alone [Parser] {fs : FileSystem} {rules : List Rule} {p : Path}
    (h : ∀ r ∈ rules, r.appliesTo p.text ≠ true) : (outcome fs rules p).findings = [] := by
  rw [outcome_eq]
  cases hread : readSource fs p with
  | error e => rfl
  | ok file =>
    obtain ⟨package, text, rfl⟩ := eq_of_readSource hread
    show (Analysis.report _ rules).items = []
    rw [Analysis.report_items, List.flatMap_eq_nil_iff]
    intro e _
    rw [List.map_eq_nil_iff, List.filter_eq_nil_iff]
    intro r hr hviolated
    have hcovers := (of_decide_eq_true hviolated).1
    exact h r hr (Rule.covers_iff.mp hcovers).2

/-- Tests are what lies below a directory of that name. If the marker is a name between slashes, an absolute path
whose names hold no backslashes is a test iff the name is one of its segments, but not the last one. So of the sources
of a run a rule leaves alone, for being tests, exactly those that lie below a directory of that name, and nothing is
found there. Names that only begin with the name or contain it do not matter, and the name of the source itself does
not either. If names hold backslashes, the parts between them count as segments. -/
theorem tests_lie_below_directory [Parser] (d : String) (hd : '/' ∉ d.toList) :
    (∀ segments : List String, (∀ s ∈ segments, '/' ∉ s.toList ∧ '\\' ∉ s.toList) →
      (isTestSource ("/" ++ d ++ "/") ("/" ++ String.intercalate "/" segments) = true ↔ d ∈ segments.dropLast)) ∧
    (∀ segments : List String, (∀ s ∈ segments, '/' ∉ s.toList) →
      (isTestSource ("/" ++ d ++ "/") ("/" ++ String.intercalate "/" segments) = true ↔
        d ∈ (segments.flatMap (Text.split '\\')).dropLast)) ∧
    ∀ (fs : FileSystem) (arguments : List Path) (c : Settings) (result : RunResult),
      c.testMarker = "/" ++ d ++ "/" → ComesOut fs arguments c result →
      ∀ p ∈ Sources.collect fs arguments c.excludes, (∀ s ∈ p.segments, '\\' ∉ s.toList) →
        (∀ r ∈ rulesOf c,
          (isTestSource r.testMarker p.text = true ↔ fs.LiesBelow p d) ∧
          (r.appliesTo p.text = true ↔ ¬ fs.LiesBelow p d ∧ Glob.Spare r.settings.excludes p.text)) ∧
        (fs.LiesBelow p d → ∀ f ∈ result.findings, f.path ≠ p.text) := by
  refine ⟨fun segments h => isTestSource_iff_mem_dropLast hd h, fun segments h => isTestSource_absolute_iff hd h, ?_⟩
  intro fs arguments c result hmarker hresult p hp hplain
  have hrule : ∀ r ∈ rulesOf c, isTestSource r.testMarker p.text = true ↔ fs.LiesBelow p d := by
    intro r hr
    rw [testMarker_of_mem_rulesOf hr, hmarker]
    exact Sources.isTestSource_iff_liesBelow hd hp hplain
  have happlies : ∀ r ∈ rulesOf c,
      (r.appliesTo p.text = true ↔ ¬ fs.LiesBelow p d ∧ Glob.Spare r.settings.excludes p.text) := by
    intro r hr
    rw [Rule.appliesTo_iff, hrule r hr]
  refine ⟨fun r hr => ⟨hrule r hr, happlies r hr⟩, ?_⟩
  intro hbelow f hf hpath
  have hnone : (outcome fs (rulesOf c) p).findings = [] :=
    findings_outcome_of_left_alone fun r hr h => ((happlies r hr).mp h).1 hbelow
  rw [hresult.eq_lint] at hf
  have hmem : f ∈ (outcome fs (rulesOf c) p).findings := by
    rw [← filter_findings result.elapsed hp]
    exact List.mem_filter.mpr ⟨hf, decide_eq_true hpath⟩
  rw [hnone] at hmem
  cases hmem

/-! ### Names that resemble the one of the tests -/

namespace TestProject

/-- A project with a source below a directory for tests, and with one whose names only resemble that. -/
def files (content : ByteArray) : FileSystem :=
  ((FileSystem.empty ⟨"/", ["w"]⟩).add ⟨"", ["test", "a", "B.kt"]⟩ (.file content)).add
    ⟨"", ["testing", "mytest", "test.kt"]⟩ (.file content)

/-- The source below the directory for tests. -/
def test : Path :=
  ⟨"/", ["w", "test", "a", "B.kt"]⟩

/-- The other source. -/
def resembling : Path :=
  ⟨"/", ["w", "testing", "mytest", "test.kt"]⟩

variable (content : ByteArray)

/-- The entries of the working directory. -/
def top : List Entry :=
  [.directory "test" [.directory "a" [.file "B.kt" content]],
    .directory "testing" [.directory "mytest" [.file "test.kt" content]]]

theorem lookup_working : (files content).lookup ⟨"", []⟩ = .ok (.directory "w" (top content)) := by
  cbv

variable {content} in
theorem mem_of_reaches {way : List String} {e : Entry} {p : Path} (hreaches : Entry.Reaches (top content) way e)
    (hname : Sources.IsSourceName e.name) (hleads : (files content).LeadsToFile ⟨"", [] ++ way⟩ p) :
    p ∈ Sources.collect (files content) [⟨"", []⟩] [] :=
  Sources.mem_collect_iff.mpr ⟨fun _ h => absurd h List.not_mem_nil, _, List.mem_cons_self,
    .below (lookup_working content) hreaches hname hleads⟩

theorem test_mem : test ∈ Sources.collect (files content) [⟨"", []⟩] [] := by
  have hreaches : Entry.Reaches (top content) ["test", "a", "B.kt"] (.file "B.kt" content) :=
    .inside List.mem_cons_self (.inside List.mem_cons_self (.here List.mem_cons_self))
  exact mem_of_reaches hreaches ⟨"B", by decide, Or.inl rfl⟩ ⟨by cbv, "B.kt", content, by cbv⟩

theorem resembling_mem : resembling ∈ Sources.collect (files content) [⟨"", []⟩] [] := by
  have hreaches : Entry.Reaches (top content) ["testing", "mytest", "test.kt"] (.file "test.kt" content) :=
    .inside (List.mem_cons_of_mem _ List.mem_cons_self) (.inside List.mem_cons_self (.here List.mem_cons_self))
  exact mem_of_reaches hreaches ⟨"test", by decide, Or.inl rfl⟩ ⟨by cbv, "test.kt", content, by cbv⟩

theorem read_resembling : (files content).read resembling = .ok content := by
  cbv

theorem test_liesBelow : (files content).LiesBelow test "test" :=
  ⟨["w"], ["a", "B.kt"], [.directory "a" [.file "B.kt" content]], rfl, by decide, by cbv⟩

theorem resembling_not_liesBelow : ¬ (files content).LiesBelow resembling "test" := by
  have hentry : FileSystem.entry? (files content) resembling.segments = some (.file "test.kt" content) := by
    cbv
  rw [FileSystem.liesBelow_iff hentry]
  decide

end TestProject

/-- A run leaves the source below the directory for tests alone, and not the one whose names resemble it: of two
sources with the same content only the second one has findings. -/
theorem tests_of_resembling_names :
    let fs := TestProject.files ThrowingSource.text.toUTF8
    let c := DomainSource.settings
    let result := lint fs [⟨"", []⟩] c (.whole 0)
    let r := c.ruleOf .forbiddenImport
    (isTestSource ("/" ++ "test" ++ "/") ("/" ++ String.intercalate "/" ["testing", "mytest", "test"]) = true ↔
        "test" ∈ ["testing", "mytest", "test"].dropLast) ∧
      (isTestSource ("/" ++ "test" ++ "/") ("/" ++ String.intercalate "/" ["w\\test", "B.kt"]) = true ↔
        "test" ∈ (["w\\test", "B.kt"].flatMap (Text.split '\\')).dropLast) ∧
      fs.LiesBelow TestProject.test "test" ∧ ¬ r.appliesTo TestProject.test.text = true ∧
      (∀ f ∈ result.findings, f.path ≠ TestProject.test.text) ∧
      ¬ fs.LiesBelow TestProject.resembling "test" ∧ r.appliesTo TestProject.resembling.text = true ∧
      result.findings.filter (fun f => f.path = TestProject.resembling.text) =
        [ThrowingSource.importFinding TestProject.resembling.text,
          ThrowingSource.throwFinding TestProject.resembling.text] := by
  intro fs c result r
  have hr : r ∈ rulesOf c := List.mem_filter.mpr ⟨List.mem_map.mpr ⟨.forbiddenImport, by decide, rfl⟩, rfl⟩
  obtain ⟨hplain, hbackslash, hrun⟩ := tests_lie_below_directory "test" (by decide)
  have hresult := hrun fs [⟨"", []⟩] c result rfl (comesOut_lint fs [⟨"", []⟩] c (.whole 0))
  obtain ⟨htest, hnothing⟩ := hresult TestProject.test (TestProject.test_mem _) (by decide)
  obtain ⟨hresembling, -⟩ := hresult TestProject.resembling (TestProject.resembling_mem _) (by decide)
  have hbelow := TestProject.test_liesBelow ThrowingSource.text.toUTF8
  have hnot := TestProject.resembling_not_liesBelow ThrowingSource.text.toUTF8
  have hspare : Glob.Spare r.settings.excludes TestProject.resembling.text :=
    fun _ h => absurd h List.not_mem_nil
  have hfound : (outcome fs (rulesOf c) TestProject.resembling).findings =
      [ThrowingSource.importFinding TestProject.resembling.text,
        ThrowingSource.throwFinding TestProject.resembling.text] := by
    rw [ThrowingSource.outcome_eq ThrowingSource.tree_eq (TestProject.read_resembling _)]
    decide
  exact ⟨hplain _ (by decide), hbackslash _ (by decide), hbelow, fun h => ((htest r hr).2.mp h).1 hbelow,
    hnothing hbelow, hnot, (hresembling r hr).2.mpr ⟨hnot, hspare⟩,
    (filter_findings _ (TestProject.resembling_mem _)).trans hfound⟩

end Run

end Strata
