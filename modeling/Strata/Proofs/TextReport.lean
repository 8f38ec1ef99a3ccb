import Mathlib.Tactic
import Strata.Proofs.Numerals
import Strata.Proofs.Search
import Strata.Proofs.Wrap
import Strata.Report

/-!
# The report for a person

The report is a list of texts, each wrapped to the width of the report. Of what it says (`transcript`) nothing is lost
but spaces and line ends, and no line is longer than the width (`text_keeps_transcript_in_width`).

Wrapping bounds the cells of a line and not its characters, and what it deletes are blanks of all kinds. For texts of
simple characters, such as those of ASCII that can be printed, both are the same.
-/

namespace Strata

namespace Text

/-- All characters of the text are simple. -/
def IsSimple (s : String) : Prop :=
  ∀ c ∈ s.toList, isSimple c = true

/-- All characters of the text are characters of ASCII that can be printed. -/
def IsAscii (s : String) : Prop :=
  ∀ c ∈ s.toList, 0x20 ≤ c.toNat ∧ c.toNat ≤ 0x7E

theorem isSimple_of_all {s : String} (h : s.toList.all isSimple = true) : IsSimple s :=
  List.all_eq_true.mp h

theorem isAscii_of_all {s : String} (h : s.toList.all (fun c => 0x20 ≤ c.toNat && c.toNat ≤ 0x7E) = true) :
    IsAscii s := by
  intro c hc
  simpa using List.all_eq_true.mp h c hc

theorem IsAscii.isSimple {s : String} (h : IsAscii s) : IsSimple s :=
  fun c hc => isSimple_of_ascii (h c hc)

theorem IsSimple.append {s t : String} (hs : IsSimple s) (ht : IsSimple t) : IsSimple (s ++ t) := by
  intro c hc
  rw [String.toList_append, List.mem_append] at hc
  exact hc.elim (hs c) (ht c)

theorem isSimple_of_isDigit {c : Char} (h : c.isDigit = true) : isSimple c = true := by
  have hbounds := Json.toNat_of_isDigit h
  exact isSimple_of_ascii (by omega)

theorem isSimple_toDigits (n : Nat) : ∀ c ∈ Nat.toDigits 10 n, isSimple c = true :=
  fun c hc => isSimple_of_isDigit ((Json.isDigits_toDigits n).isDigit c hc)

theorem isSimple_toString_nat (n : Nat) : IsSimple (toString n) := by
  intro c hc
  exact isSimple_toDigits n c (by simpa using hc)

theorem isSimple_toString_int (n : Int) : IsSimple (toString n) := by
  intro c hc
  rcases Json.mem_toString_int hc with rfl | hdigit
  · decide
  · exact isSimple_of_isDigit hdigit

theorem isSimple_fixed (places : Nat) (x : Float) : IsSimple (Decimal.fixed places x) := by
  -- the sign is put before characters that are simple
  have hsigned : ∀ (negative : Bool) (cs : List Char), (∀ c ∈ cs, isSimple c = true) →
      IsSimple (String.ofList (if negative then '-' :: cs else cs)) := by
    intro negative cs hcs c hc
    rw [String.toList_ofList] at hc
    split at hc
    · rcases List.mem_cons.mp hc with rfl | hc
      · decide
      · exact hcs c hc
    · exact hcs c hc
  have hpadded : ∀ width n, ∀ c ∈ Text.padded width n, isSimple c = true := by
    intro width n c hc
    rcases List.mem_append.mp hc with hc | hc
    · rw [List.eq_of_mem_replicate hc]
      decide
    · exact isSimple_toDigits n c hc
  unfold Decimal.fixed
  cases Decimal.Binary.ofFloat x with
  | nan =>
    show IsSimple "nan"
    exact isSimple_of_all (by decide)
  | infinite negative => exact hsigned negative _ (List.all_eq_true.mp (by decide))
  | finite negative m q narrow =>
    refine hsigned negative _ fun c hc => ?_
    split at hc
    · exact isSimple_toDigits _ c hc
    · rcases List.mem_append.mp hc with hc | hc
      · exact isSimple_toDigits _ c hc
      · rcases List.mem_cons.mp hc with rfl | hc
        · decide
        · exact hpadded _ _ c hc

@[simp]
theorem deleteSpaces_append (cs ds : List Char) : deleteSpaces (cs ++ ds) = deleteSpaces cs ++ deleteSpaces ds :=
  List.filter_append cs ds

theorem deleteSpaces_flatMap {α : Type*} (f : α → List Char) (xs : List α) :
    deleteSpaces (xs.flatMap f) = xs.flatMap fun x => deleteSpaces (f x) :=
  List.filter_flatMap ..

end Text

/-- The names of rules, the paths and the messages in the result are ASCII that can be printed. -/
structure RunResult.IsAscii (r : RunResult) : Prop where
  findings : ∀ f ∈ r.findings, Text.IsAscii f.rule ∧ Text.IsAscii f.path ∧ Text.IsAscii f.message
  failures : ∀ f ∈ r.failures, Text.IsAscii f.path ∧ Text.IsAscii f.message

namespace Report

/-! ## What a report says -/

/-- How many findings there are, in words. -/
def tally (count : Nat) : String :=
  if count = 0 then "✓ No findings" else toString count ++ " " ++ (if count = 1 then "finding" else "findings")

/-- What a report says: how much was looked at, each finding with its rule and its place, each failure, and how many
findings there are. -/
def transcript (r : RunResult) : List String :=
  ["Rules: " ++ toString r.rulesEvaluated ++ " active", "Files: " ++ toString r.filesScanned ++ " scanned"] ++
  (r.findings.flatMap fun f =>
    ["✗ " ++ f.rule,
      f.path ++ ":" ++ toString f.location.line ++ ":" ++ toString f.location.column ++ " → " ++ f.message]) ++
  (r.failures.map fun f => "! " ++ f.path ++ ": " ++ f.message) ++
  [tally r.findings.length ++ " (" ++ toString r.rulesEvaluated ++ " rules evaluated, " ++
    Decimal.fixed 1 r.elapsed.seconds ++ "s)"]

variable (r : RunResult)

/-! ## Line ends -/

theorem isSimple_summaryLine : Text.IsSimple (summaryLine r) := by
  have hliteral : ∀ {s : String}, s.toList.all Text.isSimple = true → Text.IsSimple s := Text.isSimple_of_all
  unfold summaryLine
  dsimp only
  refine Text.IsSimple.append ?_ (hliteral (by decide))
  refine Text.IsSimple.append ?_ (Text.isSimple_fixed 1 _)
  refine Text.IsSimple.append ?_ (hliteral (by decide))
  refine Text.IsSimple.append ?_ (Text.isSimple_toString_int _)
  refine Text.IsSimple.append ?_ (hliteral (by decide))
  split
  · exact hliteral (by decide)
  · split
    · exact hliteral (by decide)
    · exact (Text.isSimple_toString_nat _).append (hliteral (by decide))

theorem join_lines {lines : List String} (h : lines ≠ []) :
    String.join (lines.map fun line => line ++ "\n") = String.intercalate "\n" lines ++ "\n" := by
  induction lines with
  | nil => exact absurd rfl h
  | cons line lines ih =>
    cases lines with
    | nil => simp
    | cons next lines =>
      rw [List.map_cons, String.join_cons, ih (List.cons_ne_nil _ _), String.intercalate_cons_cons,
        String.append_assoc, String.append_assoc, String.append_assoc]

theorem exists_toList_intercalate (front : List String) (last : String) :
    ∃ before, (String.intercalate "\n" (front ++ [last])).toList = before ++ last.toList := by
  by_cases hfront : front = []
  · exact ⟨[], by simp [hfront]⟩
  · rw [String.intercalate_append_of_ne_nil hfront (List.cons_ne_nil last []), String.intercalate_singleton,
      String.toList_append]
    exact ⟨_, rfl⟩

theorem newline_notMem_of_mem_lines {line : String} (h : line ∈ lines r) : '\n' ∉ line.toList := by
  obtain ⟨s, -, hwrap⟩ := List.mem_flatMap.mp h
  exact Text.newline_notMem_of_mem_wrap (by decide) hwrap

theorem exists_lines_eq : ∃ front last, lines r = front ++ [last] ∧ last ≠ "" := by
  have hne : summaryLine r ≠ "" := by
    intro hempty
    have hlength := congrArg String.length hempty
    simp [summaryLine] at hlength
  obtain ⟨last, hlast, hlast_ne⟩ := Text.exists_getLast?_wrap (by decide : 0 < width) (isSimple_summaryLine r) hne
  obtain ⟨front, hwrap⟩ := List.getLast?_eq_some_iff.mp hlast
  have hlines : ∃ before, lines r = before ++ Text.wrap width (summaryLine r) :=
    ⟨_, by rw [lines, paragraphs, List.flatMap_append, List.flatMap_singleton]⟩
  obtain ⟨before, hlines⟩ := hlines
  exact ⟨before ++ front, last, by rw [hlines, hwrap, List.append_assoc], hlast_ne⟩

/-- Of the line ends that are printed only the last one is taken away: the last line is not empty. -/
theorem text_eq_intercalate : text r = String.intercalate "\n" (lines r) := by
  obtain ⟨front, last, hlines, hlast⟩ := exists_lines_eq r
  obtain ⟨before, hbefore⟩ := exists_toList_intercalate front last
  have hfeed : '\n' ∉ last.toList := newline_notMem_of_mem_lines r (by rw [hlines]; simp)
  have hends : ∀ c ∈ (String.intercalate "\n" (front ++ [last])).toList.getLast?, decide (c = '\n') = false := by
    intro c hc
    rw [hbefore, List.getLast?_append_of_ne_nil _ (by simpa using hlast)] at hc
    exact decide_eq_false fun hc' => hfeed (hc' ▸ List.mem_of_getLast? hc)
  rw [text, hlines, join_lines (by simp), String.toList_append,
    Text.dropEndWhile_append_of_getLast? (List.all_eq_true.mp (by decide)) hends, String.ofList_toList]

/-- The lines of the report are those that it is made of. -/
theorem split_text : Text.split '\n' (text r) = lines r := by
  obtain ⟨front, last, hlines, -⟩ := exists_lines_eq r
  rw [text_eq_intercalate, show "\n" = String.singleton '\n' from rfl]
  exact Text.split_intercalate (by simp [hlines]) fun line hline => newline_notMem_of_mem_lines r hline

/-! ## What is seen -/

theorem visible_intercalate (lines : List String) :
    Text.visible (String.intercalate "\n" lines).toList = Text.visible (lines.flatMap String.toList) := by
  induction lines with
  | nil => rfl
  | cons line lines ih =>
    cases lines with
    | nil => simp
    | cons next lines =>
      have hcons : (String.intercalate "\n" (line :: next :: lines)).toList =
          line.toList ++ '\n' :: (String.intercalate "\n" (next :: lines)).toList :=
        Text.toList_intercalate_cons_cons '\n' line next lines
      rw [hcons, List.flatMap_cons, Text.visible_append, Text.visible_append,
        Text.visible_cons_of_blank (by decide), ih]

theorem visible_text : Text.visible (text r).toList = Text.visible ((paragraphs r).flatMap String.toList) := by
  have hwrap : ∀ s : String, Text.visible ((Text.wrap width s).flatMap String.toList) = Text.visible s.toList :=
    Text.visible_wrap (by decide)
  rw [text_eq_intercalate, lines, visible_intercalate, List.flatMap_assoc, Text.visible, List.filter_flatMap,
    Text.visible, List.filter_flatMap]
  exact List.flatMap_congr fun s _ => hwrap s

theorem text_ne_empty : text r ≠ "" := by
  intro hempty
  have hvisible := visible_text r
  rw [hempty, paragraphs] at hvisible
  simp [Text.visible, Text.isBlank, Text.isDropped] at hvisible

theorem deleteSpaces_findings (fs : List Finding) :
    Text.deleteSpaces ((fs.flatMap fun f => [findingHeader f, findingLine f, ""]).flatMap String.toList) =
      Text.deleteSpaces ((fs.flatMap fun f => ["✗ " ++ f.rule, f.path ++ ":" ++ toString f.location.line ++ ":" ++
        toString f.location.column ++ " → " ++ f.message]).flatMap String.toList) := by
  rw [List.flatMap_assoc, List.flatMap_assoc, Text.deleteSpaces_flatMap, Text.deleteSpaces_flatMap]
  refine List.flatMap_congr fun f _ => ?_
  simp [Text.deleteSpaces, findingHeader, findingLine, Location.text]

theorem tally_eq (count : Nat) : tally count =
    if count = 0 then "✓ No findings" else if count = 1 then "1 finding" else toString count ++ " findings" := by
  unfold tally
  by_cases hone : count = 1
  · subst hone
    decide
  · rw [if_neg hone, if_neg hone, String.append_assoc]
    rfl

theorem deleteSpaces_paragraphs : Text.deleteSpaces ((paragraphs r).flatMap String.toList) =
    Text.deleteSpaces (String.join (transcript r)).toList := by
  have hgap : ∀ none : Bool,
      Text.deleteSpaces ((if none then [] else [""] : List String).flatMap String.toList) = [] := by
    decide
  have hsummary : summaryLine r = tally r.findings.length ++ " (" ++ toString r.rulesEvaluated ++
      " rules evaluated, " ++ Decimal.fixed 1 r.elapsed.seconds ++ "s)" := by
    rw [tally_eq, summaryLine]
  have hfailures : r.failures.map failureLine = r.failures.map fun f => "! " ++ f.path ++ ": " ++ f.message := rfl
  rw [String.toList_join, paragraphs, transcript, hsummary, hfailures]
  simp only [List.flatMap_append, Text.deleteSpaces_append, hgap, deleteSpaces_findings]
  simp

/-! ## Characters and lines -/

variable {r}

theorem isSimple_findingLine {f : Finding} (hpath : Text.IsSimple f.path) (hmessage : Text.IsSimple f.message) :
    Text.IsSimple (findingLine f) := by
  have hlocation : Text.IsSimple f.location.text :=
    ((Text.isSimple_toString_int _).append (Text.isSimple_of_all (by decide))).append (Text.isSimple_toString_int _)
  unfold findingLine
  refine Text.IsSimple.append ?_ hmessage
  refine Text.IsSimple.append ?_ (Text.isSimple_of_all (by decide))
  refine Text.IsSimple.append ?_ hlocation
  refine Text.IsSimple.append ?_ (Text.isSimple_of_all (by decide))
  exact Text.IsSimple.append (Text.isSimple_of_all (by decide)) hpath

theorem isSimple_failureLine {f : Failure} (hpath : Text.IsSimple f.path) (hmessage : Text.IsSimple f.message) :
    Text.IsSimple (failureLine f) := by
  unfold failureLine
  refine Text.IsSimple.append ?_ hmessage
  refine Text.IsSimple.append ?_ (Text.isSimple_of_all (by decide))
  exact Text.IsSimple.append (Text.isSimple_of_all (by decide)) hpath

theorem isSimple_of_mem_paragraphs (h : r.IsAscii) {s : String} (hs : s ∈ paragraphs r) : Text.IsSimple s := by
  have hcount : ∀ (n : Int) {before after : String}, before.toList.all Text.isSimple = true →
      after.toList.all Text.isSimple = true → Text.IsSimple (before ++ toString n ++ after) := by
    intro n before after hbefore hafter
    exact ((Text.isSimple_of_all hbefore).append (Text.isSimple_toString_int n)).append (Text.isSimple_of_all hafter)
  have hblank : Text.IsSimple "" := Text.isSimple_of_all rfl
  simp only [paragraphs, List.mem_append, List.mem_cons, List.not_mem_nil, or_false, List.mem_flatMap,
    List.mem_map] at hs
  rcases hs with (((hs | ⟨f, hf, hs⟩) | ⟨f, hf, rfl⟩) | hs) | rfl
  · rcases hs with rfl | rfl | rfl
    · exact hcount _ (by decide) (by decide)
    · exact hcount _ (by decide) (by decide)
    · exact hblank
  · obtain ⟨hrule, hpath, hmessage⟩ := h.findings f hf
    rcases hs with rfl | rfl | rfl
    · exact Text.IsSimple.append (Text.isSimple_of_all (by decide)) hrule.isSimple
    · exact isSimple_findingLine hpath.isSimple hmessage.isSimple
    · exact hblank
  · obtain ⟨hpath, hmessage⟩ := h.failures f hf
    exact isSimple_failureLine hpath.isSimple hmessage.isSimple
  · split at hs
    · cases hs
    · rw [List.mem_singleton.mp hs]
      exact hblank
  · exact isSimple_summaryLine r

theorem isSimple_of_mem_lines (h : r.IsAscii) {line : String} (hline : line ∈ lines r) : Text.IsSimple line := by
  obtain ⟨s, hs, hline⟩ := List.mem_flatMap.mp hline
  intro c hc
  rcases Text.mem_of_mem_wrap (by decide) hline hc with rfl | hc
  · decide
  · exact isSimple_of_mem_paragraphs h hs c hc

theorem visible_eq_deleteSpaces_text (h : r.IsAscii) :
    Text.visible (text r).toList = Text.deleteSpaces (text r).toList := by
  refine Text.visible_eq_deleteSpaces fun c hc => ?_
  rw [text_eq_intercalate, show "\n" = String.singleton '\n' from rfl] at hc
  rcases Text.mem_intercalate hc with rfl | ⟨line, hline, hc⟩
  · exact Or.inr rfl
  · exact Or.inl (isSimple_of_mem_lines h hline c hc)

theorem visible_eq_deleteSpaces_paragraphs (h : r.IsAscii) :
    Text.visible ((paragraphs r).flatMap String.toList) = Text.deleteSpaces ((paragraphs r).flatMap String.toList) := by
  refine Text.visible_eq_deleteSpaces fun c hc => ?_
  obtain ⟨s, hs, hc⟩ := List.mem_flatMap.mp hc
  exact Or.inl (isSimple_of_mem_paragraphs h hs c hc)

/-- The report has all that it has to say, up to spaces and line ends, on lines of 120 characters at most. -/
theorem text_keeps_transcript_in_width (h : r.IsAscii) :
    Text.deleteSpaces (text r).toList = Text.deleteSpaces (String.join (transcript r)).toList ∧
      ∀ line ∈ Text.split '\n' (text r), line.length ≤ 120 := by
  refine ⟨?_, fun line hline => ?_⟩
  · calc Text.deleteSpaces (text r).toList
        = Text.visible (text r).toList := (visible_eq_deleteSpaces_text h).symm
      _ = Text.visible ((paragraphs r).flatMap String.toList) := visible_text r
      _ = Text.deleteSpaces ((paragraphs r).flatMap String.toList) := visible_eq_deleteSpaces_paragraphs h
      _ = Text.deleteSpaces (String.join (transcript r)).toList := deleteSpaces_paragraphs r
  · rw [split_text] at hline
    obtain ⟨s, -, hwrap⟩ := List.mem_flatMap.mp hline
    have hcells : Text.cells line.toList ≤ width := Text.cells_le_of_mem_wrap hwrap
    rwa [Text.cells_eq_length (isSimple_of_mem_lines h hline), String.length_toList] at hcells

/-- A run with a path that is longer than a line and messages that have runs of spaces. -/
def longPath : RunResult where
  findings := [⟨"ForbiddenImport", String.ofList (List.replicate 130 'a'), ⟨3, 1, none, none⟩, "Import  'b.*'", .error⟩]
  failures := [⟨"c.kt", "cannot be   read"⟩]
  rulesEvaluated := 2
  filesScanned := 14
  elapsed := .whole 100

theorem isAscii_longPath : longPath.IsAscii := by
  have hpath : Text.IsAscii (String.ofList (List.replicate 130 'a')) := by
    intro c hc
    rw [String.toList_ofList] at hc
    rw [List.eq_of_mem_replicate hc]
    decide
  constructor
  · intro f hf
    rw [List.mem_singleton.mp hf]
    exact ⟨Text.isAscii_of_all (by decide), hpath, Text.isAscii_of_all (by decide)⟩
  · intro f hf
    rw [List.mem_singleton.mp hf]
    exact ⟨Text.isAscii_of_all (by decide), Text.isAscii_of_all (by decide)⟩

theorem text_of_longPath_in_width : longPath.IsAscii ∧
    Text.deleteSpaces (text longPath).toList = Text.deleteSpaces (String.join (transcript longPath)).toList ∧
      ∀ line ∈ Text.split '\n' (text longPath), line.length ≤ 120 :=
  ⟨isAscii_longPath, text_keeps_transcript_in_width isAscii_longPath⟩

end Report

end Strata
