import Strata.Proofs.Search
import Strata.Proofs.Traversal
import Strata.SourceFile

/-!
# Dotted names hold no blanks

Packages and the paths of imports are read off the same kind of node, and in both cases the pieces between the blanks
of its text are joined, which deletes the blanks (`Text.join_pieces`). So no package and no path that a rule looks at
holds a blank, however the source is laid out.
-/

namespace Strata

namespace Text

/-- The text without its blanks. -/
def deleteBlanks (s : String) : String :=
  String.ofList (s.toList.filter fun c => !isBlank c)

/-- No character of the text is a blank. -/
def BlankFree (s : String) : Prop :=
  ∀ c ∈ s.toList, isBlank c = false

theorem blankFree_iff {s : String} : BlankFree s ↔ s.toList.all (fun c => !isBlank c) = true := by
  simp [BlankFree]

instance (s : String) : Decidable (BlankFree s) :=
  decidable_of_iff _ blankFree_iff.symm

/-- Joining the pieces of a text deletes its blanks. -/
theorem join_pieces (s : String) : String.join (pieces s) = deleteBlanks s := by
  have hpieces : (pieces s).flatMap String.toList =
      ((splitWhere isBlank s.toList).filter fun piece => !piece.isEmpty).flatten := by
    simp [pieces, List.flatMap_def, Function.comp_def]
  rw [← String.toList_inj, String.toList_join, hpieces, List.flatten_filter_not_isEmpty, flatten_splitWhere,
    deleteBlanks, String.toList_ofList]

theorem blankFree_deleteBlanks (s : String) : BlankFree (deleteBlanks s) := by
  intro c hc
  rw [deleteBlanks, String.toList_ofList, List.mem_filter] at hc
  simpa using hc.2

theorem blankFree_empty : BlankFree "" := by
  decide

theorem BlankFree.notMem {s : String} {c : Char} (h : BlankFree s) (hc : isBlank c = true) : c ∉ s.toList := by
  intro hmem
  rw [h c hmem] at hc
  cases hc

end Text

namespace Syntax

open Text (BlankFree)

namespace Node

theorem dottedPath_of_decode {n c : Node} {s : String} (hchild : n.pathChild? = some c)
    (hdecode : Text.Utf8.decode c.text = .ok s) :
    n.dottedPath = .ok (if Text.deleteBlanks s = "" then none else some (Text.deleteBlanks s)) := by
  simp only [dottedPath, hchild, hdecode, Text.join_pieces]

/-- A dotted path is never empty, and it is the text of the first named path below the node without its blanks. -/
theorem dottedPath_eq_some_iff {n : Node} {path : String} :
    n.dottedPath = .ok (some path) ↔
      path ≠ "" ∧ ∃ c s, n.pathChild? = some c ∧ Text.Utf8.decode c.text = .ok s ∧ path = Text.deleteBlanks s := by
  cases hchild : n.pathChild? with
  | none => simp [dottedPath, hchild]
  | some c =>
    cases hdecode : Text.Utf8.decode c.text with
    | error f => simp [dottedPath, hchild, hdecode]
    | ok s =>
      rw [dottedPath_of_decode hchild hdecode]
      by_cases hempty : Text.deleteBlanks s = ""
      · simp [hdecode, hempty]
      · simp only [hempty, if_false, Except.ok.injEq, Option.some.injEq]
        constructor
        · rintro rfl
          exact ⟨hempty, c, s, rfl, hdecode, rfl⟩
        · rintro ⟨-, c', s', hc', hs', rfl⟩
          cases hc'
          rw [hdecode] at hs'
          cases hs'
          rfl

theorem blankFree_of_dottedPath {n : Node} {path : String} (h : n.dottedPath = .ok (some path)) :
    BlankFree path := by
  obtain ⟨-, c, s, -, -, rfl⟩ := dottedPath_eq_some_iff.mp h
  exact Text.blankFree_deleteBlanks s

theorem blankFree_of_packageName {root : Node} {package : String} (h : root.packageName = .ok package) :
    BlankFree package := by
  unfold packageName at h
  cases hheader : root.children.find? fun c => c.kind = "package_header" with
  | none =>
    rw [hheader] at h
    cases h
    exact Text.blankFree_empty
  | some header =>
    rw [hheader] at h
    cases hpath : header.dottedPath with
    | error f =>
      simp only [hpath] at h
      cases h
    | ok path =>
      simp only [hpath] at h
      cases h
      cases path with
      | none => exact Text.blankFree_empty
      | some path => exact blankFree_of_dottedPath hpath

/-- The path of an import that a tree tells of is the dotted path of an import in it. -/
theorem dottedPath_of_mem_readings {root : Node} {path : Option String} {location : Location}
    (h : .ok (.imported path location) ∈ root.readings) :
    ∃ n ∈ root.visits, n.isImport = true ∧ n.dottedPath = .ok path ∧ n.location = location := by
  rw [readings_eq_flatMap_visits, List.mem_flatMap] at h
  obtain ⟨n, hn, hsight⟩ := h
  refine ⟨n, hn, ?_⟩
  rw [sights] at hsight
  by_cases himport : n.isImport = true
  · rw [if_pos himport, List.mem_singleton, importEvent] at hsight
    cases hpath : n.dottedPath with
    | error f =>
      rw [hpath] at hsight
      cases hsight
    | ok path' =>
      rw [hpath] at hsight
      cases hsight
      exact ⟨himport, rfl, rfl⟩
  · -- a node that is no import tells of throws only
    rw [if_neg himport, throwEvents] at hsight
    split at hsight
    · simp at hsight
    · simp at hsight

end Node

theorem mem_readings_of_mem_toldOf {readings : List (Except Text.Utf8.Fault Event)} {e : Event}
    (h : e ∈ (toldOf readings).items) : .ok e ∈ readings := by
  induction readings with
  | nil => cases h
  | cons reading readings ih =>
    cases reading with
    | error f => cases h
    | ok e' =>
      rw [toldOf] at h
      rcases List.mem_cons.mp h with rfl | h
      · exact List.mem_cons_self
      · exact List.mem_cons_of_mem _ (ih h)

/-- No path that a walk tells of holds a blank. -/
theorem blankFree_of_mem_walk {root : Node} {path : String} {location : Location}
    (h : .imported (some path) location ∈ (walk root).items) : BlankFree path := by
  rw [walk_eq_toldOf] at h
  obtain ⟨n, -, -, hpath, -⟩ := Node.dottedPath_of_mem_readings (mem_readings_of_mem_toldOf h)
  exact Node.blankFree_of_dottedPath hpath

end Syntax

end Strata
