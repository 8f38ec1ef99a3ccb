import Mathlib.Data.List.Lex
import Mathlib.Data.List.Infix
import Strata.FileSystem.Basic
import Strata.Proofs.Search
import Strata.Proofs.StableSort

/-!
# The order of paths, and paths as texts

Paths are compared part by part, and texts by code points. The two orders differ: `a-b/c` comes before `a/c` as
a text and after it as a path. What they share is that neither mixes up two canonical paths, since the text of a
canonical path can be read back.
-/

namespace Strata

namespace Path

/-! ## Paths in the order of their parts -/

/-- The parts of a path by which it is compared. -/
def parts (p : Path) : List String :=
  p.root :: p.segments

theorem parts_injective {p q : Path} (h : p.parts = q.parts) : p = q := by
  obtain ⟨hroot, hsegments⟩ := List.cons.inj h
  cases p
  cases q
  simp_all

theorem compareSegments_iff {as bs : List String} : le.compareSegments as bs = true ↔ as ≤ bs := by
  fun_induction le.compareSegments as bs with
  | case1 bs => simp [← not_lt]
  | case2 a as => simp
  | case3 a as bs ih =>
    rw [ih, ← not_lt, ← not_lt, List.cons_lt_cons_iff]
    simp
  | case4 a as b bs hab =>
    rw [Text.lexLE_iff, ← not_lt, ← not_lt, List.cons_lt_cons_iff]
    simp [Ne.symm hab]

/-- Paths are compared by the lexicographic order of their parts. -/
theorem le_iff (p q : Path) : p.le q = true ↔ p.parts ≤ q.parts :=
  compareSegments_iff

/-! ## Paths as texts -/

/-- A segment that reading a path finds again: it names something and holds no slash. -/
def IsWhole (s : String) : Prop :=
  isSegment s = true ∧ '/' ∉ s.toList

section Whole

variable {segments : List String}

/-- Whole segments are found again between the slashes. -/
theorem filter_split_intercalate (hne : segments ≠ []) (h : ∀ s ∈ segments, IsWhole s) :
    (Text.split '/' (String.intercalate "/" segments)).filter isSegment = segments := by
  have hsplit : Text.split '/' (String.intercalate "/" segments) = segments :=
    Text.split_intercalate hne fun s hs => (h s hs).2
  rw [hsplit, List.filter_eq_self]
  exact fun s hs => (h s hs).1

/-- The text of whole segments begins with no slash. -/
theorem exists_head_intercalate (hne : segments ≠ []) (h : ∀ s ∈ segments, IsWhole s) :
    ∃ c cs, (String.intercalate "/" segments).toList = c :: cs ∧ c ≠ '/' := by
  obtain ⟨s, rest, rfl⟩ := List.exists_cons_of_ne_nil hne
  obtain ⟨hs, hslash⟩ := h s List.mem_cons_self
  have hempty : s.toList ≠ [] := by
    intro hnil
    rw [String.toList_eq_nil_iff.mp hnil] at hs
    exact absurd hs (by decide)
  obtain ⟨c, cs, hcs⟩ := List.exists_cons_of_ne_nil hempty
  have hc : c ≠ '/' := by
    rintro rfl
    exact hslash (by simp [hcs])
  cases rest with
  | nil => exact ⟨c, cs, by simpa using hcs, hc⟩
  | cons t rest =>
    have htext : (String.intercalate "/" (s :: t :: rest)).toList =
        s.toList ++ '/' :: (String.intercalate "/" (t :: rest)).toList :=
      Text.toList_intercalate_cons_cons '/' s t rest
    exact ⟨c, cs ++ '/' :: (String.intercalate "/" (t :: rest)).toList, by rw [htext, hcs, List.cons_append], hc⟩

theorem append_intercalate_ne_empty (root : String) (hne : segments ≠ []) (h : ∀ s ∈ segments, IsWhole s) :
    root ++ String.intercalate "/" segments ≠ "" := by
  obtain ⟨c, cs, hcs, -⟩ := exists_head_intercalate hne h
  rw [Ne, ← String.toList_inj, String.toList_append, hcs]
  simp

theorem text_eq_append (root : String) (hne : segments ≠ []) (h : ∀ s ∈ segments, IsWhole s) :
    text ⟨root, segments⟩ = root ++ String.intercalate "/" segments := by
  simp only [text, if_neg (append_intercalate_ne_empty root hne h)]

theorem parse_intercalate (hne : segments ≠ []) (h : ∀ s ∈ segments, IsWhole s) :
    parse (String.intercalate "/" segments) = ⟨"", segments⟩ := by
  obtain ⟨c, cs, hcs, hc⟩ := exists_head_intercalate hne h
  have hslashes : (String.intercalate "/" segments).toList.takeWhile (fun d => d = '/') = [] := by
    rw [hcs, List.takeWhile_cons_of_neg (by simpa using hc)]
  simp only [parse, hslashes, filter_split_intercalate hne h, List.length_nil]

theorem parse_root_intercalate (h : ∀ s ∈ segments, IsWhole s) :
    parse ("/" ++ String.intercalate "/" segments) = ⟨"/", segments⟩ := by
  by_cases hne : segments = []
  · rw [hne]
    decide
  obtain ⟨c, cs, hcs, hc⟩ := exists_head_intercalate hne h
  have hlist : ("/" ++ String.intercalate "/" segments).toList = '/' :: c :: cs := by
    rw [String.toList_append, hcs]
    rfl
  have hslashes : ('/' :: c :: cs).takeWhile (fun d => d = '/') = ['/'] := by
    rw [List.takeWhile_cons_of_pos (by decide), List.takeWhile_cons_of_neg (by simpa using hc)]
  have hsplit : Text.split '/' ("/" ++ String.intercalate "/" segments) =
      "" :: Text.split '/' (String.intercalate "/" segments) := by
    rw [Text.split, hlist, Text.splitAt_cons_sep, ← hcs]
    rfl
  have hfilter : (Text.split '/' ("/" ++ String.intercalate "/" segments)).filter isSegment = segments := by
    rw [hsplit, List.filter_cons_of_neg (by decide), filter_split_intercalate hne h]
  simp only [parse, hlist, hslashes, hfilter, List.length_singleton]

end Whole

/-! ## Canonical paths -/

/-- A path that starts at the root and goes through proper names only. -/
structure IsCanonical (p : Path) : Prop where
  root_eq : p.root = "/"
  isName : ∀ s ∈ p.segments, Entry.isName s = true

theorem isName_iff {s : String} : Entry.isName s = true ↔ s ≠ "" ∧ s ≠ "." ∧ s ≠ ".." ∧ '/' ∉ s.toList := by
  simp [Entry.isName, and_assoc]

theorem isWhole_of_isName {s : String} (h : Entry.isName s = true) : IsWhole s := by
  obtain ⟨hempty, hdot, -, hslash⟩ := isName_iff.1 h
  exact ⟨by simp [isSegment, hempty, hdot], hslash⟩

theorem IsCanonical.toList_text {p : Path} (h : p.IsCanonical) :
    p.text.toList = '/' :: (String.intercalate "/" p.segments).toList := by
  have hne : "/" ++ String.intercalate "/" p.segments ≠ "" := by
    rw [Ne, ← String.toList_inj, String.toList_append]
    simp
  rw [text, h.root_eq]
  simp only [if_neg hne, String.toList_append]
  rfl

/-- The text of a canonical path is read as that path. -/
theorem IsCanonical.parse_text {p : Path} (h : p.IsCanonical) : parse p.text = p := by
  have htext : p.text = "/" ++ String.intercalate "/" p.segments := by
    rw [← String.toList_inj, h.toList_text, String.toList_append]
    rfl
  have hparse := parse_root_intercalate fun s hs => isWhole_of_isName (h.isName s hs)
  rw [htext, hparse, ← h.root_eq]

theorem IsCanonical.text_injective {p q : Path} (hp : p.IsCanonical) (hq : q.IsCanonical)
    (h : p.text = q.text) : p = q := by
  rw [← hp.parse_text, h, hq.parse_text]

end Path

end Strata
