import Strata.Proofs.PathOrder
import Strata.TestSource

/-!
# The spelling of a path does not decide whether it is a test

A path is handed over as a plain text, in the convention with slashes or in the one with drives, and each of the three
is made a text with slashes in its own way. A `PortablePath` is one that all of them can write: its segments name
something and hold no separator and no colon. However it is written, the text with slashes comes out
(`slashed_plain`, `slashed_withDrives`, `slashed_posix`), and that is the text which is searched for the marker.

Reading a portable path finds nothing to leave out: behind its anchor stand its segments, of which none is empty or a
single dot, and there is one separator between any two of them.
-/

namespace Strata

/-! ## Paths that every convention can write -/

/-- A segment that is the same in every convention: it names something and holds no separator, and no colon, which
marks a drive. -/
structure Path.IsPortable (s : String) : Prop where
  isSegment : Path.isSegment s = true
  slash : '/' ∉ s.toList
  backslash : '\\' ∉ s.toList
  colon : ':' ∉ s.toList

instance (s : String) : Decidable (Path.IsPortable s) :=
  decidable_of_iff (Path.isSegment s = true ∧ '/' ∉ s.toList ∧ '\\' ∉ s.toList ∧ ':' ∉ s.toList)
    ⟨fun ⟨hsegment, hslash, hbackslash, hcolon⟩ => ⟨hsegment, hslash, hbackslash, hcolon⟩,
      fun h => ⟨h.isSegment, h.slash, h.backslash, h.colon⟩⟩

/-- What stands in front of the segments of a path. Any character but a separator may stand for a drive. -/
inductive Anchor where
  | none
  | root
  | drive (letter : Char) (proper : letter ≠ '/' ∧ letter ≠ '\\')

/-- The anchor with that separator. -/
def Anchor.chars (sep : Char) : Anchor → List Char
  | none => []
  | root => [sep]
  | drive letter _ => [letter, ':', sep]

/-- A path that every convention can write. -/
structure PortablePath where
  anchor : Anchor
  segments : List String
  nonempty : segments ≠ []
  portable : ∀ s ∈ segments, Path.IsPortable s

/-- The two characters that separate segments. -/
def IsSeparator (c : Char) : Prop :=
  c = '/' ∨ c = '\\'

theorem IsSeparator.replace_eq {sep : Char} (h : IsSeparator sep) : (if sep = '\\' then '/' else sep) = '/' := by
  rcases h with rfl | rfl <;> decide

/-- The segments with a separator between any two, of either kind. -/
inductive Joins : List String → List Char → Prop
  | single (s : String) : Joins [s] s.toList
  | cons (s : String) {sep : Char} (hsep : IsSeparator sep) {rest : List String} {cs : List Char}
      (h : Joins rest cs) : Joins (s :: rest) (s.toList ++ sep :: cs)

namespace PortablePath

variable (p : PortablePath)

/-- The path with slashes. -/
def text : String :=
  String.ofList (p.anchor.chars '/') ++ String.intercalate "/" p.segments

/-- The text is the path, written with any mix of separators. -/
def WrittenAs (text : String) : Prop :=
  ∃ sep cs, IsSeparator sep ∧ Joins p.segments cs ∧ text.toList = p.anchor.chars sep ++ cs

theorem isWhole : ∀ s ∈ p.segments, Path.IsWhole s :=
  fun s hs => ⟨(p.portable s hs).isSegment, (p.portable s hs).slash⟩

/-- The segments in the convention with slashes, where a drive is a segment like any other. -/
def slashSegments : List String :=
  match p.anchor with
  | .none | .root => p.segments
  | .drive letter _ => String.ofList [letter, ':'] :: p.segments

theorem slashSegments_ne_nil : p.slashSegments ≠ [] := by
  unfold slashSegments
  split
  · exact p.nonempty
  · exact p.nonempty
  · exact List.cons_ne_nil _ _

theorem isWhole_slashSegments : ∀ s ∈ p.slashSegments, Path.IsWhole s := by
  unfold slashSegments
  split
  · exact p.isWhole
  · exact p.isWhole
  · next letter hletter _ =>
    rw [List.forall_mem_cons]
    refine ⟨⟨?_, ?_⟩, p.isWhole⟩
    · simp [Path.isSegment, ← String.toList_inj]
    · simp [hletter.1.symm]

/-- A drive is what stands before the first slash. -/
theorem text_of_drive {letter : Char} {h : letter ≠ '/' ∧ letter ≠ '\\'} (hanchor : p.anchor = .drive letter h) :
    p.text = String.intercalate "/" p.slashSegments := by
  obtain ⟨s, rest, hsegments⟩ := List.exists_cons_of_ne_nil p.nonempty
  have htext : (String.intercalate "/" (String.ofList [letter, ':'] :: s :: rest)).toList =
      (String.ofList [letter, ':']).toList ++ '/' :: (String.intercalate "/" (s :: rest)).toList :=
    Text.toList_intercalate_cons_cons '/' _ s rest
  rw [← String.toList_inj, slashSegments, hanchor, text, hanchor, hsegments]
  dsimp only
  rw [htext, String.toList_append, String.toList_ofList, String.toList_ofList]
  rfl

/-! ## The text with slashes -/

/-- The separators are all that differs from the path with slashes. -/
theorem map_replace_of_joins {segments : List String} {cs : List Char} (h : Joins segments cs)
    (hplain : ∀ s ∈ segments, '\\' ∉ s.toList) :
    cs.map (fun c => if c = '\\' then '/' else c) = (String.intercalate "/" segments).toList := by
  induction h with
  | single s =>
    rw [Text.map_replace_of_notMem (hplain s List.mem_cons_self)]
    simp
  | cons s hsep h ih =>
    rw [List.map_append, List.map_cons, hsep.replace_eq, Text.map_replace_of_notMem (hplain s List.mem_cons_self),
      ih fun t ht => hplain t (List.mem_cons_of_mem s ht)]
    cases h with
    | single t => exact (Text.toList_intercalate_cons_cons '/' s t []).symm
    | cons t => exact (Text.toList_intercalate_cons_cons '/' s t _).symm

theorem map_replace_anchor {sep : Char} (hsep : IsSeparator sep) (a : Anchor) :
    (a.chars sep).map (fun c => if c = '\\' then '/' else c) = a.chars '/' := by
  cases a with
  | none => rfl
  | root => simp [Anchor.chars, hsep.replace_eq]
  | drive letter h => simp [Anchor.chars, hsep.replace_eq, h.2]

variable {p}

theorem WrittenAs.replaceChar_eq {text : String} (h : p.WrittenAs text) :
    Text.replaceChar '\\' '/' text = p.text := by
  obtain ⟨sep, cs, hsep, hjoins, htext⟩ := h
  rw [← String.toList_inj, Text.replaceChar, String.toList_ofList, htext, List.map_append, map_replace_anchor hsep,
    map_replace_of_joins hjoins fun s hs => (p.portable s hs).backslash, PortablePath.text, String.toList_append,
    String.toList_ofList]

theorem slashed_plain {text : String} (h : p.WrittenAs text) : (PathSpelling.plain text).slashed = p.text :=
  h.replaceChar_eq

end PortablePath

namespace DrivePath

/-- Without two slashes in front there is no share. -/
theorem splitAnchor_eq_splitDrive {cs : List Char} (h : ¬ ['/', '/'] <+: cs) : splitAnchor cs = splitDrive cs := by
  unfold splitAnchor
  split
  · exact absurd ⟨_, rfl⟩ h
  · exact absurd ⟨_, rfl⟩ h
  · exact absurd ⟨_, rfl⟩ h
  · rfl

/-- Whole segments behind an anchor are normal already. -/
theorem normalise_eq {text : String} {anchor rest : List Char} {segments : List String}
    (hsplit : splitAnchor (Text.replaceChar '\\' '/' text).toList = (anchor, rest)) (hne : segments ≠ [])
    (hwhole : ∀ s ∈ segments, Path.IsWhole s) (hrest : rest = (String.intercalate "/" segments).toList) :
    normalise text = String.ofList anchor ++ String.intercalate "/" segments := by
  unfold normalise
  rw [hsplit]
  dsimp only
  rw [hrest, String.ofList_toList, Path.filter_split_intercalate hne hwhole,
    if_neg (Path.append_intercalate_ne_empty _ hne hwhole)]

end DrivePath

namespace PortablePath

variable {p : PortablePath}

theorem colon_notMem : ':' ∉ (String.intercalate "/" p.segments).toList := by
  intro h
  rw [show "/" = String.singleton '/' from rfl] at h
  rcases Text.mem_intercalate h with hsep | ⟨s, hs, hcolon⟩
  · exact absurd hsep (by decide)
  · exact (p.portable s hs).colon hcolon

/-- The anchor is found, unless no drive has such a name: then it belongs to the first segment. -/
theorem splitAnchor_text (p : PortablePath) :
    DrivePath.splitAnchor p.text.toList =
        (p.anchor.chars '/', (String.intercalate "/" p.segments).toList) ∨
      p.text = String.intercalate "/" p.slashSegments ∧ DrivePath.splitAnchor p.text.toList = ([], p.text.toList) := by
  have hcolon := p.colon_notMem
  obtain ⟨c, cs, hcs, hc⟩ := Path.exists_head_intercalate p.nonempty p.isWhole
  have htext : p.text.toList = p.anchor.chars '/' ++ c :: cs := by
    rw [text, String.toList_append, String.toList_ofList, hcs]
  rw [hcs] at hcolon ⊢
  cases hanchor : p.anchor with
  | none =>
    refine Or.inl ?_
    rw [htext, hanchor, Anchor.chars, List.nil_append,
      DrivePath.splitAnchor_eq_splitDrive fun h => hc (List.cons_prefix_cons.mp h).1.symm]
    unfold DrivePath.splitDrive
    split
    · next heq =>
      rw [heq] at hcolon
      simp at hcolon
    · next heq => exact absurd (List.cons.inj heq).1 hc
    · rfl
  | root =>
    refine Or.inl ?_
    have hroot : ¬ ['/', '/'] <+: '/' :: c :: cs := by
      intro h
      exact hc (List.cons_prefix_cons.mp (List.cons_prefix_cons.mp h).2).1.symm
    have hdrop : (c :: cs).dropWhile (fun d => d = '/') = c :: cs := List.dropWhile_cons_of_neg (by simpa using hc)
    rw [htext, hanchor, Anchor.chars, List.singleton_append, DrivePath.splitAnchor_eq_splitDrive hroot]
    unfold DrivePath.splitDrive
    split
    · next heq =>
      rw [(List.cons.inj (List.cons.inj heq).2).1] at hcolon
      simp at hcolon
    · next heq => rw [← (List.cons.inj heq).2, hdrop]
    · next hslash => exact absurd rfl (hslash _)
  | drive letter h =>
    have hdrive : ¬ ['/', '/'] <+: letter :: ':' :: '/' :: c :: cs :=
      fun hprefix => h.1 (List.cons_prefix_cons.mp hprefix).1.symm
    have hdrop : ('/' :: c :: cs).dropWhile (fun d => d = '/') = c :: cs := by
      rw [List.dropWhile_cons_of_pos (by decide), List.dropWhile_cons_of_neg (by simpa using hc)]
    have hlist : p.text.toList = letter :: ':' :: '/' :: c :: cs := by
      rw [htext, hanchor]
      rfl
    rw [hlist, DrivePath.splitAnchor_eq_splitDrive hdrive, DrivePath.splitDrive]
    by_cases hletter : DrivePath.isDriveLetter letter = true
    · refine Or.inl ?_
      rw [if_pos hletter, List.head?_cons, if_pos rfl, hdrop]
      rfl
    · refine Or.inr ⟨p.text_of_drive hanchor, ?_⟩
      rw [if_neg hletter]

theorem slashed_withDrives {text : String} (h : p.WrittenAs text) :
    (PathSpelling.withDrives text).slashed = p.text := by
  rw [PathSpelling.slashed]
  rcases p.splitAnchor_text with hsplit | ⟨htext, hsplit⟩
  · rw [← h.replaceChar_eq] at hsplit
    exact DrivePath.normalise_eq hsplit p.nonempty p.isWhole rfl
  · have hrest := congrArg String.toList htext
    rw [← h.replaceChar_eq] at hsplit
    rw [← h.replaceChar_eq] at hrest
    rw [DrivePath.normalise_eq hsplit p.slashSegments_ne_nil p.isWhole_slashSegments hrest, htext]
    rfl

theorem slashed_posix (p : PortablePath) : (PathSpelling.posix p.text).slashed = p.text := by
  rw [PathSpelling.slashed]
  cases hanchor : p.anchor with
  | none =>
    have htext : p.text = "" ++ String.intercalate "/" p.segments := by
      rw [text, hanchor]
      rfl
    rw [htext, String.empty_append, Path.parse_intercalate p.nonempty p.isWhole,
      Path.text_eq_append "" p.nonempty p.isWhole, String.empty_append]
  | root =>
    have htext : p.text = "/" ++ String.intercalate "/" p.segments := by
      rw [text, hanchor]
      rfl
    rw [htext, Path.parse_root_intercalate p.isWhole, Path.text_eq_append "/" p.nonempty p.isWhole]
  | drive letter h =>
    rw [p.text_of_drive hanchor, Path.parse_intercalate p.slashSegments_ne_nil p.isWhole_slashSegments,
      Path.text_eq_append "" p.slashSegments_ne_nil p.isWhole_slashSegments, String.empty_append]

/-- How a path is written does not decide whether it is a test. A portable path that is written with any mix of
separators is a test as a plain text iff it is one in the convention with drives, and iff the path with slashes is one
in the convention with slashes; and that is so iff the marker occurs in the path with slashes. -/
theorem tests_in_every_spelling (p : PortablePath) {text : String} (h : p.WrittenAs text) (marker : String) :
    (PathSpelling.withDrives text).isTestSource marker = (PathSpelling.plain text).isTestSource marker ∧
      (PathSpelling.posix p.text).isTestSource marker = (PathSpelling.plain text).isTestSource marker ∧
      ((PathSpelling.plain text).isTestSource marker = true ↔ marker.toList <:+: p.text.toList) := by
  unfold PathSpelling.isTestSource
  rw [slashed_withDrives h, slashed_plain h, slashed_posix p]
  exact ⟨rfl, rfl, Text.contains_iff⟩

/-- A source on a drive. -/
def onDrive : PortablePath where
  anchor := .drive 'C' (by decide)
  segments := ["repo", "src", "test", "Foo.kt"]
  nonempty := by decide
  portable := by decide

/-- A test is one in all three spellings, although its separators are mixed. -/
theorem tests_of_mixed_separators :
    onDrive.WrittenAs "C:\\repo/src\\test/Foo.kt" ∧
      (PathSpelling.plain "C:\\repo/src\\test/Foo.kt").isTestSource "/test/" = true ∧
      (PathSpelling.withDrives "C:\\repo/src\\test/Foo.kt").isTestSource "/test/" = true ∧
      (PathSpelling.posix onDrive.text).isTestSource "/test/" = true := by
  have hjoins : Joins onDrive.segments _ :=
    .cons "repo" (Or.inl rfl) (.cons "src" (Or.inr rfl) (.cons "test" (Or.inl rfl) (.single "Foo.kt")))
  have hwritten : onDrive.WrittenAs "C:\\repo/src\\test/Foo.kt" :=
    ⟨'\\', _, Or.inr rfl, hjoins, by decide⟩
  obtain ⟨hdrives, hposix, hplain⟩ := tests_in_every_spelling onDrive hwritten "/test/"
  have htest := hplain.mpr ⟨"C:/repo/src".toList, "Foo.kt".toList, by decide⟩
  exact ⟨hwritten, htest, hdrives.trans htest, hposix.trans htest⟩

end PortablePath

end Strata
