import Mathlib.Data.List.Nodup
import Strata.Proofs.PathOrder
import Strata.Sources

/-!
# The sources of a run are canonical and in order

Looking a path up ends at a canonical path, because only names of entries are put on the way that was gone. So the
sources of a run are canonical, they stand in the order of their parts, and no two have the same text.
-/

namespace Strata

namespace Entry

/-- The entries of a directory. -/
def entries : Entry → List Entry
  | directory _ entries => entries
  | file _ _ | link _ _ => []

theorem AllWellNamed.child? {e d : Entry} (h : AllWellNamed e.entries) {name : String}
    (hd : e.child? name = some d) : AllWellNamed d.entries := by
  cases e with
  | file => simp [Entry.child?] at hd
  | link => simp [Entry.child?] at hd
  | directory top inner =>
    have hnamed : d.WellNamed := (AllWellNamed.find? h hd).1
    cases d with
    | file => exact trivial
    | link => exact trivial
    | directory => exact hnamed.2

theorem AllWellNamed.foldlM_child? {e d : Entry} (h : AllWellNamed e.entries) {way : List String}
    (hd : way.foldlM (fun e name => e.child? name) e = some d) : AllWellNamed d.entries := by
  induction way generalizing e with
  | nil =>
    rw [List.foldlM_nil] at hd
    cases hd
    exact h
  | cons name way ih =>
    rw [List.foldlM_cons] at hd
    obtain ⟨c, hc, hd⟩ := Option.bind_eq_some_iff.1 hd
    exact ih (h.child? hc) hd

end Entry

namespace FileSystem

/-- The directories of a file system hold properly named entries. -/
theorem wellNamed_of_entry_eq {fs : FileSystem} {way : List String} {name : String} {entries : List Entry}
    (h : fs.entry? way = some (.directory name entries)) : Entry.AllWellNamed entries :=
  Entry.AllWellNamed.foldlM_child? (e := .directory "" fs.entries) fs.wellNamed h

/-- Whatever is on the way of a lookup, links and dots included, the way that was gone in the end has proper names
only. -/
theorem isName_of_follow {fs : FileSystem} {links : Nat} {here segments way : List String}
    (hhere : ∀ s ∈ here, Entry.isName s = true) (h : fs.follow links here segments = .ok way) :
    ∀ s ∈ way, Entry.isName s = true := by
  fun_induction FileSystem.follow fs links here segments with
  | case1 =>
    cases h
    exact hhere
  | case2 links here rest name entries hentry ih => exact ih hhere h
  | case3 links here rest name entries hentry _ ih =>
    exact ih (fun s hs => hhere s (List.mem_of_mem_dropLast hs)) h
  | case4 => cases h
  | case5 => cases h
  | case6 here s rest name entries hentry _ _ link target hfind links start ih =>
    -- a link is followed from the root or from here, so nothing is added to the way
    refine ih (fun t ht => ?_) h
    by_cases habs : target.startsWith "/" = true
    · simp [start, habs] at ht
    · simp only [start, habs] at ht
      exact hhere t ht
  | case7 links here s rest name entries hentry _ _ e hlink hfind ih =>
    have he := (wellNamed_of_entry_eq hentry).find? hfind
    have hs : Entry.isName s = true := he.2 ▸ he.1.isName_name
    refine ih (fun t ht => ?_) h
    rcases List.mem_append.1 ht with ht | ht
    · exact hhere t ht
    · exact List.mem_singleton.1 ht ▸ hs
  | case8 => cases h
  | case9 => cases h

/-- Looking a path up ends at a canonical path. -/
theorem isCanonical_of_resolve {fs : FileSystem} {p q : Path} (h : fs.resolve p = .ok q) : q.IsCanonical := by
  have hstart : ∀ s ∈ (if p.isAbsolute then [] else fs.working), Entry.isName s = true := by
    intro s hs
    split at hs
    · cases hs
    · exact fs.workingNamed s hs
  rw [resolve] at h
  cases hway : fs.follow linkLimit (if p.isAbsolute then [] else fs.working) p.segments with
  | error e =>
    rw [hway] at h
    cases h
  | ok way =>
    rw [hway] at h
    cases h
    exact ⟨rfl, isName_of_follow hstart hway⟩

end FileSystem

namespace Sources

theorem isCanonical_of_regularFile? {fs : FileSystem} {p q : Path} (h : regularFile? fs p = some q) :
    q.IsCanonical := by
  rw [regularFile?] at h
  split at h
  · cases h
  · next canonical hresolve =>
    split at h
    · cases h
      exact FileSystem.isCanonical_of_resolve hresolve
    · cases h

theorem isCanonical_of_ofArgument? {fs : FileSystem} {argument p : Path} {found : List Path}
    (h : ofArgument? fs argument = some found) (hp : p ∈ found) : p.IsCanonical := by
  rw [ofArgument?] at h
  split at h
  · cases h
  · next canonical hresolve =>
    split at h
    · cases h
      obtain ⟨way, -, hway⟩ := List.mem_filterMap.1 hp
      exact isCanonical_of_regularFile? hway
    · split at h
      · cases h
        rw [List.mem_singleton.1 hp]
        exact FileSystem.isCanonical_of_resolve hresolve
      · cases h
    · cases h

/-! ## Dropping repeats -/

theorem mem_dropRepeats {p : Path} {l : List Path} : p ∈ dropRepeats l ↔ p ∈ l := by
  fun_induction dropRepeats l with
  | case1 q rest ih => simp only [List.mem_cons, ih, or_self_left]
  | case2 q r rest hne ih => simp only [List.mem_cons, ih]
  | case3 => rfl

/-- A sorted list without its repeats is strictly sorted. -/
theorem pairwise_dropRepeats {l : List Path} (h : l.Pairwise fun p q => p.parts ≤ q.parts) :
    (dropRepeats l).Pairwise fun p q => p.parts < q.parts := by
  fun_induction dropRepeats l with
  | case1 q rest ih => exact ih h.of_cons
  | case2 p q rest hne ih =>
    refine List.pairwise_cons.2 ⟨fun r hr => ?_, ih h.of_cons⟩
    -- `r` is not below `q`, which is above `p`
    have hpq : p.parts < q.parts :=
      lt_of_le_of_ne (List.rel_of_pairwise_cons h List.mem_cons_self) fun heq => hne (Path.parts_injective heq)
    exact lt_of_lt_of_le hpq (StableSort.head_key_le h.of_cons (mem_dropRepeats.1 hr))
  | case3 l hl =>
    match l, hl with
    | [], _ => exact List.Pairwise.nil
    | [p], _ => exact List.pairwise_singleton _ p
    | p :: q :: rest, hl => exact absurd rfl (hl p q rest)

/-! ## What is collected -/

/-- The sources that an argument stands for. -/
def found (fs : FileSystem) (argument : Path) : List Path :=
  (ofArgument? fs argument).getD []

theorem found_of_directory {fs : FileSystem} {argument canonical : Path} {name : String} {entries : List Entry}
    (hresolve : fs.resolve argument = .ok canonical)
    (hentry : fs.entry? canonical.segments = some (.directory name entries)) :
    found fs argument = ofDirectory fs argument entries := by
  rw [found, ofArgument?, hresolve]
  simp only [hentry, Option.getD_some]

theorem collect_eq (fs : FileSystem) (arguments : List Path) (excludes : List String) :
    collect fs arguments excludes = dropRepeats
      (((arguments.flatMap (found fs)).filter fun p => !Glob.anyAccepts excludes p.text).mergeSort Path.le) :=
  rfl

theorem collect_of_found {fs : FileSystem} {argument p : Path} (h : found fs argument = [p]) :
    collect fs [argument] [] = [p] := by
  rw [collect_eq, List.flatMap_singleton, h, List.filter_cons_of_pos rfl, List.filter_nil, List.mergeSort_singleton]
  rfl

/-- What is collected: the sources of the arguments that no exclude matches. -/
theorem mem_collect {fs : FileSystem} {arguments : List Path} {excludes : List String} {p : Path} :
    p ∈ collect fs arguments excludes ↔
      (∃ argument ∈ arguments, p ∈ found fs argument) ∧ Glob.anyAccepts excludes p.text = false := by
  rw [collect, mem_dropRepeats, List.mem_mergeSort, List.mem_filter, List.mem_flatMap, Bool.not_eq_true']
  rfl

/-- The sources of a run are canonical. -/
theorem isCanonical_of_mem_collect {fs : FileSystem} {arguments : List Path} {excludes : List String} {p : Path}
    (h : p ∈ collect fs arguments excludes) : p.IsCanonical := by
  obtain ⟨⟨argument, -, hp⟩, -⟩ := mem_collect.1 h
  cases hfound : ofArgument? fs argument with
  | none => simp [found, hfound] at hp
  | some sources =>
    rw [found, hfound] at hp
    exact isCanonical_of_ofArgument? hfound hp

/-- The sources of a run stand in the order of their parts, each of them once. -/
theorem collect_pairwise (fs : FileSystem) (arguments : List Path) (excludes : List String) :
    (collect fs arguments excludes).Pairwise fun p q => p.parts < q.parts :=
  pairwise_dropRepeats (StableSort.pairwise_mergeSort Path.le_iff _)

/-- No two sources of a run have the same text. -/
theorem text_injective_of_mem_collect {fs : FileSystem} {arguments : List Path} {excludes : List String}
    {p q : Path} (hp : p ∈ collect fs arguments excludes) (hq : q ∈ collect fs arguments excludes)
    (h : p.text = q.text) : p = q :=
  (isCanonical_of_mem_collect hp).text_injective (isCanonical_of_mem_collect hq) h

/-- No source is collected twice. -/
theorem nodup_collect (fs : FileSystem) (arguments : List Path) (excludes : List String) :
    (collect fs arguments excludes).Nodup :=
  (collect_pairwise fs arguments excludes).imp fun hpq heq => hpq.ne (congrArg Path.parts heq)

/-- At most one source has a given text. -/
theorem filter_text_collect (fs : FileSystem) (arguments : List Path) (excludes : List String) {p : Path}
    (hp : p ∈ collect fs arguments excludes) :
    (collect fs arguments excludes).filter (fun q => q.text = p.text) = [p] := by
  have hsame : ∀ q ∈ collect fs arguments excludes, decide (q.text = p.text) = decide (q = p) := by
    intro q hq
    rw [decide_eq_decide]
    exact ⟨text_injective_of_mem_collect hq hp, congrArg Path.text⟩
  rw [List.filter_congr hsame, List.filter_eq, List.count_eq_one_of_mem (nodup_collect ..) hp]
  rfl

/-- Arguments with disjoint sources: what they stand for together is what they stand for apart. -/
theorem collect_append_perm {fs : FileSystem} {arguments more : List Path} {excludes : List String}
    (hdisjoint : ∀ p ∈ collect fs arguments excludes, p ∉ collect fs more excludes) :
    (collect fs (arguments ++ more) excludes).Perm (collect fs arguments excludes ++ collect fs more excludes) := by
  have hnodup : (collect fs arguments excludes ++ collect fs more excludes).Nodup :=
    List.nodup_append.2 ⟨nodup_collect .., nodup_collect .., fun p hp q hq heq => hdisjoint p hp (heq ▸ hq)⟩
  refine (List.perm_ext_iff_of_nodup (nodup_collect ..) hnodup).2 fun p => ?_
  rw [List.mem_append, mem_collect, mem_collect, mem_collect]
  simp only [List.mem_append, or_and_right, exists_or]

/-- Of each text, arguments with disjoint sources have together what they have apart. -/
theorem filter_text_collect_append {fs : FileSystem} {arguments more : List Path} {excludes : List String}
    (hdisjoint : ∀ p ∈ collect fs arguments excludes, p ∉ collect fs more excludes) (text : String) :
    (collect fs (arguments ++ more) excludes).filter (fun p => p.text = text) =
      (collect fs arguments excludes ++ collect fs more excludes).filter fun p => p.text = text := by
  -- there is at most one source of that text, and a list of at most one element has no other order
  have hperm := (collect_append_perm hdisjoint).filter fun p => p.text = text
  by_cases hp : ∃ p ∈ collect fs (arguments ++ more) excludes, p.text = text
  · obtain ⟨p, hp, rfl⟩ := hp
    rw [filter_text_collect _ _ _ hp] at hperm ⊢
    exact List.singleton_perm.1 hperm
  · have hnone : (collect fs (arguments ++ more) excludes).filter (fun p => p.text = text) = [] := by
      rw [List.filter_eq_nil_iff]
      intro p hmem htext
      exact hp ⟨p, hmem, by simpa using htext⟩
    rw [hnone] at hperm ⊢
    exact (List.nil_perm.1 hperm).symm

end Sources

end Strata
