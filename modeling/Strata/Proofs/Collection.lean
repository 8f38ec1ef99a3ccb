import Mathlib
import Strata.Proofs.Glob
import Strata.Proofs.Sources

/-!
# Which sources are collected

The sources below a directory are found by listing the ways that lead through its directories. Such a way never enters
a link (`Entry.Reaches`), so the listing ends whatever the links are, while the last entry of a way may be a link and
is followed to the file that counts (`FileSystem.LeadsToFile`). An argument that is no directory is followed in the
same manner. `Sources.StandsFor` says which files an argument brings in. What is collected depends on these files only
(`Sources.mem_collect_iff`), because it is sorted strictly.
-/

namespace Strata

namespace Entry

/-! ## Ways through directories -/

/-- The way leads from a directory with these entries to `e`. All its steps but the last one enter a directory, and a
link to a directory is not entered. -/
inductive Reaches : List Entry → List String → Entry → Prop where
  | here {entries : List Entry} {e : Entry} (he : e ∈ entries) : Reaches entries [e.name] e
  | inside {entries inner : List Entry} {name : String} {way : List String} {e : Entry}
      (hd : directory name inner ∈ entries) (h : Reaches inner way e) : Reaches entries (name :: way) e

theorem Reaches.getLast? {entries : List Entry} {way : List String} {e : Entry} (h : Reaches entries way e) :
    way.getLast? = some e.name := by
  induction h with
  | here => rfl
  | inside hd h ih => rw [List.getLast?_cons, ih, Option.getD_some]

theorem not_reaches_nil {way : List String} {e : Entry} : ¬ Reaches [] way e := by
  intro h
  cases h with
  | here he => cases he
  | inside hd h => cases hd

/-- A way among several entries goes to or through the first one, or it is a way among the others. -/
theorem reaches_cons_iff {d e : Entry} {rest : List Entry} {way : List String} :
    Reaches (d :: rest) way e ↔
      (way = [d.name] ∧ e = d) ∨ (∃ tail, way = d.name :: tail ∧ Reaches d.entries tail e) ∨
        Reaches rest way e := by
  constructor
  · intro h
    cases h with
    | here he =>
      rcases List.mem_cons.mp he with rfl | he
      · exact Or.inl ⟨rfl, rfl⟩
      · exact Or.inr (Or.inr (.here he))
    | inside hd h =>
      rcases List.mem_cons.mp hd with rfl | hd
      · exact Or.inr (Or.inl ⟨_, rfl, h⟩)
      · exact Or.inr (Or.inr (.inside hd h))
  · rintro (⟨rfl, rfl⟩ | ⟨tail, rfl, h⟩ | h)
    · exact .here List.mem_cons_self
    · cases d with
      | file name content => exact absurd h not_reaches_nil
      | link name target => exact absurd h not_reaches_nil
      | directory name inner => exact .inside List.mem_cons_self h
    · cases h with
      | here he => exact .here (List.mem_cons_of_mem d he)
      | inside hd h => exact .inside (List.mem_cons_of_mem d hd) h

mutual

/-- The ways below an entry are those that lead through directories. -/
theorem mem_waysBelow_iff : ∀ {e : Entry} {way : List String},
    way ∈ e.waysBelow ↔ ∃ d, Reaches e.entries way d
  | file name content, way => by simp [waysBelow, entries, not_reaches_nil]
  | link name target, way => by simp [waysBelow, entries, not_reaches_nil]
  | directory name inner, way => by
    rw [waysBelow]
    exact mem_waysTo_iff

/-- The same for the entries of a directory. -/
theorem mem_waysTo_iff : ∀ {entries : List Entry} {way : List String},
    way ∈ waysTo entries ↔ ∃ e, Reaches entries way e
  | [], way => by simp [waysTo, not_reaches_nil]
  | d :: rest, way => by
    have hbelow : ∀ tail, tail ∈ d.waysBelow ↔ ∃ e, Reaches d.entries tail e := fun tail => mem_waysBelow_iff
    have hrest : way ∈ waysTo rest ↔ ∃ e, Reaches rest way e := mem_waysTo_iff
    simp only [waysTo, List.cons_append, List.mem_cons, List.mem_append, List.mem_map, hbelow, hrest,
      reaches_cons_iff, exists_or, exists_and_left, exists_eq, and_true]
    constructor
    · rintro (h | ⟨tail, ⟨e, h⟩, rfl⟩ | h)
      · exact Or.inl h
      · exact Or.inr (Or.inl ⟨e, tail, rfl, h⟩)
      · exact Or.inr (Or.inr h)
    · rintro (h | ⟨e, tail, rfl, h⟩ | h)
      · exact Or.inl h
      · exact Or.inr (Or.inl ⟨tail, ⟨e, h⟩, rfl⟩)
      · exact Or.inr (Or.inr h)

end

end Entry

namespace FileSystem

/-! ## Where a path leads -/

theorem lookup_eq_ok_iff {fs : FileSystem} {p : Path} {e : Entry} :
    fs.lookup p = .ok e ↔ ∃ q, fs.resolve p = .ok q ∧ fs.entry? q.segments = some e := by
  rw [lookup]
  cases hq : fs.resolve p with
  | error f => simp
  | ok q =>
    cases he : fs.entry? q.segments with
    | none => simp [he]
    | some d => simp [he]

/-- The path, with its links followed, leads to the file at the canonical path `p`. -/
def LeadsToFile (fs : FileSystem) (c p : Path) : Prop :=
  fs.resolve c = .ok p ∧ ∃ name bytes, fs.entry? p.segments = some (.file name bytes)

theorem isFile_iff {fs : FileSystem} {c : Path} :
    fs.isFile c = true ↔ ∃ name bytes, fs.lookup c = .ok (.file name bytes) := by
  rw [isFile]
  split
  · next name bytes h => simp [h]
  · next h => simpa using h

end FileSystem

namespace Path

/-! ## Suffixes of names -/

/-- A name is cut at its last dot. -/
theorem takeWhile_reverse_append {stem tail : List Char} (h : '.' ∉ tail) :
    ((stem ++ '.' :: tail).reverse.takeWhile fun c => c != '.').reverse = tail := by
  have htail : ∀ c ∈ tail.reverse, (c != '.') = true := by
    intro c hc
    have hne : c ≠ '.' := fun heq => h (heq ▸ List.mem_reverse.mp hc)
    simpa using hne
  have hsplit : (stem ++ '.' :: tail).reverse = tail.reverse ++ '.' :: stem.reverse := by simp
  rw [hsplit, List.takeWhile_append_of_pos htail, List.takeWhile_cons_of_neg (by simp), List.append_nil,
    List.reverse_reverse]

theorem suffixOf_append {stem extension : String} (hstem : stem ≠ "") (hne : extension ≠ "")
    (hdot : '.' ∉ extension.toList) : suffixOf (stem ++ ("." ++ extension)) = "." ++ extension := by
  have hlist : (stem ++ ("." ++ extension)).toList = stem.toList ++ '.' :: extension.toList := by
    simp [String.toList_append]
  have hstem : stem.toList ≠ [] := by simpa using hstem
  have hext : extension.toList ≠ [] := by simpa using hne
  have hpos := List.length_pos_of_ne_nil hstem
  simp only [suffixOf, hlist, takeWhile_reverse_append hdot]
  rw [if_pos]
  · rw [← String.toList_inj]
    simp [String.toList_append]
  · refine ⟨?_, hext, ?_⟩ <;> simp <;> omega

/-- What stands behind the last dot of a text that has one. -/
theorem exists_cut_at_dot {cs tail : List Char} (htail : (cs.reverse.takeWhile fun c => c != '.').reverse = tail)
    (hlong : tail.length < cs.length) : ∃ front, cs = front ++ '.' :: tail := by
  have hcut := List.takeWhile_append_dropWhile (p := fun c => c != '.') (l := cs.reverse)
  rw [List.reverse_eq_iff.mp htail] at hcut
  cases hrest : cs.reverse.dropWhile fun c => c != '.' with
  | nil =>
    rw [hrest, List.append_nil] at hcut
    have hlength : tail.length = cs.length := by simpa using congrArg List.length hcut
    omega
  | cons c rest =>
    have hc : c = '.' := by
      have hhead := List.head?_dropWhile_not (fun c => c != '.') cs.reverse
      simpa [hrest] using hhead
    refine ⟨rest.reverse, ?_⟩
    have hreverse := congrArg List.reverse hcut
    simpa [hrest, hc] using hreverse.symm

theorem exists_stem_of_suffixOf {name extension : String} (h : suffixOf name = "." ++ extension) :
    ∃ stem, stem ≠ "" ∧ name = stem ++ ("." ++ extension) := by
  simp only [suffixOf] at h
  generalize htail : (name.toList.reverse.takeWhile fun c => c != '.').reverse = tail at h
  split at h
  · next hlong =>
    have hext : tail = extension.toList := by
      have hchars := congrArg String.toList h
      simpa [String.toList_append] using hchars
    obtain ⟨front, hname⟩ := exists_cut_at_dot htail (by omega)
    refine ⟨String.ofList front, ?_, ?_⟩
    · intro hempty
      have hnil : front = [] := by simpa using congrArg String.toList hempty
      have hlength : name.toList.length = tail.length + 1 := by simp [hname, hnil]
      omega
    · rw [← String.toList_inj, hname, hext]
      simp [String.toList_append]
  · have hchars := congrArg String.toList h
    simp [String.toList_append] at hchars

/-- A name has a suffix if it goes on in front of it. -/
theorem suffixOf_eq_iff (name : String) {extension : String} (hne : extension ≠ "") (hdot : '.' ∉ extension.toList) :
    suffixOf name = "." ++ extension ↔ ∃ stem, stem ≠ "" ∧ name = stem ++ ("." ++ extension) := by
  constructor
  · exact exists_stem_of_suffixOf
  · rintro ⟨stem, hstem, rfl⟩
    exact suffixOf_append hstem hne hdot

end Path

namespace Sources

/-- The name of a Kotlin source: something with one of the two suffixes behind it. -/
def IsSourceName (name : String) : Prop :=
  ∃ stem, stem ≠ "" ∧ (name = stem ++ ".kt" ∨ name = stem ++ ".kts")

theorem isSourceName_iff {name : String} : isSourceName name = true ↔ IsSourceName name := by
  have hkt : Path.suffixOf name = "." ++ "kt" ↔ _ := Path.suffixOf_eq_iff name (by decide) (by decide)
  have hkts : Path.suffixOf name = "." ++ "kts" ↔ _ := Path.suffixOf_eq_iff name (by decide) (by decide)
  have htwo : isSourceName name = true ↔ Path.suffixOf name = "." ++ "kt" ∨ Path.suffixOf name = "." ++ "kts" := by
    simp only [isSourceName, suffixes, List.contains_iff_mem, List.mem_cons, List.not_mem_nil, or_false]
    rfl
  rw [htwo, hkt, hkts, IsSourceName, ← exists_or]
  refine exists_congr fun stem => ?_
  rw [← and_or_left]
  rfl

/-! ## What an argument stands for -/

/-- The argument stands for the file at the canonical path `p`: it is a directory, and below it, not beyond a link,
there is an entry with the name of a source that leads to the file; or it is no directory, has the name of a source
and leads to the file itself. -/
inductive StandsFor (fs : FileSystem) (argument p : Path) : Prop where
  | below {name : String} {entries : List Entry} {way : List String} {e : Entry}
      (hdirectory : fs.lookup argument = .ok (.directory name entries)) (hreaches : Entry.Reaches entries way e)
      (hname : IsSourceName e.name)
      (hleads : fs.LeadsToFile ⟨argument.root, argument.segments ++ way⟩ p)
  | itself (hdirectory : fs.isDirectory argument = false) (hname : IsSourceName argument.name)
      (hleads : fs.LeadsToFile argument p)

theorem regularFile?_eq_some_iff {fs : FileSystem} {c p : Path} :
    regularFile? fs c = some p ↔ fs.LeadsToFile c p := by
  rw [regularFile?]
  cases hc : fs.resolve c with
  | error f => simp [FileSystem.LeadsToFile, hc]
  | ok canonical =>
    have hfile : fs.isFile c = true ↔ ∃ name bytes, fs.entry? canonical.segments = some (.file name bytes) := by
      simp [FileSystem.isFile_iff, FileSystem.lookup_eq_ok_iff, hc]
    simp only [Option.ite_none_right_eq_some, Option.some.injEq, hfile, FileSystem.LeadsToFile, hc, Except.ok.injEq]
    constructor
    · rintro ⟨h, rfl⟩
      exact ⟨rfl, h⟩
    · rintro ⟨rfl, h⟩
      exact ⟨h, rfl⟩

theorem mem_ofDirectory_iff {fs : FileSystem} {argument p : Path} {entries : List Entry} :
    p ∈ ofDirectory fs argument entries ↔ ∃ way e, Entry.Reaches entries way e ∧ IsSourceName e.name ∧
      fs.LeadsToFile ⟨argument.root, argument.segments ++ way⟩ p := by
  simp only [ofDirectory, List.mem_filterMap, List.mem_filter, Entry.mem_waysTo_iff, regularFile?_eq_some_iff,
    isSourceName_iff]
  constructor
  · rintro ⟨way, ⟨⟨e, he⟩, hname⟩, hleads⟩
    rw [he.getLast?] at hname
    exact ⟨way, e, he, hname, hleads⟩
  · rintro ⟨way, e, he, hname, hleads⟩
    refine ⟨way, ⟨⟨e, he⟩, ?_⟩, hleads⟩
    rw [he.getLast?]
    exact hname

theorem mem_found_iff {fs : FileSystem} {argument p : Path} :
    p ∈ found fs argument ↔ StandsFor fs argument p := by
  constructor
  · intro h
    unfold found ofArgument? at h
    split at h
    · cases h
    · next canonical hresolve =>
      split at h
      · next name entries hentry =>
        have hlookup := FileSystem.lookup_eq_ok_iff.mpr ⟨canonical, hresolve, hentry⟩
        obtain ⟨way, e, he, hname, hleads⟩ := mem_ofDirectory_iff.mp h
        exact .below hlookup he hname hleads
      · next name bytes hentry =>
        have hlookup := FileSystem.lookup_eq_ok_iff.mpr ⟨canonical, hresolve, hentry⟩
        split at h
        · next hname =>
          cases List.mem_singleton.mp h
          exact .itself (by simp [FileSystem.isDirectory, hlookup]) (isSourceName_iff.mp hname)
            ⟨hresolve, name, bytes, hentry⟩
        · cases h
      · cases h
  · rintro (⟨hdirectory, he, hname, hleads⟩ | ⟨-, hname, hresolve, name, bytes, hentry⟩)
    · obtain ⟨canonical, hresolve, hentry⟩ := FileSystem.lookup_eq_ok_iff.mp hdirectory
      simp only [found, ofArgument?, hresolve, hentry, Option.getD_some]
      exact mem_ofDirectory_iff.mpr ⟨_, _, he, hname, hleads⟩
    · simp [found, ofArgument?, hresolve, hentry, isSourceName_iff.mpr hname]

/-! ## What is collected -/

/-- No exclude matches the path. -/
def IsKept (excludes : List String) (p : Path) : Prop :=
  ∀ pattern ∈ excludes, ¬ Glob.Matches (Glob.parse pattern).parts p.text.toList

theorem isKept_iff {excludes : List String} {p : Path} :
    IsKept excludes p ↔ Glob.anyAccepts excludes p.text = false := by
  rw [← Bool.not_eq_true, Glob.anyAccepts_iff, IsKept]
  simp

instance (excludes : List String) (p : Path) : Decidable (IsKept excludes p) :=
  decidable_of_iff _ isKept_iff.symm

theorem mem_collect_iff {fs : FileSystem} {arguments : List Path} {excludes : List String} {p : Path} :
    p ∈ collect fs arguments excludes ↔
      IsKept excludes p ∧ ∃ argument ∈ arguments, StandsFor fs argument p := by
  rw [mem_collect, isKept_iff, and_comm]
  simp only [mem_found_iff]

/-- The sources stand in the order of their segments, each of them once. -/
theorem collect_increases (fs : FileSystem) (arguments : List Path) (excludes : List String) :
    (collect fs arguments excludes).Pairwise fun p q => p.segments < q.segments := by
  refine (collect_pairwise fs arguments excludes).imp_of_mem fun {p q} hp hq hlt => ?_
  have hroot : p.root = q.root :=
    (isCanonical_of_mem_collect hp).root_eq.trans (isCanonical_of_mem_collect hq).root_eq.symm
  rw [Path.parts, Path.parts, hroot, List.cons_lt_cons_iff] at hlt
  rcases hlt with hlt | ⟨-, hlt⟩
  · exact absurd hlt (lt_irrefl q.root)
  · exact hlt

/-- Lists in strict order are determined by their members. -/
theorem eq_of_increasing {l₁ l₂ : List Path} (h₁ : l₁.Pairwise fun p q => p.segments < q.segments)
    (h₂ : l₂.Pairwise fun p q => p.segments < q.segments) (h : ∀ p, p ∈ l₁ ↔ p ∈ l₂) : l₁ = l₂ := by
  have : Std.Irrefl fun p q : Path => p.segments < q.segments := ⟨fun p => lt_irrefl p.segments⟩
  have : Std.Antisymm fun p q : Path => p.segments < q.segments := ⟨fun p q hpq hqp => absurd hqp (lt_asymm hpq)⟩
  exact h₁.eq_of_mem_iff h₂ h

theorem collect_congr {fs : FileSystem} {arguments more : List Path} {excludes : List String}
    (h : ∀ p, (∃ argument ∈ arguments, StandsFor fs argument p) ↔ ∃ argument ∈ more, StandsFor fs argument p) :
    collect fs arguments excludes = collect fs more excludes := by
  refine eq_of_increasing (collect_increases ..) (collect_increases ..) fun p => ?_
  rw [mem_collect_iff, mem_collect_iff, h]

/-- An argument that leads to a file stands for no other one. -/
theorem StandsFor.eq_of_leadsToFile {fs : FileSystem} {argument p q : Path} (h : StandsFor fs argument q)
    (hp : fs.LeadsToFile argument p) : q = p := by
  obtain ⟨hresolve, name, bytes, hentry⟩ := hp
  cases h with
  | below hdirectory he hname hleads =>
    have hlookup := FileSystem.lookup_eq_ok_iff.mpr ⟨p, hresolve, hentry⟩
    rw [hlookup] at hdirectory
    cases hdirectory
  | itself hdirectory hname hleads =>
    have hsame := hleads.1
    rw [hresolve] at hsame
    cases hsame
    rfl

/-- What is collected are exactly the files that the arguments stand for and that no exclude matches, as canonical
paths in the strict order of their segments. So it does not matter in which order and how often the arguments are
given, nor whether a file is given under one more name, and excludes do nothing but remove the paths they match. -/
theorem collect_exactly_kept_sources (fs : FileSystem) (arguments : List Path) (excludes : List String) :
    (collect fs arguments excludes).Pairwise (fun p q => p.segments < q.segments) ∧
    (∀ p ∈ collect fs arguments excludes, p.IsCanonical) ∧
    (∀ p, p ∈ collect fs arguments excludes ↔
      IsKept excludes p ∧ ∃ argument ∈ arguments, StandsFor fs argument p) ∧
    (∀ more, (∀ argument, argument ∈ more ↔ argument ∈ arguments) →
      collect fs more excludes = collect fs arguments excludes) ∧
    (∀ argument p, fs.LeadsToFile argument p → p ∈ collect fs arguments [] →
      collect fs (argument :: arguments) excludes = collect fs arguments excludes) ∧
    collect fs arguments excludes = (collect fs arguments []).filter fun p => IsKept excludes p := by
  refine ⟨collect_increases .., fun p => isCanonical_of_mem_collect, fun p => mem_collect_iff, ?_, ?_, ?_⟩
  · intro more hmore
    refine collect_congr fun p => ?_
    simp only [hmore]
  · intro argument p hleads hp
    obtain ⟨-, other, hother, hstands⟩ := mem_collect_iff.mp hp
    refine collect_congr fun q => ?_
    rw [List.exists_mem_cons_iff, or_iff_right_iff_imp]
    intro hq
    rw [hq.eq_of_leadsToFile hleads]
    exact ⟨other, hother, hstands⟩
  · refine eq_of_increasing (collect_increases ..) ((collect_increases ..).filter _) fun p => ?_
    rw [List.mem_filter, mem_collect_iff, mem_collect_iff, decide_eq_true_eq, and_comm]
    have hall : IsKept [] p := fun pattern h => absurd h List.not_mem_nil
    simp only [hall, true_and]

/-! ### Links of all kinds -/

namespace LinkedProject

/-- A project with one source that has a second name, and with links that lead back up, nowhere and to themselves. -/
def files (content : ByteArray) : FileSystem :=
  let fs := FileSystem.empty ⟨"/", ["w"]⟩
  let fs := fs.add ⟨"", ["src", "A.kt"]⟩ (.file content)
  let fs := fs.add ⟨"", ["src", "B.kt"]⟩ (.link "A.kt")
  let fs := fs.add ⟨"", ["src", "up"]⟩ (.link "..")
  let fs := fs.add ⟨"", ["src", "lost.kts"]⟩ (.link "nowhere")
  fs.add ⟨"", ["src", "loop.kt"]⟩ (.link "loop.kt")

/-- The source. -/
def source : Path :=
  ⟨"/", ["w", "src", "A.kt"]⟩

variable (content : ByteArray)

theorem leads_second : (files content).LeadsToFile ⟨"", ["src", "up", "src", "B.kt"]⟩ source :=
  ⟨by cbv, "A.kt", content, by cbv⟩

theorem leads_below : (files content).LeadsToFile ⟨"", [] ++ ["src", "A.kt"]⟩ source :=
  ⟨by cbv, "A.kt", content, by cbv⟩

/-- The entries of the working directory. -/
def top : List Entry :=
  [.directory "src" [.file "A.kt" content, .link "B.kt" "A.kt", .link "up" "..", .link "lost.kts" "nowhere",
    .link "loop.kt" "loop.kt"]]

theorem lookup_working : (files content).lookup ⟨"", []⟩ = .ok (.directory "w" (top content)) := by
  cbv

theorem source_mem : source ∈ collect (files content) [⟨"", []⟩] [] := by
  have hreaches : Entry.Reaches (top content) ["src", "A.kt"] (.file "A.kt" content) :=
    .inside List.mem_cons_self (.here List.mem_cons_self)
  have hname : IsSourceName (Entry.file "A.kt" content).name := ⟨"A", by decide, Or.inl rfl⟩
  exact mem_collect_iff.mpr ⟨fun pattern h => absurd h List.not_mem_nil, _, List.mem_cons_self,
    .below (lookup_working content) hreaches hname (leads_below content)⟩

end LinkedProject

/-- The project with links: its source is collected, and giving it a second time by a way through two links, or giving
the working directory twice, changes nothing. -/
theorem collection_of_linked_project :
    let fs := LinkedProject.files ByteArray.empty
    LinkedProject.source ∈ collect fs [⟨"", []⟩] [] ∧
      fs.LeadsToFile ⟨"", ["src", "up", "src", "B.kt"]⟩ LinkedProject.source ∧
      collect fs [⟨"", ["src", "up", "src", "B.kt"]⟩, ⟨"", []⟩] ["*.kts"] = collect fs [⟨"", []⟩] ["*.kts"] ∧
      collect fs [⟨"", []⟩, ⟨"", []⟩] ["*.kts"] = collect fs [⟨"", []⟩] ["*.kts"] := by
  intro fs
  obtain ⟨-, -, -, hsame, hname, -⟩ := collect_exactly_kept_sources fs [⟨"", []⟩] ["*.kts"]
  have hmem := LinkedProject.source_mem ByteArray.empty
  have hleads := LinkedProject.leads_second ByteArray.empty
  exact ⟨hmem, hleads, hname _ _ hleads hmem, hsame _ (by simp)⟩

end Sources

end Strata
