import Strata.Path
import Strata.Text.Quoted

/-!
# File systems

A file system is a tree of named entries, seen from a working directory. Looking a path up follows the
links on its way, and two dots lead to the directory above the one that was reached, not above the one that
was written. The number of links on one way is bounded, so that links which lead in a circle end in an
error. All names in a file system are proper ones, and those in one directory differ.
-/

namespace Strata

/-- A named entry of a directory. -/
inductive Entry where
  | file (name : String) (content : ByteArray)
  /-- A link; a target that is not absolute is seen from the directory which holds the link. -/
  | link (name : String) (target : String)
  | directory (name : String) (entries : List Entry)
  deriving Inhabited

namespace Entry

def name : Entry → String
  | file name _ | link name _ | directory name _ => name

/-- The entry of that name among several. -/
def find? (name : String) (entries : List Entry) : Option Entry :=
  entries.find? fun e => e.name = name

/-- The entry of that name in a directory. -/
def child? (name : String) : Entry → Option Entry
  | directory _ entries => find? name entries
  | _ => none

/-- The entries of the directory of that name among several; none if there is no such directory. -/
def inside (name : String) (entries : List Entry) : List Entry :=
  match find? name entries with
  | some (directory _ inner) => inner
  | _ => []

/-- The entries with `e` in the place of the one of its name, or at the end. -/
def insert (e : Entry) : List Entry → List Entry
  | [] => [e]
  | d :: rest => if d.name = e.name then e :: rest else d :: insert e rest

/-- Can an entry have this name? It must not be empty or hold a slash, and the names that are dots lead
elsewhere. -/
def isName (s : String) : Bool :=
  s != "" && s != "." && s != ".." && !s.toList.contains '/'

mutual

/-- The entry and all that is below it have proper names. -/
def WellNamed : Entry → Prop
  | file name _ => isName name = true
  | link name _ => isName name = true
  | directory name entries => isName name = true ∧ AllWellNamed entries

/-- The entries of a directory and all that is below them have proper names, and no two entries of a directory
have the same one. -/
def AllWellNamed : List Entry → Prop
  | [] => True
  | e :: rest => e.WellNamed ∧ (∀ d ∈ rest, d.name ≠ e.name) ∧ AllWellNamed rest

end

theorem WellNamed.isName_name {e : Entry} (h : e.WellNamed) : isName e.name = true := by
  cases e with
  | file name content => exact h
  | link name target => exact h
  | directory name entries => exact h.1

theorem AllWellNamed.of_mem {entries : List Entry} (h : AllWellNamed entries) {e : Entry} (he : e ∈ entries) :
    e.WellNamed := by
  induction entries with
  | nil => cases he
  | cons d rest ih =>
    cases he with
    | head => exact h.1
    | tail _ he => exact ih h.2.2 he

theorem AllWellNamed.find? {entries : List Entry} (h : AllWellNamed entries) {name : String} {e : Entry}
    (he : find? name entries = some e) : e.WellNamed ∧ e.name = name :=
  ⟨h.of_mem (List.mem_of_find?_eq_some he), by simpa using List.find?_some he⟩

theorem AllWellNamed.inside {entries : List Entry} (h : AllWellNamed entries) (name : String) :
    AllWellNamed (inside name entries) := by
  rw [Entry.inside]
  split
  · next inner he => exact (h.find? he).1.2
  · exact trivial

theorem mem_insert {e d : Entry} {entries : List Entry} (h : d ∈ insert e entries) : d = e ∨ d ∈ entries := by
  induction entries with
  | nil =>
    rw [insert, List.mem_singleton] at h
    exact Or.inl h
  | cons c rest ih =>
    rw [insert] at h
    split at h
    · cases h with
      | head => exact Or.inl rfl
      | tail _ h => exact Or.inr (List.mem_cons_of_mem c h)
    · cases h with
      | head => exact Or.inr List.mem_cons_self
      | tail _ h =>
        rcases ih h with h | h
        · exact Or.inl h
        · exact Or.inr (List.mem_cons_of_mem c h)

theorem AllWellNamed.insert {entries : List Entry} (h : AllWellNamed entries) {e : Entry} (he : e.WellNamed) :
    AllWellNamed (insert e entries) := by
  induction entries with
  | nil => exact ⟨he, by simp, trivial⟩
  | cons d rest ih =>
    obtain ⟨hd, hdistinct, hrest⟩ := h
    rw [Entry.insert]
    split
    · next hname => exact ⟨he, fun c hc => hname ▸ hdistinct c hc, hrest⟩
    · next hname =>
      refine ⟨hd, fun c hc => ?_, ih hrest⟩
      rcases mem_insert hc with rfl | hc
      · exact Ne.symm hname
      · exact hdistinct c hc

mutual

/-- The ways to all that is below an entry. They lead through directories and never through a link. -/
def waysBelow : Entry → List (List String)
  | directory _ entries => waysTo entries
  | file _ _ | link _ _ => []

/-- The ways to the entries and to all that is below them. -/
def waysTo : List Entry → List (List String)
  | [] => []
  | e :: rest => [e.name] :: (e.waysBelow.map fun way => e.name :: way) ++ waysTo rest

end

end Entry

/-- What stands at a path. -/
inductive Content where
  | file (bytes : ByteArray)
  | link (target : String)
  | directory

/-- The entry with this content. -/
def Content.entry (name : String) : Content → Entry
  | file bytes => .file name bytes
  | link target => .link name target
  | directory => .directory name []

/-- Why a path leads to nothing that can be used. -/
inductive FileError where
  | notFound
  | notDirectory
  | isDirectory
  | tooManyLinks
  deriving Repr, DecidableEq

/-- What is wrong with a path, in words. -/
def FileError.message (path : String) (e : FileError) : String :=
  let text := match e with
    | .notFound => "[Errno 2] No such file or directory"
    | .notDirectory => "[Errno 20] Not a directory"
    | .isDirectory => "[Errno 21] Is a directory"
    | .tooManyLinks => "[Errno 40] Too many levels of symbolic links"
  text ++ ": " ++ Text.quoted path

/-- Puts a content at the end of a way, and makes the directories on the way that do not exist. A
directory that exists stays as it is. -/
def Content.put (c : Content) : List String → List Entry → List Entry
  | [], entries => entries
  | [name], entries =>
    match c, Entry.find? name entries with
    | .directory, some (.directory _ _) => entries
    | _, _ => Entry.insert (c.entry name) entries
  | name :: way, entries => Entry.insert (.directory name (put c way (Entry.inside name entries))) entries

theorem Content.entry_wellNamed (c : Content) {name : String} (h : Entry.isName name = true) :
    (c.entry name).WellNamed := by
  cases c with
  | file bytes => exact h
  | link target => exact h
  | directory => exact ⟨h, trivial⟩

/-- What is put at the end of a way of proper names leaves the names proper. -/
theorem Content.put_wellNamed (c : Content) {way : List String} (hway : ∀ s ∈ way, Entry.isName s = true)
    {entries : List Entry} (h : Entry.AllWellNamed entries) : Entry.AllWellNamed (c.put way entries) := by
  fun_induction Content.put c way entries with
  | case1 => exact h
  | case2 => exact h
  | case3 name entries => exact h.insert (c.entry_wellNamed (hway name List.mem_cons_self))
  | case4 name way entries _ ih =>
    have hinner := ih (fun s hs => hway s (List.mem_cons_of_mem name hs)) (h.inside name)
    exact h.insert ⟨hway name List.mem_cons_self, hinner⟩

/-- A file system, seen from a directory. -/
structure FileSystem where
  /-- The entries of the topmost directory. -/
  entries : List Entry
  /-- The way to the working directory. -/
  working : List String
  wellNamed : Entry.AllWellNamed entries
  workingNamed : ∀ s ∈ working, Entry.isName s = true

namespace FileSystem

/-- The file system with some content at a path. Nothing can be put at a path with improper names. -/
def add (fs : FileSystem) (p : Path) (c : Content) : FileSystem :=
  let way := if p.isAbsolute then p.segments else fs.working ++ p.segments
  if h : ∀ s ∈ way, Entry.isName s = true then
    { fs with entries := c.put way fs.entries, wellNamed := c.put_wellNamed h fs.wellNamed }
  else fs

/-- The file system that holds nothing but its working directory. -/
def empty (working : Path) : FileSystem :=
  let way := working.segments.filter Entry.isName
  have named : ∀ s ∈ way, Entry.isName s = true := fun _ hs => (List.mem_filter.1 hs).2
  { entries := Content.directory.put way []
    working := way
    wellNamed := Content.directory.put_wellNamed named trivial
    workingNamed := named }

/-- The entry at the end of a way that holds neither links nor dots. -/
def entry? (fs : FileSystem) (way : List String) : Option Entry :=
  way.foldlM (fun e name => e.child? name) (Entry.directory "" fs.entries)

/-- How many links may be on one way. -/
def linkLimit : Nat := 40

/-- The segments of a text as they are looked up: a slash at the end asks for a directory. -/
def lookupSegments (text : String) : List String :=
  let segments := (Text.split '/' text).filter fun s => s != ""
  if text.toList.getLast? = some '/' then segments ++ ["."] else segments

/-- Follows the segments from the directory `here`, and gives the way that was gone in the end, without
links and dots. At most `links` more links are followed. -/
def follow (fs : FileSystem) (links : Nat) (here : List String) :
    List String → Except FileError (List String)
  | [] => .ok here
  | s :: rest =>
    match fs.entry? here with
    | some (.directory _ entries) =>
      if s = "." then follow fs links here rest
      else if s = ".." then follow fs links here.dropLast rest
      else
        match Entry.find? s entries with
        | none => .error .notFound
        | some (.link _ target) =>
          match links with
          | 0 => .error .tooManyLinks
          | links + 1 =>
            let start := if target.startsWith "/" then [] else here
            follow fs links start (lookupSegments target ++ rest)
        | some _ => follow fs links (here ++ [s]) rest
    | some _ => .error .notDirectory
    | none => .error .notFound
termination_by segments => (links, segments.length)

/-- The canonical path of what a path leads to. -/
def resolve (fs : FileSystem) (p : Path) : Except FileError Path :=
  (fs.follow linkLimit (if p.isAbsolute then [] else fs.working) p.segments).map fun way => ⟨"/", way⟩

/-- What a path leads to. -/
def lookup (fs : FileSystem) (p : Path) : Except FileError Entry :=
  match fs.resolve p with
  | .error e => .error e
  | .ok p =>
    match fs.entry? p.segments with
    | none => .error .notFound
    | some e => .ok e

/-- What a path leads to that is looked up exactly as it is written: nothing stands at an empty one, and a
slash or a dot at its end asks for a directory. -/
def lookupText (fs : FileSystem) (text : String) : Except FileError Entry :=
  if text = "" then .error .notFound
  else fs.lookup ⟨if text.startsWith "/" then "/" else "", lookupSegments text⟩

/-- Does the path lead to a directory? -/
def isDirectory (fs : FileSystem) (p : Path) : Bool :=
  match fs.lookup p with
  | .ok (.directory _ _) => true
  | _ => false

/-- Does the path lead to a file? -/
def isFile (fs : FileSystem) (p : Path) : Bool :=
  match fs.lookup p with
  | .ok (.file _ _) => true
  | _ => false

/-- The content of the file that a path leads to. -/
def read (fs : FileSystem) (p : Path) : Except FileError ByteArray :=
  match fs.lookup p with
  | .error e => .error e
  | .ok (.file _ content) => .ok content
  | .ok _ => .error .isDirectory

end FileSystem

end Strata
