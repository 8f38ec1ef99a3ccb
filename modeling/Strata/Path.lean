import Strata.Text.Search

/-!
# Paths

A path is a root followed by segments. Reading a path drops empty segments and single dots; writing it
puts one slash between segments. Two dots stay, because what they mean depends on links.
-/

namespace Strata

/-- A path. The root is empty for a relative path, `/` for an absolute one, and `//` if exactly two
slashes were written. -/
structure Path where
  root : String
  segments : List String
  deriving Repr, DecidableEq, Inhabited

namespace Path

/-- Segments that name something: neither empty nor a single dot. -/
def isSegment (s : String) : Bool :=
  s != "" && s != "."

/-- The path that a text stands for. -/
def parse (text : String) : Path where
  root := match (text.toList.takeWhile fun c => c = '/').length with
    | 0 => ""
    | 2 => "//"
    | _ => "/"
  segments := (Text.split '/' text).filter isSegment

/-- The path as text. The empty path is a single dot. -/
def text (p : Path) : String :=
  let s := p.root ++ String.intercalate "/" p.segments
  if s = "" then "." else s

/-- Is the path given from the root? -/
def isAbsolute (p : Path) : Bool :=
  p.root != ""

/-- `q` seen from the directory `p`. -/
def join (p q : Path) : Path :=
  if q.isAbsolute then q else { p with segments := p.segments ++ q.segments }

/-- The last segment, empty if there is none. -/
def name (p : Path) : String :=
  p.segments.getLast?.getD ""

/-- The suffix of a file name: from its last dot on, if there is something before and after the dot. -/
def suffixOf (name : String) : String :=
  let cs := name.toList
  let tail := (cs.reverse.takeWhile fun c => c != '.').reverse
  if tail.length < cs.length ∧ tail ≠ [] ∧ tail.length + 1 < cs.length then
    String.ofList ('.' :: tail)
  else ""

/-- Paths in the order of their segments, each compared by code points; the root comes first. -/
def le (p q : Path) : Bool :=
  compareSegments (p.root :: p.segments) (q.root :: q.segments)
where
  /-- Segment lists in lexicographic order. -/
  compareSegments : List String → List String → Bool
    | [], _ => true
    | _ :: _, [] => false
    | a :: as, b :: bs => if a = b then compareSegments as bs else Text.lexLE a b

end Path

/-! ## Paths with drives

On systems with drives a path is written with slashes in either direction. Its anchor is a drive with or
without a root, or a share `\\server\share\`. -/

namespace DrivePath

/-- Is `c` a letter that can name a drive? -/
def isDriveLetter (c : Char) : Bool :=
  ('a' ≤ c && c ≤ 'z') || ('A' ≤ c && c ≤ 'Z')

/-- The anchor of a drive or of a root alone, and the text behind it. -/
def splitDrive : List Char → List Char × List Char
  | d :: ':' :: cs =>
    if isDriveLetter d then
      if cs.head? = some '/' then ([d, ':', '/'], cs.dropWhile fun c => c = '/') else ([d, ':'], cs)
    else ([], d :: ':' :: cs)
  | '/' :: cs => (['/'], cs.dropWhile fun c => c = '/')
  | cs => ([], cs)

/-- The share in a text that follows two slashes: a server and a share name with one slash between
them. -/
def share? (cs : List Char) : Option (List Char × List Char) :=
  let server := cs.takeWhile fun c => c != '/'
  match cs.drop server.length with
  | '/' :: rest =>
    let name := rest.takeWhile fun c => c != '/'
    if server.isEmpty ∨ (name.isEmpty ∧ ¬ rest.isEmpty) then none
    else some (server ++ '/' :: name, rest.drop (name.length + 1))
  | _ => none

/-- The anchor of a text whose separators are all slashes, and the text behind it. A leading `//?/`
marks an extended path and belongs to the anchor. -/
def splitAnchor : List Char → List Char × List Char
  | '/' :: '/' :: '?' :: '/' :: 'U' :: 'N' :: 'C' :: '/' :: cs =>
    match share? cs with
    | some (s, rest) => ("//?/UNC/".toList ++ s ++ ['/'], rest)
    | none => ("//?/UNC/".toList, cs.dropWhile fun c => c = '/')
  | '/' :: '/' :: '?' :: '/' :: cs =>
    match cs with
    | '/' :: '/' :: inner =>
      match share? inner with
      | some (s, rest) => ("//?/".toList ++ '/' :: s ++ ['/'], rest)
      | none => ("//?/".toList ++ ['/'], inner.dropWhile fun c => c = '/')
    | cs => ("//?/".toList ++ (splitDrive cs).1, (splitDrive cs).2)
  | '/' :: '/' :: cs =>
    match share? cs with
    | some (s, rest) => ('/' :: '/' :: s ++ ['/'], rest)
    | none => splitDrive ('/' :: '/' :: cs)
  | cs => splitDrive cs

/-- A path of a system with drives, normalised and written with slashes. -/
def normalise (text : String) : String :=
  let (anchor, rest) := splitAnchor (Text.replaceChar '\\' '/' text).toList
  let segments := (Text.split '/' (String.ofList rest)).filter Path.isSegment
  let s := String.ofList anchor ++ String.intercalate "/" segments
  if s = "" then "." else s

end DrivePath

end Strata
