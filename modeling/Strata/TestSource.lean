import Strata.Path

/-!
# Test sources

Sources whose path contains a marker, such as a directory `/test/`, are tests and exempt from all rules.
-/

namespace Strata

/-- A path as it is handed over: a plain text, or a path in one of the two conventions. -/
inductive PathSpelling where
  | plain (text : String)
  | posix (text : String)
  | withDrives (text : String)
  deriving Repr, DecidableEq

/-- The path with slashes for separators. A plain text is taken as it is but for its backslashes; a path
of a convention is normalised first, and a posix path may hold backslashes in its names. -/
def PathSpelling.slashed : PathSpelling → String
  | .plain text => Text.replaceChar '\\' '/' text
  | .posix text => (Path.parse text).text
  | .withDrives text => DrivePath.normalise text

/-- Does the path contain the marker? -/
def PathSpelling.isTestSource (marker : String) (p : PathSpelling) : Bool :=
  Text.contains p.slashed marker

/-- Does a path given as text contain the marker? -/
def isTestSource (marker path : String) : Bool :=
  (PathSpelling.plain path).isTestSource marker

/-- The marker of projects whose settings name none. -/
def defaultTestMarker : String :=
  "/test/"

end Strata
