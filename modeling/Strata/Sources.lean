import Strata.FileSystem.Basic
import Strata.Glob
import Strata.Log

/-!
# The sources of a run

The arguments of a run are files and directories. `Sources.collect` gives the canonical paths of the Kotlin
sources among and below them, in the order of their segments and each of them once.
-/

namespace Strata.Sources

/-- The suffixes of Kotlin sources. -/
def suffixes : List String :=
  [".kt", ".kts"]

/-- Is this the name of a Kotlin source? -/
def isSourceName (name : String) : Bool :=
  suffixes.contains (Path.suffixOf name)

/-- The canonical path of a file, or nothing if the path does not lead to a file. -/
def regularFile? (fs : FileSystem) (p : Path) : Option Path :=
  match fs.resolve p with
  | .error _ => none
  | .ok canonical => if fs.isFile p then some canonical else none

/-- The sources below a directory: the names there decide, not those that links lead to. They are looked up as they
are reached, so that links on the way to the directory count as well. -/
def ofDirectory (fs : FileSystem) (directory : Path) (entries : List Entry) : List Path :=
  ((Entry.waysTo entries).filter fun way => isSourceName (way.getLast?.getD "")).filterMap fun way =>
    regularFile? fs ⟨directory.root, directory.segments ++ way⟩

/-- The sources that an argument stands for, or nothing if it is neither a directory nor a source. -/
def ofArgument? (fs : FileSystem) (argument : Path) : Option (List Path) :=
  match fs.resolve argument with
  | .error _ => none
  | .ok canonical =>
    match fs.entry? canonical.segments with
    | some (.directory _ entries) => some (ofDirectory fs argument entries)
    | some (.file _ _) => if isSourceName argument.name then some [canonical] else none
    | _ => none

/-- A sorted list with each path once. -/
def dropRepeats : List Path → List Path
  | p :: q :: rest => if p = q then dropRepeats (q :: rest) else p :: dropRepeats (q :: rest)
  | rest => rest

/-- The sources among and below the arguments that no exclude matches. -/
def collect (fs : FileSystem) (arguments : List Path) (excludes : List String) : List Path :=
  let found := arguments.flatMap fun a => (ofArgument? fs a).getD []
  let kept := found.filter fun p => !Glob.anyAccepts excludes p.text
  dropRepeats (kept.mergeSort Path.le)

/-- What is told about arguments that are neither directories nor sources. -/
def logs (fs : FileSystem) (arguments : List Path) : List LogRecord :=
  (arguments.filter fun a => (ofArgument? fs a).isNone).map fun a =>
    ⟨.debug, .run, "Skipping " ++ a.text ++ ": not a Kotlin source or directory"⟩

end Strata.Sources
