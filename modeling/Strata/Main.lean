import Strata.CommandLine.Plan

/-!
# The program

Takes a picture of the part of the file system that a command line speaks of, asks the pure command line what
to do, and writes what it says.
-/

namespace Strata.Program

/-- Adds a file and its content. -/
def loadFile (fs : FileSystem) (path : String) : IO FileSystem := do
  let content ← IO.FS.readBinFile path
  return fs.add (Path.parse path) (.file content)

/-- Adds a link to something that is at `target` in the end. -/
def addLink (fs : FileSystem) (path target : String) : FileSystem :=
  fs.add (Path.parse path) (.link target)

/-- Adds what stands at an absolute path that has no link before its last segment. Directories are added with
all that is below them if `deep`, and a link with the file or the directory it leads to. -/
partial def load (deep : Bool) (fs : FileSystem) (path : String) : IO FileSystem := do
  try
    let place := System.mkFilePath [path]
    match (← place.symlinkMetadata).type with
    | .file => loadFile fs path
    | .dir =>
      let fs := fs.add (Path.parse path) .directory
      if deep then
        (← place.readDir).foldlM (fun fs entry => load deep fs entry.path.toString) fs
      else return fs
    | .symlink =>
      let target := (← IO.FS.realPath place).toString
      if ← place.pathExists then load false (addLink fs path target) target
      else return addLink fs path path
    | _ => return fs
  catch _ => return fs

/-- Adds what a path leads to, and the links on its way. The way so far has led to `here`. -/
def loadWay (fs : FileSystem) (here : String) : List String → IO FileSystem
  | [] => do load true fs (← IO.FS.realPath here).toString
  | s :: rest => do
    let fs ← load false fs (Path.parse (here ++ "/" ++ s)).text
    loadWay fs (← IO.FS.realPath (here ++ "/" ++ s)).toString rest

/-- The world as the arguments see it. -/
def observe (arguments : List String) : IO CommandLine.World := do
  let directory := (← IO.currentDir).toString
  let fs ← load false (FileSystem.empty (Path.parse directory)) (directory ++ "/" ++ Settings.fileName)
  let paths := (CommandLine.mentionedPaths arguments).map Path.parse
  let files ← paths.foldlM (fun fs p => do
    try loadWay fs (if p.isAbsolute then "/" else directory) p.segments catch _ => return fs) fs
  return ⟨files, ⟨← (← IO.getStdout).isTty, ← (← IO.getStderr).isTty⟩⟩

/-- The reading of a clock in seconds. -/
def clock : IO Float := do
  return (← IO.monoNanosNow).toFloat / 1000000000.0

/-- Carries out a plan and measures how long its run takes. -/
def execute (w : CommandLine.World) : CommandLine.Plan → IO CommandLine.Outcome
  | .done o => return o
  | .lint p => do
    let start ← clock
    let result ← IO.lazyPure fun _ => p.result w (.whole 0)
    let stop ← clock
    return p.outcome w { result with elapsed := .between start stop }

end Strata.Program

/-- The program: its exit code says how the command line ended. -/
def main (arguments : List String) : IO UInt32 := do
  let world ← Strata.Program.observe arguments
  let outcome ← Strata.Program.execute world (Strata.CommandLine.plan world arguments)
  IO.print outcome.stdout
  IO.eprint outcome.stderr
  if let some fault := outcome.fault then IO.eprintln fault.message
  return outcome.exitCode.toUInt32
