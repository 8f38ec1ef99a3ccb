import Strata.FileSystem.Basic
import Strata.RuleSet
import Strata.Settings.File

/-!
# Where settings come from

A run takes its settings from the file that it is told, or else from the settings file in a directory; if
there is none the default settings hold.
-/

namespace Strata

/-- Why a run has no settings. -/
inductive SettingsLookupError where
  | unreadable (path : String) (e : FileError)
  | file (e : SettingsFileError)

/-- Is the user told about the fault as an invalid configuration? Any other fault ends the program. -/
def SettingsFileError.isReported : SettingsFileError → Bool
  | .encoding _ => true
  | .document _ e =>
    match e with
    | .bool _ | .emptyNumber | .timestamp | .hugeCodePoint => false
    | _ => true
  | .schema (.incomparableVersion _) => false
  | .schema _ => true

namespace SettingsLookupError

/-- Is the user told about the fault as an invalid configuration? -/
def isReported : SettingsLookupError → Bool
  | unreadable _ _ => true
  | file e => e.isReported

/-- What is wrong, in words. -/
def message (e : SettingsLookupError) : String :=
  let text := match e with
    | unreadable path e => e.message path
    | file e => e.message
  if e.isReported then "Invalid configuration: " ++ text else text

end SettingsLookupError

namespace Settings

/-- The settings in the file at a path, and what is told about it. -/
def ofPath (fs : FileSystem) (path : Path) : Except SettingsLookupError Settings × List LogRecord :=
  match fs.read path with
  | .error e => (.error (.unreadable path.text e), [])
  | .ok bytes =>
    let (result, logs) := ofFile (some RuleSet.names) path.text bytes
    (result.mapError .file, logs)

/-- The settings of a run: those of the given file, or else those in the directory. -/
def lookup (fs : FileSystem) (given : Option Path) (directory : Path) :
    Except SettingsLookupError Settings × List LogRecord :=
  match given with
  | some path => ofPath fs path
  | none =>
    let path := directory.join ⟨"", [fileName]⟩
    if fs.isFile path then ofPath fs path else (.ok {}, [])

end Settings

end Strata
