import Strata.Settings.Schema
import Strata.Text.Newline
import Strata.Text.Utf8
import Strata.Yaml.Document

/-!
# Settings files

A settings file is a YAML document in UTF-8. Its line ends may be of any kind.
-/

namespace Strata

/-- Why a settings file gives no settings. -/
inductive SettingsFileError where
  | encoding (f : Text.Utf8.Fault)
  | document (path : String) (e : Yaml.Error)
  | schema (e : SettingsError)

/-- What is wrong, in words. -/
def SettingsFileError.message : SettingsFileError → String
  | .encoding f => f.message
  | .document path .malformed => path ++ ": " ++ Yaml.Error.message .malformed
  | .document _ e => e.message
  | .schema e => e.message

namespace Settings

/-- The document in a settings file. -/
def documentOfFile (path : String) (bytes : ByteArray) : Except SettingsFileError Value :=
  match Text.Utf8.decodeStream bytes with
  | .error f => .error (.encoding f)
  | .ok text =>
    match Yaml.read (Text.unifyNewlines text) with
    | .error e => .error (.document path e)
    | .ok v => .ok v

/-- The settings in a file, and what is told about it. -/
def ofFile (known : Option (List String)) (path : String) (bytes : ByteArray) :
    Except SettingsFileError Settings × List LogRecord :=
  match documentOfFile path bytes with
  | .error e => (.error e, [])
  | .ok v => ((ofValue known v).mapError .schema, logsOfValue v)

end Settings

end Strata
