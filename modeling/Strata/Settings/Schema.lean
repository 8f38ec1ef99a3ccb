import Strata.Log
import Strata.Settings.Basic
import Strata.Text.Blank
import Strata.Value.Text

/-!
# The schema of settings

`Settings.ofValue` reads settings from a document. A document that is not of the schema has one error:
the first one in the order version, base package, test marker, excludes, rules.
-/

namespace Strata

/-- What is wrong with a settings document. -/
inductive SettingsError where
  | notMapping
  | missingVersion
  /-- The version is a collection, which is not even comparable with a version. -/
  | incomparableVersion (kind : Value.Collection)
  | unsupportedVersion (version : Value)
  | projectBase
  | testMarker
  /-- Excludes of the whole run, or of one rule, that are no globs. -/
  | excludes (rule : Option String)
  | rulesNotMapping
  | unknownRule (name : String) (known : List String)
  | ruleNotMapping (name : String)
  | active (name : String)
  | severity (name severity : String)
  deriving Inhabited

namespace Settings

/-- The name of a settings file. -/
def fileName : String :=
  "layerlint.yml"

/-- The name under which rules are set, also the name of the whole set of rules. -/
def ruleSetName : String :=
  "architecture-layer-rules"

/-- The schema version that is understood. -/
def supportedVersion : Int :=
  1

/-- The names that a settings document may use. -/
def knownKeys : List String :=
  ["version", "project_base", "test_marker", "excludes", ruleSetName]

/-- The names that the settings of a rule share with those of every other. -/
def commonRuleKeys : List String :=
  ["active", "severity", "excludes"]

/-- Is the key one of these names? -/
def isNamed (names : List String) : Value → Bool
  | .string s => names.contains s
  | _ => false

/-- Globs: none, one text, or a list whose items are taken as texts. -/
def globs (rule : Option String) : Option Value → Except SettingsError (List String)
  | none => .ok []
  | some .null => .ok []
  | some (.string s) => .ok [s]
  | some (.list items) => .ok (items.map Value.display)
  | some _ => .error (.excludes rule)

/-- Is a rule on? It is unless it is set otherwise. -/
def activeOf (name : String) : Option Value → Except SettingsError Bool
  | none => .ok true
  | some (.bool b) => .ok b
  | some _ => .error (.active name)

/-- The severity of a rule's findings: the one that the value's text names. -/
def severityOf (name : String) : Option Value → Except SettingsError Severity
  | none => .ok .error
  | some v =>
    match Severity.ofName? v.display with
    | some s => .ok s
    | none => .error (.severity name v.display)

/-- All further settings of a rule, each under the text of its key. -/
def optionsOf (entries : List (Value × Value)) : List (String × Value) :=
  Association.ofEntries (fun a b => a == b)
    ((entries.filter fun e => !isNamed commonRuleKeys e.1).map fun e => (e.1.display, e.2))

/-- The settings of one rule. -/
def ruleOfValue (name : String) : Value → Except SettingsError RuleSettings
  | .null => .ok {}
  | .map entries => do
    let active ← activeOf name (Value.get? "active" entries)
    let severity ← severityOf name (Value.get? "severity" entries)
    let excludes ← globs (some name) (Value.get? "excludes" entries)
    return { active, severity, excludes, options := optionsOf entries }
  | _ => .error (.ruleNotMapping name)

/-- The version must be there and equal to the supported one. -/
def checkVersion (entries : List (Value × Value)) : Except SettingsError Unit :=
  match Value.get? "version" entries with
  | none => .error .missingVersion
  | some .null => .error .missingVersion
  | some (.set items) => .error (.unsupportedVersion (.set items))
  | some version =>
    match version.keyObstacle? with
    | some kind => .error (.incomparableVersion kind)
    | none =>
      if version.sameKey (.int supportedVersion) then .ok () else .error (.unsupportedVersion version)

/-- The base package: a text that is not all blank. Blanks around it do not count. -/
def projectBaseOf : Option Value → Except SettingsError String
  | none => .ok (Text.trim Layer.defaultBase)
  | some (.string s) => if Text.trim s = "" then .error .projectBase else .ok (Text.trim s)
  | some _ => .error .projectBase

/-- The marker of tests: a text that is not empty. -/
def testMarkerOf : Option Value → Except SettingsError String
  | none => .ok defaultTestMarker
  | some (.string s) => if s = "" then .error .testMarker else .ok s
  | some _ => .error .testMarker

/-- The blocks of the rules. -/
def ruleBlocks : Option Value → Except SettingsError (List (Value × Value))
  | none => .ok []
  | some .null => .ok []
  | some (.map entries) => .ok entries
  | some _ => .error .rulesNotMapping

/-- Texts in ascending order, each once. -/
def sortedNames (names : List String) : List String :=
  names.eraseDups.mergeSort Text.lexLE

/-- The rules set in the blocks, after those of `table`. Two keys with the same text name one rule, and
the later block counts, at the place of the earlier one. -/
def rulesOfBlocks (known : Option (List String)) (table : List (String × RuleSettings)) :
    List (Value × Value) → Except SettingsError (List (String × RuleSettings))
  | [] => .ok table
  | (key, block) :: rest =>
    let name := key.display
    match known with
    | some names =>
      if names.contains name then do
        let settings ← ruleOfValue name block
        rulesOfBlocks known (Association.set (fun a b => a == b) name settings table) rest
      else .error (.unknownRule name (sortedNames names))
    | none => do
      let settings ← ruleOfValue name block
      rulesOfBlocks known (Association.set (fun a b => a == b) name settings table) rest

/-- The settings in the entries of a document whose version is right. -/
def ofEntries (known : Option (List String)) (entries : List (Value × Value)) :
    Except SettingsError Settings := do
  let projectBase ← projectBaseOf (Value.get? "project_base" entries)
  let testMarker ← testMarkerOf (Value.get? "test_marker" entries)
  let excludes ← globs none (Value.get? "excludes" entries)
  let blocks ← ruleBlocks (Value.get? ruleSetName entries)
  let rules ← rulesOfBlocks known [] blocks
  return { projectBase, testMarker, excludes, rules }

/-- The settings in a document. If `known` is given, only those rules may be named. -/
def ofValue (known : Option (List String)) : Value → Except SettingsError Settings
  | .map entries => do
    checkVersion entries
    ofEntries known entries
  | _ => .error .notMapping

/-- The keys of a document that mean nothing and are ignored. They are looked for once the version is
known to be right. -/
def ignoredKeys : Value → List Value
  | .map entries =>
    match checkVersion entries with
    | .ok () => (entries.map (·.1)).filter fun key => !isNamed knownKeys key
    | .error _ => []
  | _ => []

/-- What is told about the ignored keys. -/
def logsOfValue (v : Value) : List LogRecord :=
  (ignoredKeys v).map fun key =>
    ⟨.debug, .settings, "Ignoring unknown key " ++ key.literal ++ " in " ++ fileName⟩

end Settings

/-- The name of a kind of collection in messages. -/
def Value.Collection.name : Value.Collection → String
  | .list => "list"
  | .map => "dict"
  | .set => "set"

/-- What is wrong, in words. -/
def SettingsError.message : SettingsError → String
  | .notMapping => Settings.fileName ++ " must be a YAML mapping"
  | .missingVersion => Settings.fileName ++ ": missing required 'version' field"
  | .incomparableVersion kind => "unhashable type: '" ++ kind.name ++ "'"
  | .unsupportedVersion version =>
    Settings.fileName ++ ": unsupported version " ++ version.display ++ ", expected one of [" ++
      toString Settings.supportedVersion ++ "]"
  | .projectBase => Settings.fileName ++ ": 'project_base' must be a non-empty string"
  | .testMarker => Settings.fileName ++ ": 'test_marker' must be a non-empty string"
  | .excludes rule =>
    (match rule with
     | none => Settings.fileName
     | some name => "Rule '" ++ name ++ "'") ++ ": 'excludes' must be a string or a list of strings"
  | .rulesNotMapping => Settings.fileName ++ ": '" ++ Settings.ruleSetName ++ "' must be a mapping"
  | .unknownRule name known =>
    Settings.fileName ++ ": unknown rule '" ++ name ++ "', must be one of " ++ Text.quotedList known
  | .ruleNotMapping name => "Rule '" ++ name ++ "': settings must be a mapping"
  | .active name => "Rule '" ++ name ++ "': 'active' must be true or false"
  | .severity name given =>
    "Rule '" ++ name ++ "': invalid severity '" ++ given ++ "', must be one of " ++
      Text.quotedList [Severity.error.name, Severity.warn.name]

end Strata
