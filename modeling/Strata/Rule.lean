import Strata.Glob
import Strata.Policy
import Strata.Settings.Basic
import Strata.SourceFile

/-!
# Rules

A rule looks at the imports or at the throws of a source and reports those that its policy forbids in the
layer of the source. Tests and excluded sources are left alone.
-/

namespace Strata

/-- What a rule checks. -/
inductive Check where
  /-- No imports from outside what the layer may import. -/
  | forbiddenImport
  /-- No throws in layers that must not throw. -/
  | noThrow
  deriving Repr, DecidableEq

namespace Check

/-- The name of a rule. -/
def name : Check → String
  | .forbiddenImport => "ForbiddenLayerImport"
  | .noThrow => "NoThrowOutsidePresentation"

/-- What a rule demands. -/
def description : Check → String
  | .forbiddenImport =>
    "Import not allowed in this layer. Only kotlin.*, java.*, arrow.core.*, arrow.fx.coroutines.*, " ++
      "kotlinx.coroutines.*, org.slf4j.*, and own layer packages are permitted."
  | .noThrow =>
    "throw is forbidden in domain, application, and infrastructure layers. " ++
      "Return Either<XxxError, T> instead."

/-- Does the check look at imports? -/
def looksAtImports : Check → Bool
  | .forbiddenImport => true
  | .noThrow => false

/-- Does the check look at throws? -/
def looksAtThrows : Check → Bool
  | .forbiddenImport => false
  | .noThrow => true

end Check

/-- A check with its settings, the policy that it enforces and the marker of tests. -/
structure Rule where
  check : Check
  settings : RuleSettings
  policy : Policy
  testMarker : String

namespace Rule

/-- The name of the rule. -/
def name (r : Rule) : String :=
  r.check.name

/-- The rule in short. -/
def summary (r : Rule) : String :=
  r.name ++ "Rule(active=" ++ (if r.settings.active then "True" else "False") ++ ", severity=" ++
    r.settings.severity.name ++ ")"

/-- Does the rule look at the source at that path? Not if it is a test or excluded. -/
def appliesTo (r : Rule) (path : String) : Bool :=
  !isTestSource r.testMarker path && !Glob.anyAccepts r.settings.excludes path

/-- A finding of the rule. -/
def finding (r : Rule) (file : SourceFile) (location : Location) (message : String) : Finding where
  rule := r.name
  path := file.path
  location := location
  message := message
  severity := r.settings.severity

/-- What an import is reported with. -/
def importMessage (path : String) (layer : Layer) : String :=
  "Import '" ++ path ++ "' is not allowed in " ++ layer.name ++ " layer."

/-- What a throw is reported with. -/
def throwMessage (package : String) : String :=
  "throw detected in package '" ++ package ++
    "'. Use a typed result (Either<XxxError, T>) instead of throwing."

/-- The finding for an import, if the rule is about imports and the layer may not import the path. It is
never reported without a readable path. -/
def visitImport (r : Rule) (file : SourceFile) (path : Option String) (location : Location) :
    Option Finding :=
  match r.check with
  | .noThrow => none
  | .forbiddenImport =>
    if !r.appliesTo file.path then none
    else match path with
      | none => none
      | some path =>
        let layer := r.policy.layerOf file.package
        match r.policy.lookup layer with
        | none => none
        | some entry =>
          if r.policy.allowsImport entry path then none
          else some (r.finding file location (importMessage path layer))

/-- The finding for a throw, if the rule is about throws and the layer must not throw. -/
def visitThrow (r : Rule) (file : SourceFile) (location : Location) : Option Finding :=
  match r.check with
  | .forbiddenImport => none
  | .noThrow =>
    if !r.appliesTo file.path then none
    else match r.policy.lookup (r.policy.layerOf file.package) with
      | none => none
      | some entry =>
        if entry.throwAllowed then none
        else some (r.finding file location (throwMessage file.package))

/-- The finding for an event. -/
def visit (r : Rule) (file : SourceFile) : Syntax.Event → Option Finding
  | .imported path location => r.visitImport file path location
  | .thrown location => r.visitThrow file location

end Rule

end Strata
