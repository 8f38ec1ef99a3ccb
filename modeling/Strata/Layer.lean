import Strata.Text.Search

/-!
# Architecture layers

A package below a project's base package belongs to the layer that its next segment names.
-/

namespace Strata

/-- The layers, from the innermost ring to the outermost, and `unclassified` for all else. -/
inductive Layer where
  | domain
  | application
  | infrastructure
  | presentation
  | framework
  | unclassified
  deriving Repr, DecidableEq, Inhabited

namespace Layer

/-- All layers in ring order. -/
def all : List Layer :=
  [.domain, .application, .infrastructure, .presentation, .framework, .unclassified]

/-- The name of a layer; for a proper layer also the package segment that stands for it. -/
def name : Layer → String
  | .domain => "domain"
  | .application => "application"
  | .infrastructure => "infrastructure"
  | .presentation => "presentation"
  | .framework => "framework"
  | .unclassified => "unclassified"

/-- The layer of that name. -/
def ofName? (s : String) : Option Layer :=
  all.find? fun l => l.name == s

/-- The layer that a package segment stands for. No segment stands for `unclassified`. -/
def ofSegment (segment : String) : Layer :=
  (ofName? segment).getD .unclassified

/-- The layer of a package of the project with the given base package. -/
def ofPackage (base package : String) : Layer :=
  match Text.afterPrefix? (base ++ ".").toList package.toList with
  | none => .unclassified
  | some rest => ofSegment (String.ofList (rest.takeWhile fun c => c != '.'))

/-- The base package of projects whose settings name none. -/
def defaultBase : String :=
  "com.wakita181009.cleanarchitecture"

end Layer

end Strata
