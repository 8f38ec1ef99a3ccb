import Strata.Association
import Strata.Layer

/-!
# Policies

A policy says of each layer what its sources may import and whether they may throw. Imports are allowed
by prefix: the common prefixes in every constrained layer, further ones layer by layer.
-/

namespace Strata

/-- What one layer may do. -/
structure LayerPolicy where
  /-- The prefixes that the layer may import besides the common ones; `none` if it may import
  anything. -/
  prefixes : Option (List String)
  throwAllowed : Bool
  deriving Repr, DecidableEq, Inhabited

/-- A policy for the packages below a base package. A layer without an entry is not governed. -/
structure Policy where
  entries : List (Layer × LayerPolicy)
  common : List String
  base : String
  deriving Repr, DecidableEq, Inhabited

namespace Policy

/-- The prefixes that every governed layer may import. -/
def defaultCommon : List String :=
  ["kotlin.", "java.", "arrow.core.", "arrow.fx.coroutines.", "kotlinx.coroutines.", "org.slf4j."]

/-- The policy with these entries; of several for one layer the last counts, at the place of the
first. -/
def ofEntries (entries : List (Layer × LayerPolicy)) (common : List String) (base : String) : Policy :=
  ⟨Association.ofEntries (fun a b => a == b) entries, common, base⟩

/-- The entry of a layer. -/
def lookup (p : Policy) (layer : Layer) : Option LayerPolicy :=
  Association.get? (fun a b => a == b) layer p.entries

/-- The layer of a package. -/
def layerOf (p : Policy) (package : String) : Layer :=
  Layer.ofPackage p.base package

/-- May a layer with this entry import that path? -/
def allowsImport (p : Policy) (entry : LayerPolicy) (path : String) : Bool :=
  match entry.prefixes with
  | none => true
  | some own => p.common.any (Text.beginsWith path ·) || own.any (Text.beginsWith path ·)

/-- The policy for a base package: the domain imports only itself, the application also the domain, and
only the presentation throws. -/
def standard (base : String) : Policy where
  entries := [
    (.domain, ⟨some [base ++ ".domain."], false⟩),
    (.application, ⟨some [base ++ ".domain.", base ++ ".application."], false⟩),
    (.infrastructure, ⟨none, false⟩),
    (.presentation, ⟨none, true⟩)]
  common := defaultCommon
  base := base

end Policy

end Strata
