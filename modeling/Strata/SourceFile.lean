import Strata.Syntax.Node

/-!
# Source files

A source that is ready for analysis: where it comes from, the package it declares, and its imports and
throws.
-/

namespace Strata

/-- Where the events of a source come from. -/
inductive SourceTree where
  /-- The tree of a parsed source. -/
  | parsed (root : Syntax.Node)
  /-- Events recorded before. -/
  | recorded (events : List Syntax.Event)

/-- The events of a source as they are told. -/
def SourceTree.delivery : SourceTree → Delivery Text.Utf8.Fault Syntax.Event
  | .parsed root => Syntax.walk root
  | .recorded events => ⟨events, none⟩

/-- The events of a source in order, all or none. -/
def SourceTree.events (t : SourceTree) : Except Text.Utf8.Fault (List Syntax.Event) :=
  t.delivery.complete

/-- A source. -/
structure SourceFile where
  path : String
  package : String
  tree : SourceTree

/-- The source with this tree. -/
def SourceFile.ofTree (path : String) (root : Syntax.Node) : Except Text.Utf8.Fault SourceFile :=
  root.packageName.map fun package => ⟨path, package, .parsed root⟩

end Strata
