import Strata.Delivery
import Strata.Finding
import Strata.Log
import Strata.Text.Blank
import Strata.Text.Utf8

/-!
# Syntax trees

A tree of nodes as a parser gives it, and the events that rules look at: the imports and the throws of a
source, in the order in which they stand. `Node.readings` defines what there is to read by recursion on the
tree, and `walk` reads it with a worklist, up to the first import whose path does not decode.
-/

namespace Strata.Syntax

/-- A place in a source; rows and columns count from zero. -/
structure Point where
  row : Int
  column : Int
  deriving Repr, DecidableEq, Inhabited

/-- The part of a source from `start` up to `stop`. -/
structure Span where
  start : Point
  stop : Point
  deriving Repr, DecidableEq, Inhabited

/-- A node of a syntax tree. -/
inductive Node where
  /-- `kind` says what the node stands for; a node that is not `named` is a mere mark of the grammar. -/
  | mk (kind : String) (named : Bool) (text : ByteArray) (span : Span) (children : List Node)
  deriving Inhabited

namespace Node

def kind : Node → String
  | mk kind _ _ _ _ => kind

def named : Node → Bool
  | mk _ named _ _ _ => named

def text : Node → ByteArray
  | mk _ _ text _ _ => text

def span : Node → Span
  | mk _ _ _ span _ => span

def children : Node → List Node
  | mk _ _ _ _ children => children

mutual

/-- The number of nodes of a tree. -/
def size : Node → Nat
  | mk _ _ _ _ children => sizes children + 1

/-- The number of nodes of several trees. -/
def sizes : List Node → Nat
  | [] => 0
  | n :: rest => n.size + sizes rest

end

/-- The node's span as a location. -/
def location (n : Node) : Location where
  line := n.span.start.row + 1
  column := n.span.start.column + 1
  endLine := some (n.span.stop.row + 1)
  endColumn := some (n.span.stop.column + 1)

/-- Is the node an import? -/
def isImport (n : Node) : Bool :=
  n.kind = "import" || n.kind = "import_header"

/-- Is the node a dotted path? -/
def isPath (n : Node) : Bool :=
  n.kind = "qualified_identifier" || n.kind = "identifier"

/-- Is the node a throw? Some grammars have a kind of their own for it, others one for all jumps. -/
def isThrow (n : Node) : Bool :=
  n.kind = "throw_expression" ||
    (n.kind = "jump_expression" && (n.children.head?.map kind) == some "throw")

/-- The first named path among the children of a node. -/
def pathChild? (n : Node) : Option Node :=
  n.children.find? fun c => c.named && c.isPath

/-- The dotted path below a node: the pieces of its first named path, joined. An empty path is none. -/
def dottedPath (n : Node) : Except Text.Utf8.Fault (Option String) :=
  match n.pathChild? with
  | none => .ok none
  | some c =>
    match Text.Utf8.decode c.text with
    | .error f => .error f
    | .ok s =>
      let path := String.join (Text.pieces s)
      .ok (if path = "" then none else some path)

/-- The package that a source with this root declares; empty if it declares none. -/
def packageName (root : Node) : Except Text.Utf8.Fault String :=
  match root.children.find? fun c => c.kind = "package_header" with
  | none => .ok ""
  | some header => header.dottedPath.map fun path => path.getD ""

end Node

/-- What rules look at. -/
inductive Event where
  /-- An import; its path is `none` if it cannot be read. -/
  | imported (path : Option String) (location : Location)
  | thrown (location : Location)
  deriving Repr, DecidableEq

/-- Where an event stands. -/
def Event.location : Event → Location
  | .imported _ location => location
  | .thrown location => location

namespace Node

/-- The event of an import. -/
def importEvent (n : Node) : Except Text.Utf8.Fault Event :=
  n.dottedPath.map fun path => .imported path n.location

/-- The event of a node that is no import: a throw, or nothing. -/
def throwEvents (n : Node) : List Event :=
  if n.isThrow then [.thrown n.location] else []

mutual

/-- What there is to read in a tree, in order: an import is one reading, which may fault, and nothing below
it counts; any other node gives its throw, if it is one, and then the readings of its children. -/
def readings : Node → List (Except Text.Utf8.Fault Event)
  | mk kind named text span children =>
    let n := mk kind named text span children
    if n.isImport then [n.importEvent]
    else n.throwEvents.map .ok ++ readingsOfAll children

/-- The readings of several trees, one after the other. -/
def readingsOfAll : List Node → List (Except Text.Utf8.Fault Event)
  | [] => []
  | n :: rest => n.readings ++ readingsOfAll rest

end

theorem sizes_append (a b : List Node) : sizes (a ++ b) = sizes a + sizes b := by
  induction a with
  | nil => simp [sizes]
  | cons n a ih => simp [sizes, ih, Nat.add_assoc]

theorem size_eq (n : Node) : n.size = sizes n.children + 1 := by
  cases n; simp [size, children]

end Node

/-- A walk under way: the trees that wait, the next one first, and the events told so far, the last one
first. -/
structure Walk where
  waiting : List Node
  told : List Event

namespace Walk

/-- A walk that is about to begin. -/
def start (root : Node) : Walk :=
  ⟨[root], []⟩

/-- One turn of a walk: the next tree is taken from the front, and its children are put there. The walk ends
when no tree waits, and at an import whose path does not decode. -/
def turn : Walk → Delivery Text.Utf8.Fault Event ⊕ Walk
  | ⟨[], told⟩ => .inl ⟨told.reverse, none⟩
  | ⟨n :: waiting, told⟩ =>
    if n.isImport then
      match n.importEvent with
      | .error f => .inl ⟨told.reverse, some f⟩
      | .ok e => .inr ⟨waiting, e :: told⟩
    else .inr ⟨n.children ++ waiting, n.throwEvents ++ told⟩

/-- Every turn leaves fewer nodes to visit. -/
theorem sizes_turn {w w' : Walk} (h : w.turn = .inr w') :
    Node.sizes w'.waiting < Node.sizes w.waiting := by
  obtain ⟨waiting, told⟩ := w
  cases waiting with
  | nil => simp [turn] at h
  | cons n waiting =>
    have hsize := n.size_eq
    simp only [turn] at h
    split at h
    · split at h
      · cases h
      · cases h
        simp only [Node.sizes]
        omega
    · cases h
      simp only [Node.sizes, Node.sizes_append]
      omega

/-- What a walk has told when it ends. -/
def finish (w : Walk) : Delivery Text.Utf8.Fault Event :=
  match _h : w.turn with
  | .inl d => d
  | .inr w' => w'.finish
termination_by Node.sizes w.waiting
decreasing_by exact sizes_turn _h

end Walk

/-- The events of a tree as they are told, found with a worklist, so that the depth of a tree is no limit. -/
def walk (root : Node) : Delivery Text.Utf8.Fault Event :=
  (Walk.start root).finish

/-- The events of a tree, all or none. -/
def deliver (root : Node) : Except Text.Utf8.Fault (List Event) :=
  (walk root).complete

/-- The imports whose path cannot be read. -/
def unreadableImports (events : List Event) : List Location :=
  events.filterMap fun
    | .imported none location => some location
    | _ => none

/-- What is told about imports without a readable path. -/
def logsOfEvents (events : List Event) : List LogRecord :=
  (unreadableImports events).map fun l =>
    ⟨.debug, .syntaxTree, "Import without a readable path at " ++ l.text⟩

end Strata.Syntax
