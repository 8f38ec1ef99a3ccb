import Strata.Yaml.Node
import Strata.Yaml.Scalar

/-!
# Documents

The value of a YAML document. Collections are filled level by level, so of several faults the one that
counts is on the shallowest level and, on that level, the first.

Values are finite trees. A collection that is an item of itself, through an alias inside its own anchor, has no value
here and counts as malformed. A mapping with a default value stands for that value under every scalar tag, that of
times included.
-/

namespace Strata.Yaml

/-- A fault and the level on which it is found. -/
abbrev Faults := List (Nat × Error)

namespace Node

/-- The tag of a node. -/
def tag : Node → Tag
  | .scalar tag _ => tag
  | .sequence tag _ => tag
  | .mapping tag _ => tag

mutual

/-- The entries of a mapping with those of the mappings that it merges in front. Of several mappings that
are merged under one key the last comes first. -/
def mergedEntries : List (Node × Node) → Except Error (List (Node × Node) × List (Node × Node))
  | [] => .ok ([], [])
  | (k, v) :: rest =>
    if k.tag = .merge then do
      let first ← entriesToMerge v
      let (merged, own) ← mergedEntries rest
      return (first ++ merged, own)
    else do
      let (merged, own) ← mergedEntries rest
      return (merged, (k, v) :: own)

/-- The entries that a merge key brings: those of a mapping, or of a sequence of mappings. -/
def entriesToMerge : Node → Except Error (List (Node × Node))
  | .mapping _ entries => (mergedEntries entries).map fun (merged, own) => merged ++ own
  | .sequence _ items => entriesOfMappings items
  | .scalar _ _ => .error .malformed

/-- The entries of mappings, the last mapping first. -/
def entriesOfMappings : List Node → Except Error (List (Node × Node))
  | [] => .ok []
  | .mapping _ entries :: rest => do
    let (merged, own) ← mergedEntries entries
    let later ← entriesOfMappings rest
    return later ++ (merged ++ own)
  | _ :: _ => .error .malformed

end

/-- All entries of a mapping, those that it merges first. -/
def allEntries (entries : List (Node × Node)) : Except Error (List (Node × Node)) :=
  (mergedEntries entries).map fun (merged, own) => merged ++ own

mutual

/-- The text of a scalar; a mapping with a default value stands for that value. -/
def scalarText : Node → Except Error String
  | .scalar _ text => .ok text
  | .sequence _ _ => .error .malformed
  | .mapping _ entries => defaultText entries

/-- The text of the default value among the entries. -/
def defaultText : List (Node × Node) → Except Error String
  | [] => .error .malformed
  | (k, v) :: rest => if k.tag = .defaultValue then v.scalarText else defaultText rest

end

/-- The value that a scalar tag gives to a node. -/
def scalarValue (read : String → Except Error Value) (n : Node) : Except Error Value :=
  match n.scalarText with
  | .ok text => read text
  | .error e => .error e

/-- What a node yields: a value, and the faults in it. A node with a fault yields some value. -/
abbrev Yield := Value × Faults

/-- The yield of a scalar on a level. -/
def scalarYield (level : Nat) : Except Error Value → Yield
  | .ok v => (v, [])
  | .error e => (.null, [(level, e)])

mutual

/-- The yield of a node. A collection is filled on the level below its own. -/
def yield : Nat → Nat → Node → Yield
  | 0, level, _ => (.null, [(level, .malformed)])
  | fuel + 1, level, n =>
    match n.tag with
    | .null => scalarYield level (n.scalarValue fun _ => .ok .null)
    | .bool => scalarYield level (n.scalarValue Scalar.bool)
    | .int => scalarYield level (n.scalarValue Scalar.int)
    | .float => scalarYield level (n.scalarValue Scalar.float)
    | .timestamp => scalarYield level (n.scalarValue Scalar.timestamp)
    | .string => scalarYield level (n.scalarValue fun text => .ok (.string text))
    | .binary => scalarYield level (n.scalarValue Scalar.binary)
    | .merge | .defaultValue | .other => (.null, [(level, .malformed)])
    | .sequence =>
      match n with
      | .sequence _ items =>
        let (values, faults) := yieldItems fuel (level + 1) items
        (.list values, faults)
      | _ => (.null, [(level + 1, .malformed)])
    | .mapping =>
      let (entries, faults) := yieldMapping fuel (level + 1) n
      (.map entries, faults)
    | .set =>
      let (entries, faults) := yieldMapping fuel (level + 1) n
      (.set (entries.map (·.1)), faults)
    | .orderedMapping | .pairs =>
      match n with
      | .sequence _ items =>
        let (values, faults) := yieldPairs fuel (level + 1) items
        (.list values, faults)
      | _ => (.null, [(level + 1, .malformed)])

/-- The yields of the items of a sequence. -/
def yieldItems : Nat → Nat → List Node → List Value × Faults
  | 0, level, _ => ([], [(level, .malformed)])
  | _ + 1, _, [] => ([], [])
  | fuel + 1, level, n :: rest =>
    let (v, faults) := yield fuel level n
    let (vs, more) := yieldItems fuel level rest
    (v :: vs, faults ++ more)

/-- The table of a mapping, merged mappings included. -/
def yieldMapping : Nat → Nat → Node → List (Value × Value) × Faults
  | 0, level, _ => ([], [(level, .malformed)])
  | fuel + 1, level, .mapping _ entries =>
    match allEntries entries with
    | .error e => ([], [(level, e)])
    | .ok all =>
      let (pairs, faults) := yieldEntries fuel level all
      (Association.ofEntries Value.sameKey pairs, faults)
  | _ + 1, level, _ => ([], [(level, .malformed)])

/-- The yields of entries. A collection is no key; nothing behind it counts. -/
def yieldEntries : Nat → Nat → List (Node × Node) → List (Value × Value) × Faults
  | 0, level, _ => ([], [(level, .malformed)])
  | _ + 1, _, [] => ([], [])
  | fuel + 1, level, (k, v) :: rest =>
    let (key, faults) := yieldKey fuel level k
    let (value, more) := yield fuel level v
    let (others, yetMore) := yieldEntries fuel level rest
    ((key, value) :: others, faults ++ more ++ yetMore)

/-- The yield of a key. The key of a default value is a text. -/
def yieldKey : Nat → Nat → Node → Yield
  | 0, level, _ => (.null, [(level, .malformed)])
  | fuel + 1, level, n =>
    match n.tag with
    | .defaultValue => scalarYield level (n.scalarValue fun text => .ok (.string text))
    | .sequence | .mapping | .set | .orderedMapping | .pairs => (.null, [(level, .malformed)])
    | _ => yield fuel level n

/-- The pairs of an ordered list of entries: each item must be a mapping of one entry, which is taken as
it stands. -/
def yieldPairs : Nat → Nat → List Node → List Value × Faults
  | 0, level, _ => ([], [(level, .malformed)])
  | _ + 1, _, [] => ([], [])
  | fuel + 1, level, .mapping _ [(k, v)] :: rest =>
    let (key, faults) := yield fuel level k
    let (value, more) := yield fuel level v
    let (others, yetMore) := yieldPairs fuel level rest
    (.pair key value :: others, faults ++ more ++ yetMore)
  | _ + 1, level, _ :: _ => ([], [(level, .malformed)])

end

end Node

/-- The fault that counts: the first on the shallowest level. -/
def firstFault : Faults → Option (Nat × Error)
  | [] => none
  | f :: rest =>
    match firstFault rest with
    | some g => if g.1 < f.1 then some g else some f
    | none => some f

mutual

/-- The number of nodes of a tree, entries counting as well. -/
def Node.weight : Node → Nat
  | .scalar _ _ => 1
  | .sequence _ items => weights items + 1
  | .mapping _ entries => entryWeights entries + 1

/-- The number of nodes of several trees. -/
def weights : List Node → Nat
  | [] => 0
  | n :: rest => n.weight + weights rest + 1

/-- The number of nodes of several entries. -/
def entryWeights : List (Node × Node) → Nat
  | [] => 0
  | (k, v) :: rest => k.weight + v.weight + entryWeights rest + 1

end

/-- The value of a tree. -/
def Node.value (n : Node) : Except Error Value :=
  let (v, faults) := n.yield (4 * n.weight + 4) 0
  match firstFault faults with
  | some (_, e) => .error e
  | none => .ok v

/-- The value of a text that holds one document; a text without a document has the value `null`. -/
def read (text : String) : Except Error Value :=
  match Node.ofText? text.toList with
  | .error e => .error e
  | .ok none => .ok .null
  | .ok (some n) => n.value

end Strata.Yaml
