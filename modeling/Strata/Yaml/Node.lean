import Strata.Yaml.Tag
import Strata.Yaml.Tokens

/-!
# YAML nodes

The tree of a document, with tags resolved and references replaced by what they refer to. A document that
refers to a node from within that node has no finite tree and is refused.
-/

namespace Strata.Yaml

/-- A node. -/
inductive Node where
  | scalar (tag : Tag) (text : String)
  | sequence (tag : Tag) (items : List Node)
  | mapping (tag : Tag) (entries : List (Node × Node))
  deriving Repr, Inhabited

/-- What is known while nodes are read. -/
structure Reader where
  /-- The tokens still to be read. -/
  tokens : List Token
  /-- The error behind the last token. -/
  failure : Error
  /-- The named nodes; one that is not complete yet has no node. -/
  anchors : List (String × Option Node) := []
  /-- What the handles of tags stand for. -/
  handles : List (String × String) := []

namespace Reader

/-- The next token. -/
def peek (r : Reader) : Except Error Token :=
  match r.tokens with
  | [] => .error r.failure
  | t :: _ => .ok t

/-- The reader behind the next token. -/
def skip (r : Reader) : Reader :=
  { r with tokens := r.tokens.tail }

/-- What may stand before a node. -/
structure Properties where
  anchor : Option String := none
  tag : Option (Option String × String) := none

/-- An anchor and a tag, in either order and each at most once. -/
def properties (r : Reader) : Except Error (Properties × Reader) := do
  match ← r.peek with
  | .anchor name =>
    let r := r.skip
    match ← r.peek with
    | .tag handle suffix => return (⟨some name, some (handle, suffix)⟩, r.skip)
    | _ => return (⟨some name, none⟩, r)
  | .tag handle suffix =>
    let r := r.skip
    match ← r.peek with
    | .anchor name => return (⟨some name, some (handle, suffix)⟩, r.skip)
    | _ => return (⟨none, some (handle, suffix)⟩, r)
  | _ => return ({}, r)

/-- The full text of a tag. A lone exclamation mark is no tag. -/
def fullTag (r : Reader) : Option (Option String × String) → Except Error (Option String)
  | none => .ok none
  | some (none, suffix) => .ok (if suffix = "!" then none else some suffix)
  | some (some handle, suffix) =>
    match r.handles.lookup handle with
    | none => .error .malformed
    | some stem => .ok (if stem ++ suffix = "!" then none else some (stem ++ suffix))

/-- An anchor that is not named yet is opened: its node is not complete. -/
def openAnchor (name : Option String) (r : Reader) : Except Error Reader :=
  match name with
  | none => .ok r
  | some a =>
    if (r.anchors.lookup a).isSome then .error .malformed
    else .ok { r with anchors := (a, none) :: r.anchors }

/-- An anchor is closed: its node is complete. -/
def closeAnchor (name : Option String) (n : Node) (r : Reader) : Reader :=
  match name with
  | none => r
  | some a => { r with anchors := (a, some n) :: r.anchors }

/-- The node of nothing at all. -/
def emptyNode : Node :=
  .scalar .null ""

/-- A scalar, with the tag that it is given or that its text implies. A lone exclamation mark makes a
quoted scalar be read like a plain one. -/
def scalarNode (full : Option String) (bare plain : Bool) (text : String) : Node :=
  match full with
  | some t => .scalar (Tag.ofText t) text
  | none => .scalar (if plain || bare then Tag.implied text else .string) text

/-- The tag of a collection. -/
def collectionTag (full : Option String) (usual : Tag) : Tag :=
  match full with
  | some t => Tag.ofText t
  | none => usual

mutual

/-- A node. `block` says whether block collections may begin here, `indentless` whether the items of a
sequence may stand without an indentation of their own. -/
def node (block indentless : Bool) : Nat → Reader → Except Error (Node × Reader)
  | 0, _ => .error .malformed
  | fuel + 1, r => do
    match ← r.peek with
    | .reference name =>
      match r.anchors.lookup name with
      | some (some n) => return (n, r.skip)
      | _ => .error .malformed
    | _ =>
      let (props, r) ← r.properties
      let full ← r.fullTag props.tag
      let r ← r.openAnchor props.anchor
      let close (result : Node × Reader) := (result.1, result.2.closeAnchor props.anchor result.1)
      let sequence (result : List Node × Reader) :=
        close (.sequence (collectionTag full .sequence) result.1, result.2)
      let mapping (result : List (Node × Node) × Reader) :=
        close (.mapping (collectionTag full .mapping) result.1, result.2)
      match ← r.peek with
      | .blockEntry =>
        if indentless then sequence <$> indentlessItems fuel r
        else if props.anchor.isSome ∨ props.tag.isSome then
          return close (scalarNode full props.tag.isSome true "", r)
        else .error .malformed
      | .scalar text plain =>
        return close (scalarNode full props.tag.isSome plain text, r.skip)
      | .openSequence => sequence <$> flowItems true fuel r.skip
      | .openMapping => mapping <$> flowEntries true fuel r.skip
      | t =>
        if block ∧ t = .blockSequence then sequence <$> blockItems fuel r.skip
        else if block ∧ t = .blockMapping then mapping <$> blockEntries fuel r.skip
        else if props.anchor.isSome ∨ props.tag.isSome then
          return close (scalarNode full props.tag.isSome true "", r)
        else .error .malformed

/-- The items of a block sequence, up to its end. -/
def blockItems : Nat → Reader → Except Error (List Node × Reader)
  | 0, _ => .error .malformed
  | fuel + 1, r => do
    match ← r.peek with
    | .blockEntry =>
      let r := r.skip
      let (item, r) ← match ← r.peek with
        | .blockEntry | .blockEnd => pure (emptyNode, r)
        | _ => node true false fuel r
      let (items, r) ← blockItems fuel r
      return (item :: items, r)
    | .blockEnd => return ([], r.skip)
    | _ => .error .malformed

/-- The items of a sequence without an indentation of its own, up to what is no item. -/
def indentlessItems : Nat → Reader → Except Error (List Node × Reader)
  | 0, _ => .error .malformed
  | fuel + 1, r => do
    match ← r.peek with
    | .blockEntry =>
      let r := r.skip
      let (item, r) ← match ← r.peek with
        | .blockEntry | .key | .value | .blockEnd => pure (emptyNode, r)
        | _ => node true false fuel r
      let (items, r) ← indentlessItems fuel r
      return (item :: items, r)
    | _ => return ([], r)

/-- The entries of a block mapping, up to its end. -/
def blockEntries : Nat → Reader → Except Error (List (Node × Node) × Reader)
  | 0, _ => .error .malformed
  | fuel + 1, r => do
    match ← r.peek with
    | .key =>
      let r := r.skip
      let (key, r) ← match ← r.peek with
        | .key | .value | .blockEnd => pure (emptyNode, r)
        | _ => node true true fuel r
      let (value, r) ← blockValue fuel r
      let (entries, r) ← blockEntries fuel r
      return ((key, value) :: entries, r)
    | .blockEnd => return ([], r.skip)
    | _ => .error .malformed

/-- The value of an entry of a block mapping; there may be none. -/
def blockValue : Nat → Reader → Except Error (Node × Reader)
  | 0, _ => .error .malformed
  | fuel + 1, r => do
    match ← r.peek with
    | .value =>
      let r := r.skip
      match ← r.peek with
      | .key | .value | .blockEnd => return (emptyNode, r)
      | _ => node true true fuel r
    | _ => return (emptyNode, r)

/-- The items of a flow sequence, up to its end. Behind the first there must be a comma before each. An
item with a colon is a mapping of one entry. -/
def flowItems (first : Bool) : Nat → Reader → Except Error (List Node × Reader)
  | 0, _ => .error .malformed
  | fuel + 1, r => do
    match ← r.peek with
    | .closeSequence => return ([], r.skip)
    | t =>
      let r ← if first then pure r else if t = .flowEntry then pure r.skip else .error .malformed
      match ← r.peek with
      | .closeSequence => return ([], r.skip)
      | .key =>
        let r := r.skip
        let (key, r) ← match ← r.peek with
          | .value | .flowEntry | .closeSequence => pure (emptyNode, r)
          | _ => node false false fuel r
        let (value, r) ← flowValue .closeSequence fuel r
        let (items, r) ← flowItems false fuel r
        return (.mapping .mapping [(key, value)] :: items, r)
      | _ =>
        let (item, r) ← node false false fuel r
        let (items, r) ← flowItems false fuel r
        return (item :: items, r)

/-- The entries of a flow mapping, up to its end. Behind the first there must be a comma before each. -/
def flowEntries (first : Bool) : Nat → Reader → Except Error (List (Node × Node) × Reader)
  | 0, _ => .error .malformed
  | fuel + 1, r => do
    match ← r.peek with
    | .closeMapping => return ([], r.skip)
    | t =>
      let r ← if first then pure r else if t = .flowEntry then pure r.skip else .error .malformed
      match ← r.peek with
      | .closeMapping => return ([], r.skip)
      | .key =>
        let r := r.skip
        let (key, r) ← match ← r.peek with
          | .value | .flowEntry | .closeMapping => pure (emptyNode, r)
          | _ => node false false fuel r
        let (value, r) ← flowValue .closeMapping fuel r
        let (entries, r) ← flowEntries false fuel r
        return ((key, value) :: entries, r)
      | _ =>
        let (key, r) ← node false false fuel r
        let (entries, r) ← flowEntries false fuel r
        return ((key, emptyNode) :: entries, r)

/-- The value of an entry of a flow collection that ends with `close`; there may be none. -/
def flowValue (close : Token) : Nat → Reader → Except Error (Node × Reader)
  | 0, _ => .error .malformed
  | fuel + 1, r => do
    match ← r.peek with
    | .value =>
      let r := r.skip
      let t ← r.peek
      if t = .flowEntry ∨ t = close then return (emptyNode, r) else node false false fuel r
    | _ => return (emptyNode, r)

end

/-- The handles that need no directive. -/
def defaultHandles : List (String × String) :=
  [("!", "!"), ("!!", dataStem)]

/-- The directives before a document: what they say of handles, and the reader behind them. -/
def directives (handles : List (String × String)) (versionSeen : Bool) :
    Nat → Reader → Except Error Reader
  | 0, _ => .error .malformed
  | fuel + 1, r => do
    match ← r.peek with
    | .directive (.version major _) =>
      if versionSeen ∨ major ≠ 1 then .error .malformed else directives handles true fuel r.skip
    | .directive (.tag handle stem) =>
      if (handles.lookup handle).isSome then .error .malformed
      else directives ((handle, stem) :: handles) versionSeen fuel r.skip
    | .directive .other => directives handles versionSeen fuel r.skip
    | _ => return { r with handles := handles ++ defaultHandles }

/-- The content of the first document; `none` if there is no document. -/
def document (fuel : Nat) (r : Reader) : Except Error (Option Node × Reader) := do
  match ← r.peek with
  | .streamEnd => return (none, r)
  | .directive _ | .documentStart =>
    let r ← r.directives [] false fuel
    match ← r.peek with
    | .documentStart =>
      let r := r.skip
      match ← r.peek with
      | .directive _ | .documentStart | .documentEnd | .streamEnd => return (some emptyNode, r)
      | _ =>
        let (n, r) ← node true false fuel r
        return (some n, r)
    | _ => .error .malformed
  | _ =>
    let (n, r) ← node true false fuel { r with handles := defaultHandles }
    return (some n, r)

/-- There may be no second document: only ends of documents may follow. -/
def atEnd : List Token → Bool
  | .documentEnd :: rest => atEnd rest
  | .streamEnd :: _ => true
  | _ => false

end Reader

/-- The tree of a text that holds one document or none. -/
def Node.ofText? (text : List Char) : Except Error (Option Node) := do
  let (tokens, failure) := tokensOf text
  let reader : Reader := { tokens, failure := failure.getD .malformed }
  let (n, r) ← reader.document (4 * tokens.length + 8)
  if Reader.atEnd r.tokens then return n
  else match failure with
    | some e => if r.tokens.all (· = .documentEnd) then .error e else .error .malformed
    | none => .error .malformed

end Strata.Yaml
