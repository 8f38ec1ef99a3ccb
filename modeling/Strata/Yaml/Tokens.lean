import Strata.Yaml.Token

/-!
# The tokens of a YAML text

Most tokens stand in the text. Block collections begin and end where the indentation says, and the key of
a mapping is only known as such once its colon is read: until then the place where it would start is kept
as a pending key, one for each level of flow collections.
-/

namespace Strata.Yaml

/-- A place that may turn out to be the start of a key. -/
structure PendingKey where
  /-- The number of tokens before it. -/
  position : Nat
  /-- Must there be a colon, because nothing else can stand here? -/
  required : Bool
  index : Nat
  line : Nat
  column : Nat
  deriving Repr, Inhabited

/-- What is known while tokens are read. -/
structure Scanner where
  cursor : Cursor
  /-- The tokens found so far. -/
  tokens : Array Token := #[]
  /-- How many flow collections are open. -/
  flowLevel : Nat := 0
  /-- The indentation of the innermost block collection, -1 if there is none, and those around it. -/
  indent : Int := -1
  outerIndents : List Int := []
  /-- May a key start here? -/
  keyAllowed : Bool := true
  /-- Pending keys by the level of flow collections at which they stand. -/
  pending : List (Nat × PendingKey) := []
  deriving Inhabited

namespace Scanner

/-- The scanner with one more token. -/
def push (s : Scanner) (t : Token) : Scanner :=
  { s with tokens := s.tokens.push t }

/-- The scanner with a token put before the one at a position. -/
def insertAt (s : Scanner) (position : Nat) (t : Token) : Scanner :=
  { s with tokens := s.tokens.extract 0 position ++ #[t] ++ s.tokens.extract position s.tokens.size }

/-- Pending keys that can no longer be keys are given up: a key is on one line and at most 1024
characters long. It is an error to give up a required one. -/
def giveUpStale (s : Scanner) : Except Error Scanner :=
  let stale (k : PendingKey) := k.line ≠ s.cursor.line || s.cursor.index - k.index > 1024
  if s.pending.any fun p => stale p.2 && p.2.required then .error .malformed
  else .ok { s with pending := s.pending.filter fun p => !stale p.2 }

/-- The pending key of the current level is given up, unless it is required. -/
def dropPending (s : Scanner) : Except Error Scanner :=
  match s.pending.lookup s.flowLevel with
  | none => .ok s
  | some k =>
    if k.required then .error .malformed
    else .ok { s with pending := s.pending.filter fun p => p.1 != s.flowLevel }

/-- If a key may start here, this place is kept as a pending key. -/
def keepPending (s : Scanner) : Except Error Scanner :=
  if s.keyAllowed then do
    let s ← s.dropPending
    let key : PendingKey := {
      position := s.tokens.size
      required := s.flowLevel = 0 && s.indent = (s.cursor.column : Int)
      index := s.cursor.index
      line := s.cursor.line
      column := s.cursor.column }
    return { s with pending := (s.flowLevel, key) :: s.pending }
  else .ok s

/-- Block collections that are indented deeper than a column end. -/
def closeBlocks (column : Int) : List Int → Scanner → Scanner
  | outer, s =>
    if s.flowLevel ≠ 0 ∨ s.indent ≤ column then { s with outerIndents := outer }
    else match outer with
      | [] => { s with outerIndents := [] }
      | i :: rest => closeBlocks column rest { (s.push .blockEnd) with indent := i }

/-- Block collections that are indented deeper than a column end. -/
def unwind (column : Int) (s : Scanner) : Scanner :=
  closeBlocks column s.outerIndents s

/-- Is a column deeper than the innermost block collection? Then a new one begins there. -/
def deepen (column : Nat) (s : Scanner) : Option Scanner :=
  if s.indent < (column : Int) then
    some { s with indent := column, outerIndents := s.indent :: s.outerIndents }
  else none

/-- A token of `width` characters. -/
def mark (t : Token) (width : Nat) (s : Scanner) : Scanner :=
  { (s.push t) with cursor := s.cursor.skip width }

/-! ## One token each -/

/-- The end of the text. -/
def streamEnd (s : Scanner) : Except Error Scanner := do
  let s ← (s.unwind (-1)).dropPending
  return { (s.push .streamEnd) with keyAllowed := false, pending := [] }

/-- A directive. -/
def directive (s : Scanner) : Except Error Scanner := do
  let s ← (s.unwind (-1)).dropPending
  let (token, cursor) ← s.cursor.directive
  return { (s.push token) with cursor, keyAllowed := false }

/-- A line that begins or ends a document. -/
def documentMarker (t : Token) (s : Scanner) : Except Error Scanner := do
  let s ← (s.unwind (-1)).dropPending
  return { (s.mark t 3) with keyAllowed := false }

/-- A flow collection begins. -/
def openFlow (t : Token) (s : Scanner) : Except Error Scanner := do
  let s ← s.keepPending
  return { (s.mark t 1) with flowLevel := s.flowLevel + 1, keyAllowed := true }

/-- A flow collection ends. -/
def closeFlow (t : Token) (s : Scanner) : Except Error Scanner := do
  let s ← s.dropPending
  if s.flowLevel = 0 then .error .malformed
  else return { (s.mark t 1) with flowLevel := s.flowLevel - 1, keyAllowed := false }

/-- A comma of a flow collection. -/
def flowEntry (s : Scanner) : Except Error Scanner := do
  let s ← s.dropPending
  return { (s.mark .flowEntry 1) with keyAllowed := true }

/-- The mark of an item or a key; in a block it may begin a collection. -/
def blockMark (opening t : Token) (keyAllowed : Bool) (s : Scanner) : Except Error Scanner := do
  let s ←
    if s.flowLevel ≠ 0 then pure s
    else if !s.keyAllowed then .error .malformed
    else pure (match s.deepen s.cursor.column with
      | some deeper => deeper.push opening
      | none => s)
  let s ← s.dropPending
  return { (s.mark t 1) with keyAllowed }

/-- The colon of a mapping. If a key is pending, it starts where it was noted. -/
def value (s : Scanner) : Except Error Scanner :=
  match s.pending.lookup s.flowLevel with
  | some k =>
    let s := { s with pending := s.pending.filter fun p => p.1 != s.flowLevel }
    let s := s.insertAt k.position .key
    let s :=
      if s.flowLevel ≠ 0 then s
      else match s.deepen k.column with
        | some deeper => deeper.insertAt k.position .blockMapping
        | none => s
    .ok { (s.mark .value 1) with keyAllowed := false }
  | none => s.blockMark .blockMapping .value (s.flowLevel = 0)

/-- A word that may begin a key. -/
def word (read : Cursor → Except Error (Token × Cursor)) (s : Scanner) : Except Error Scanner := do
  let s ← s.keepPending
  let (token, cursor) ← read s.cursor
  return { (s.push token) with cursor, keyAllowed := false }

/-- A block scalar. -/
def blockScalar (s : Scanner) : Except Error Scanner := do
  let s ← s.dropPending
  let (token, cursor) ← s.cursor.block s.indent
  return { (s.push token) with cursor, keyAllowed := true }

/-- A plain scalar. A key may start behind it only on a line of its own. -/
def plainScalar (s : Scanner) : Except Error Scanner := do
  let s ← s.keepPending
  let (token, cursor, atBreak) := s.cursor.plain (s.flowLevel ≠ 0) s.indent
  return { (s.push token) with cursor, keyAllowed := atBreak }

/-- May a plain scalar start with `ch`, followed by `next`? -/
def startsPlain (inFlow : Bool) (ch next : Char) : Bool :=
  (!isSeparator ch && !"-?:,[]\x7b\x7d#&*!|>'\"%@`".toList.contains ch) ||
    (!isSeparator next && (ch = '-' || (!inFlow && (ch = '?' || ch = ':'))))

/-- The next token, with those that its indentation brings about. -/
def step (s : Scanner) : Except Error Scanner := do
  let (cursor, sawBreak) := s.cursor.toToken
  let s := { s with cursor, keyAllowed := s.keyAllowed || (sawBreak && s.flowLevel = 0) }
  let s ← s.giveUpStale
  let s := s.unwind s.cursor.column
  let ch := s.cursor.peek
  let next := s.cursor.peekAt 1
  let inFlow := s.flowLevel != 0
  if ch = endMark then s.streamEnd
  else if ch = '%' ∧ s.cursor.column = 0 then s.directive
  else if s.cursor.column = 0 ∧ s.cursor.atMarker '-' then s.documentMarker .documentStart
  else if s.cursor.column = 0 ∧ s.cursor.atMarker '.' then s.documentMarker .documentEnd
  else if ch = '[' then s.openFlow .openSequence
  else if ch = '\x7b' then s.openFlow .openMapping
  else if ch = ']' then s.closeFlow .closeSequence
  else if ch = '\x7d' then s.closeFlow .closeMapping
  else if ch = ',' then s.flowEntry
  else if ch = '-' ∧ isSeparator next then s.blockMark .blockSequence .blockEntry true
  else if ch = '?' ∧ (inFlow ∨ isSeparator next) then s.blockMark .blockMapping .key (!inFlow)
  else if ch = ':' ∧ (inFlow ∨ isSeparator next) then s.value
  else if ch = '*' then s.word fun c => c.anchorName.map fun (n, c) => (.reference n, c)
  else if ch = '&' then s.word fun c => c.anchorName.map fun (n, c) => (.anchor n, c)
  else if ch = '!' then s.word Cursor.tag
  else if (ch = '|' ∨ ch = '>') ∧ !inFlow then s.blockScalar
  else if ch = '\'' ∨ ch = '"' then s.word Cursor.quoted
  else if startsPlain inFlow ch next then s.plainScalar
  else .error .malformed

/-- All tokens, and the error at which they stop, if they do before the end of the text. -/
def run : Nat → Scanner → List Token × Option Error
  | 0, s => (s.tokens.toList, some .malformed)
  | fuel + 1, s =>
    if s.tokens.back? = some .streamEnd then (s.tokens.toList, none)
    else match s.step with
      | .ok s => run fuel s
      | .error e => (s.tokens.toList, some e)

end Scanner

/-- The tokens of a text, and the error at which they stop, if they do before the end of the text. Every
step reads at least one character but for the last. -/
def tokensOf (text : List Char) : List Token × Option Error :=
  if text.all isAllowed then Scanner.run (text.length + 2) { cursor := { rest := text } }
  else ([], some .malformed)

end Strata.Yaml
