/-!
# A place in a YAML text

A cursor is what is left of a text together with where that stands. The text's line ends are line feeds,
U+0085, U+2028 and U+2029; behind the text there stands a mark that no text holds.
-/

namespace Strata.Yaml

/-- What is read behind the end of a text. -/
def endMark : Char := '\x00'

/-- Does the character end a line? -/
def isBreak (c : Char) : Bool :=
  c = '\n' || c.toNat = 0x85 || c.toNat = 0x2028 || c.toNat = 0x2029

/-- A line end, or the end of the text. -/
def isLineEnd (c : Char) : Bool :=
  c = endMark || isBreak c

/-- A space, a line end, or the end of the text. -/
def isGap (c : Char) : Bool :=
  c = ' ' || isLineEnd c

/-- A gap or a tab. -/
def isSeparator (c : Char) : Bool :=
  c = '\t' || isGap c

/-- Characters that may stand in a text. -/
def isAllowed (c : Char) : Bool :=
  let n := c.toNat
  n = 0x09 || n = 0x0A || n = 0x0D || (0x20 ≤ n && n ≤ 0x7E) || n = 0x85 || (0xA0 ≤ n && n ≤ 0xD7FF) ||
    (0xE000 ≤ n && n ≤ 0xFFFD) || 0x10000 ≤ n

/-- The byte order mark, which takes no column. -/
def byteOrderMark : Char := Char.ofNat 0xFEFF

/-- A place in a text. -/
structure Cursor where
  rest : List Char
  index : Nat := 0
  line : Nat := 0
  column : Nat := 0
  deriving Repr, Inhabited

namespace Cursor

/-- The character at the cursor. -/
def peek (c : Cursor) : Char :=
  c.rest.headD endMark

/-- The character `k` places on. -/
def peekAt (k : Nat) (c : Cursor) : Char :=
  c.rest.getD k endMark

/-- The cursor one character on. -/
def next (c : Cursor) : Cursor :=
  match c.rest with
  | [] => c
  | ch :: rest =>
    if isBreak ch then ⟨rest, c.index + 1, c.line + 1, 0⟩
    else ⟨rest, c.index + 1, c.line, if ch = byteOrderMark then c.column else c.column + 1⟩

/-- The cursor `n` characters on. -/
def skip : Nat → Cursor → Cursor
  | 0, c => c
  | n + 1, c => skip n c.next

/-- The characters that satisfy `p` at the cursor, and the cursor behind them. -/
def span (p : Char → Bool) (c : Cursor) : List Char × Cursor :=
  let run := c.rest.takeWhile p
  (run, c.skip run.length)

/-- The cursor behind the characters that satisfy `p`. -/
def skipWhile (p : Char → Bool) (c : Cursor) : Cursor :=
  (c.span p).2

/-- The line end at the cursor, if there is one, and the cursor behind it. The two control characters
that end a line read as line feeds, the two separators as themselves. -/
def lineBreak? (c : Cursor) : Option (Char × Cursor) :=
  let ch := c.peek
  if isBreak ch then some (if ch = '\n' ∨ ch.toNat = 0x85 then '\n' else ch, c.next) else none

/-- Does the text at the cursor begin with three of `ch`, set off from what follows? -/
def atMarker (ch : Char) (c : Cursor) : Bool :=
  c.peek = ch && c.peekAt 1 = ch && c.peekAt 2 = ch && isSeparator (c.peekAt 3)

/-- Does a line that begins or ends a document start at the cursor? -/
def atDocumentMarker (c : Cursor) : Bool :=
  c.atMarker '-' || c.atMarker '.'

/-- The length of the blanks, comments and line ends before the next token, and whether there is a line
end among them. -/
def gap (inComment sawBreak : Bool) : List Char → Nat × Bool
  | [] => (0, sawBreak)
  | ch :: rest =>
    if isBreak ch then let (n, b) := gap false true rest; (n + 1, b)
    else if inComment then let (n, b) := gap true sawBreak rest; (n + 1, b)
    else if ch = ' ' then let (n, b) := gap false sawBreak rest; (n + 1, b)
    else if ch = '#' then let (n, b) := gap true sawBreak rest; (n + 1, b)
    else (0, sawBreak)

/-- The cursor at the next token, and whether there is a line end before it. -/
def toToken (c : Cursor) : Cursor × Bool :=
  let c := if c.index = 0 ∧ c.peek = byteOrderMark then c.next else c
  let (n, sawBreak) := gap false false c.rest
  (c.skip n, sawBreak)

/-- The rest of a line that may only hold a comment. -/
def commentLine? (c : Cursor) : Option Cursor :=
  let c := c.skipWhile (· = ' ')
  let c := if c.peek = '#' then c.skipWhile fun ch => !isLineEnd ch else c
  if isLineEnd c.peek then
    match c.lineBreak? with
    | some (_, c) => some c
    | none => some c
  else none

end Cursor

end Strata.Yaml
