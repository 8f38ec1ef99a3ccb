import Strata.Text.Digit
import Strata.Text.Utf8
import Strata.Yaml.Cursor
import Strata.Yaml.Error

/-!
# Words of YAML

The tokens of a document, and how the words among them are read: directives, anchors, tags and scalars.
-/

namespace Strata.Yaml

/-- A line that tells how to read the document behind it. -/
inductive Directive where
  | version (major minor : Nat)
  | tag (handle stem : String)
  | other
  deriving Repr, DecidableEq

/-- A token. -/
inductive Token where
  | directive (d : Directive)
  | documentStart
  | documentEnd
  | blockSequence
  | blockMapping
  | blockEnd
  | openSequence
  | closeSequence
  | openMapping
  | closeMapping
  | blockEntry
  | flowEntry
  | key
  | value
  | reference (name : String)
  | anchor (name : String)
  /-- A tag as it is written: a handle, if it has one, and a suffix. -/
  | tag (handle : Option String) (suffix : String)
  /-- The text of a scalar; a plain one may stand for something other than a text. -/
  | scalar (text : String) (plain : Bool)
  | streamEnd
  deriving Repr, DecidableEq

/-- Letters, digits, hyphens and underscores. -/
def isNameChar (c : Char) : Bool :=
  ('0' ≤ c && c ≤ '9') || ('A' ≤ c && c ≤ 'Z') || ('a' ≤ c && c ≤ 'z') || c = '-' || c = '_'

/-- Hexadecimal digits. -/
def isHex (c : Char) : Bool :=
  ('0' ≤ c && c ≤ '9') || ('A' ≤ c && c ≤ 'F') || ('a' ≤ c && c ≤ 'f')

/-- The number that hexadecimal digits stand for. -/
def hexNumber (cs : List Char) : Nat :=
  cs.foldl (fun n c => n * 16 + (Text.digitInBase? 16 c).getD 0) 0

/-- Characters of a tag, apart from escapes. -/
def isTagChar (c : Char) : Bool :=
  isNameChar c || "-;/?:@&=+$,_.!~*'()[]".toList.contains c

namespace Cursor

/-! ## Tags -/

/-- The bytes of the escapes at the cursor, each a percent sign and two digits. -/
def tagEscapes : Nat → Cursor → Except Error (List UInt8 × Cursor)
  | 0, c => .ok ([], c)
  | fuel + 1, c =>
    if c.peek = '%' then
      let digits := (c.rest.drop 1).take 2
      if digits.length = 2 ∧ digits.all isHex then do
        let (bytes, c) ← tagEscapes fuel (c.skip 3)
        return (UInt8.ofNat (hexNumber digits) :: bytes, c)
      else .error .malformed
    else .ok ([], c)

/-- The characters of a tag at the cursor. -/
def tagText : Nat → Cursor → Except Error (List Char × Cursor)
  | 0, _ => .error .malformed
  | fuel + 1, c =>
    let (run, c) := c.span isTagChar
    if c.peek = '%' then do
      let (bytes, c) ← tagEscapes c.rest.length c
      match Text.Utf8.decode bytes.toByteArray with
      | .error _ => .error .malformed
      | .ok s =>
        let (rest, c) ← tagText fuel c
        return (run ++ s.toList ++ rest, c)
    else .ok (run, c)

/-- The characters of a tag at the cursor; there must be some. -/
def tagUri (c : Cursor) : Except Error (String × Cursor) := do
  let (cs, after) ← c.tagText (c.rest.length + 1)
  if after.index = c.index then .error .malformed else return (String.ofList cs, after)

/-- A handle such as `!`, `!!` or `!name!`. -/
def tagHandle (c : Cursor) : Except Error (String × Cursor) :=
  if c.peek ≠ '!' then .error .malformed
  else if c.peekAt 1 = ' ' then .ok ("!", c.next)
  else
    let (name, after) := c.next.span isNameChar
    if after.peek = '!' then .ok (String.ofList ('!' :: name ++ ['!']), after.next)
    else .error .malformed

/-- Is there a second exclamation mark in the tag that starts at the cursor? -/
def tagHasHandle (c : Cursor) : Bool :=
  (c.rest.drop 1).takeWhile (fun ch => !isGap ch) |>.contains '!'

/-- A tag. -/
def tag (c : Cursor) : Except Error (Token × Cursor) := do
  let (token, c) ←
    if c.peekAt 1 = '<' then do
      let (suffix, c) ← (c.skip 2).tagUri
      if c.peek = '>' then pure (Token.tag none suffix, c.next) else .error .malformed
    else if isSeparator (c.peekAt 1) then pure (Token.tag none "!", c.next)
    else if c.tagHasHandle then do
      let (handle, c) ← c.tagHandle
      let (suffix, c) ← c.tagUri
      pure (Token.tag (some handle) suffix, c)
    else do
      let (suffix, c) ← c.next.tagUri
      pure (Token.tag (some "!") suffix, c)
  if isGap c.peek then return (token, c) else .error .malformed

/-! ## Directives and anchors -/

/-- A number of a version. -/
def versionNumber (c : Cursor) : Except Error (Nat × Cursor) :=
  let (digits, c) := c.span Char.isDigit
  if digits.isEmpty then .error .malformed
  else .ok (digits.foldl (fun n d => n * 10 + (d.toNat - '0'.toNat)) 0, c)

/-- A directive, with the rest of its line. -/
def directive (c : Cursor) : Except Error (Token × Cursor) := do
  let (name, c) := c.next.span isNameChar
  if name.isEmpty ∨ !isGap c.peek then .error .malformed
  else
    let (d, c) ←
      if String.ofList name = "YAML" then do
        let (major, c) ← (c.skipWhile (· = ' ')).versionNumber
        if c.peek ≠ '.' then .error .malformed
        else
          let (minor, c) ← c.next.versionNumber
          if isGap c.peek then pure (Directive.version major minor, c) else .error .malformed
      else if String.ofList name = "TAG" then do
        let (handle, c) ← (c.skipWhile (· = ' ')).tagHandle
        if c.peek ≠ ' ' then .error .malformed
        else
          let (stem, c) ← (c.skipWhile (· = ' ')).tagUri
          if isGap c.peek then pure (Directive.tag handle stem, c) else .error .malformed
      else pure (Directive.other, c.skipWhile fun ch => !isLineEnd ch)
    match c.commentLine? with
    | some c => return (.directive d, c)
    | none => .error .malformed

/-- The name of an anchor or of a reference to one, behind its mark. -/
def anchorName (c : Cursor) : Except Error (String × Cursor) :=
  let (name, c) := c.next.span isNameChar
  if name.isEmpty then .error .malformed
  else if isSeparator c.peek ∨ "?:,]\x7d%@`".toList.contains c.peek then .ok (String.ofList name, c)
  else .error .malformed

/-! ## Quoted scalars -/

/-- Line ends inside a quoted scalar, with the blanks around them. A line that begins or ends a document
may not stand there. -/
def quotedBreaks : Nat → Cursor → Except Error (List Char × Cursor)
  | 0, _ => .error .malformed
  | fuel + 1, c =>
    if c.atDocumentMarker then .error .malformed
    else
      let c := c.skipWhile fun ch => ch = ' ' || ch = '\t'
      match c.lineBreak? with
      | none => .ok ([], c)
      | some (b, c) => do
        let (more, c) ← quotedBreaks fuel c
        return (b :: more, c)

/-- Blanks and line ends inside a quoted scalar. A single line feed reads as a space, further ones as
themselves; blanks around line ends do not count. -/
def quotedSpaces (c : Cursor) : Except Error (List Char × Cursor) :=
  let (blanks, c) := c.span fun ch => ch = ' ' || ch = '\t'
  if c.peek = endMark then .error .malformed
  else match c.lineBreak? with
    | none => .ok (blanks, c)
    | some (b, c) => do
      let (breaks, c) ← c.quotedBreaks (c.rest.length + 1)
      let first := if b ≠ '\n' then [b] else if breaks.isEmpty then [' '] else []
      return (first ++ breaks, c)

/-- The character that an escape of one letter stands for. -/
def escape? (ch : Char) : Option Char :=
  let table := [('0', 0x00), ('a', 0x07), ('b', 0x08), ('t', 0x09), ('\t', 0x09), ('n', 0x0A),
    ('v', 0x0B), ('f', 0x0C), ('r', 0x0D), ('e', 0x1B), (' ', 0x20), ('"', 0x22), ('\\', 0x5C),
    ('/', 0x2F), ('N', 0x85), ('_', 0xA0), ('L', 0x2028), ('P', 0x2029)]
  (table.lookup ch).map Char.ofNat

/-- The number of digits of an escape that gives a code point. -/
def escapeWidth? (ch : Char) : Option Nat :=
  if ch = 'x' then some 2 else if ch = 'u' then some 4 else if ch = 'U' then some 8 else none

/-- The second half of a pair of surrogates, if the characters at hand are an escape that gives one. -/
def lowSurrogate? : List Char → Option Nat
  | '\\' :: 'u' :: rest =>
    let digits := rest.take 4
    let n := hexNumber digits
    if digits.length = 4 ∧ digits.all isHex ∧ 0xDC00 ≤ n ∧ n < 0xE000 then some n else none
  | _ => none

/-- The character of a code point. Two escapes that give the halves of a pair of surrogates stand for
one character; half a pair alone is none and reads as U+FFFD. -/
def codePoint (n : Nat) (c : Cursor) : Char × Cursor :=
  if n.isValidChar then (Char.ofNat n, c)
  else match lowSurrogate? c.rest with
    | some low =>
      if n < 0xDC00 then (Char.ofNat (0x10000 + (n - 0xD800) * 1024 + (low - 0xDC00)), c.skip 6)
      else (Char.ofNat 0xFFFD, c)
    | none => (Char.ofNat 0xFFFD, c)

/-- What an escape behind its backslash stands for. A line end there is left out. -/
def quotedEscape (c : Cursor) : Except Error (List Char × Cursor) :=
  match escape? c.peek, escapeWidth? c.peek with
  | some ch, _ => .ok ([ch], c.next)
  | none, some width =>
    let digits := (c.rest.drop 1).take width
    if digits.length = width ∧ digits.all isHex then
      let n := hexNumber digits
      if 0x7FFFFFFF < n then .error .hugeCodePoint
      else if 0x10FFFF < n then .error .codePoint
      else
        let (ch, c) := codePoint n (c.skip (width + 1))
        .ok ([ch], c)
    else .error .malformed
  | none, none =>
    match c.lineBreak? with
    | some (_, c) => c.quotedBreaks (c.rest.length + 1)
    | none => .error .malformed

/-- The text of a quoted scalar up to its quote. -/
def quotedText (double : Bool) : Nat → Cursor → Except Error (List Char × Cursor)
  | 0, _ => .error .malformed
  | fuel + 1, c =>
    let ch := c.peek
    if ch = endMark then .error .malformed
    else if !double && ch = '\'' && c.peekAt 1 = '\'' then do
      let (rest, c) ← quotedText double fuel (c.skip 2)
      return ('\'' :: rest, c)
    else if ch = (if double then '"' else '\'') then .ok ([], c.next)
    else if double && ch = '\\' then do
      let (chars, c) ← c.next.quotedEscape
      let (rest, c) ← quotedText double fuel c
      return (chars ++ rest, c)
    else if ch = ' ' || ch = '\t' || isBreak ch then do
      let (chars, c) ← c.quotedSpaces
      let (rest, c) ← quotedText double fuel c
      return (chars ++ rest, c)
    else do
      let (rest, c) ← quotedText double fuel c.next
      return (ch :: rest, c)

/-- A quoted scalar. -/
def quoted (c : Cursor) : Except Error (Token × Cursor) := do
  let (chars, c) ← c.next.quotedText (c.peek = '"') (c.rest.length + 1)
  return (.scalar (String.ofList chars) false, c)

/-! ## Block scalars -/

/-- What happens to the line ends at the end of a block scalar. -/
inductive Chomping where
  | strip
  | clip
  | keep
  deriving Repr, DecidableEq

/-- The chomping that a mark stands for. -/
def chomping? (c : Cursor) : Option (Chomping × Cursor) :=
  if c.peek = '+' then some (.keep, c.next) else if c.peek = '-' then some (.strip, c.next) else none

/-- The indentation that a digit stands for. -/
def increment? (c : Cursor) : Option (Nat × Cursor) :=
  if c.peek.isDigit then some (c.peek.toNat - '0'.toNat, c.next) else none

/-- The marks behind the start of a block scalar: chomping and indentation in either order. -/
def blockMarks (c : Cursor) : Except Error (Chomping × Option Nat × Cursor) :=
  let (chomping, increment, c) := match c.chomping? with
    | some (chomping, c) =>
      match c.increment? with
      | some (n, c) => (chomping, some n, c)
      | none => (chomping, none, c)
    | none =>
      match c.increment? with
      | some (n, c) =>
        match c.chomping? with
        | some (chomping, c) => (chomping, some n, c)
        | none => (.clip, some n, c)
      | none => (.clip, none, c)
  if increment = some 0 ∨ !isGap c.peek then .error .malformed else .ok (chomping, increment, c)

/-- The empty lines at the start of a block scalar, and the deepest column that their blanks or those of
the first other line reach. -/
def blockIndentation (deepest : Nat) : Nat → Cursor → List Char × Nat × Cursor
  | 0, c => ([], deepest, c)
  | fuel + 1, c =>
    if c.peek = ' ' then
      let c := c.next
      blockIndentation (max deepest c.column) fuel c
    else match c.lineBreak? with
      | some (b, c) =>
        let (breaks, deepest, c) := blockIndentation deepest fuel c
        (b :: breaks, deepest, c)
      | none => ([], deepest, c)

/-- The blanks at the cursor, up to a column. -/
def skipIndent (indent : Nat) (c : Cursor) : Cursor :=
  c.skip (min (indent - c.column) (c.rest.takeWhile (· = ' ')).length)

/-- Empty lines of a block scalar, and the cursor at the text of the next line. -/
def blockBreaks (indent : Nat) : Nat → Cursor → List Char × Cursor
  | 0, c => ([], c)
  | fuel + 1, c =>
    let c := c.skipIndent indent
    match c.lineBreak? with
    | some (b, c) =>
      let (breaks, c) := blockBreaks indent fuel c
      (b :: breaks, c)
    | none => ([], c)

/-- The lines of a block scalar. `breaks` are the empty lines before the line at the cursor. The result
is the text without its last line end, that line end, and the empty lines behind it. A folded scalar
joins two lines with a space unless one of them begins with a blank. -/
def blockLines (folded : Bool) (indent : Nat) (breaks : List Char) :
    Nat → Cursor → List Char × List Char × List Char × Cursor
  | 0, c => ([], [], breaks, c)
  | fuel + 1, c =>
    if c.column ≠ indent ∨ c.peek = endMark then ([], [], breaks, c)
    else
      let leadingText := c.peek ≠ ' ' && c.peek ≠ '\t'
      let (line, c) := c.span fun ch => !isLineEnd ch
      let (lineEnd, c) := match c.lineBreak? with
        | some (b, c) => ([b], c)
        | none => ([], c)
      let (behind, c) := c.blockBreaks indent (c.rest.length + 1)
      if c.column = indent ∧ c.peek ≠ endMark then
        let joint :=
          if folded ∧ lineEnd = ['\n'] ∧ leadingText ∧ c.peek ≠ ' ' ∧ c.peek ≠ '\t' then
            if behind.isEmpty then [' '] else []
          else lineEnd
        let (text, lastEnd, rest, c) := blockLines folded indent behind fuel c
        (breaks ++ line ++ joint ++ text, lastEnd, rest, c)
      else (breaks ++ line, lineEnd, behind, c)

/-- A block scalar in a collection that is indented by `indent`. -/
def block (indent : Int) (c : Cursor) : Except Error (Token × Cursor) := do
  let folded := c.peek = '>'
  let (chomping, increment, c) ← c.next.blockMarks
  match c.commentLine? with
  | none => .error .malformed
  | some c =>
    let least := max 1 (indent + 1).toNat
    let (breaks, column, c) := match increment with
      | none =>
        let (breaks, deepest, c) := c.blockIndentation 0 (c.rest.length + 1)
        (breaks, max least deepest, c)
      | some n =>
        let column := least + n - 1
        let (breaks, c) := c.blockBreaks column (c.rest.length + 1)
        (breaks, column, c)
    let (text, lastEnd, behind, c) := c.blockLines folded column breaks (c.rest.length + 1)
    let tail := match chomping with
      | .strip => []
      | .clip => lastEnd
      | .keep => lastEnd ++ behind
    return (.scalar (String.ofList (text ++ tail)) false, c)

/-! ## Plain scalars -/

/-- Does a plain scalar end before the characters at hand? -/
def endsPlain (inFlow : Bool) : List Char → Bool
  | [] => true
  | ch :: rest =>
    let next := rest.headD endMark
    isSeparator ch ||
      (ch = ':' && (isSeparator next || (inFlow && ",[]\x7b\x7d".toList.contains next))) ||
      (inFlow && ",?[]\x7b\x7d".toList.contains ch)

/-- The length of the run of a plain scalar without blanks. -/
def plainRun (inFlow : Bool) : List Char → Nat
  | [] => 0
  | ch :: rest => if endsPlain inFlow (ch :: rest) then 0 else plainRun inFlow rest + 1

/-- The blanks and line ends behind the first line end in a plain scalar; `none` if a document begins or
ends there. -/
def plainBreaks : Nat → Cursor → Option (List Char) × Cursor
  | 0, c => (some [], c)
  | fuel + 1, c =>
    if c.peek = ' ' then plainBreaks fuel c.next
    else match c.lineBreak? with
      | none => (some [], c)
      | some (b, c) =>
        if c.atDocumentMarker then (none, c)
        else
          let (breaks, c) := plainBreaks fuel c
          (breaks.map (b :: ·), c)

/-- What is between two runs of a plain scalar, the cursor behind it, and whether there is a line end in
it. Nothing at all means that the scalar ends here. -/
def plainSpaces (c : Cursor) : List Char × Cursor × Bool :=
  let (blanks, c) := c.span (· = ' ')
  match c.lineBreak? with
  | none => (blanks, c, false)
  | some (b, c) =>
    if c.atDocumentMarker then ([], c, true)
    else match c.plainBreaks (c.rest.length + 1) with
      | (none, c) => ([], c, true)
      | (some breaks, c) =>
        let first := if b ≠ '\n' then [b] else if breaks.isEmpty then [' '] else []
        (first ++ breaks, c, true)

/-- The text of a plain scalar in a collection that is indented by `indent`, behind the blanks `spaces`,
the cursor behind it, and whether it ended at a line end. -/
def plainText (inFlow : Bool) (indent : Int) (spaces : List Char) (atBreak : Bool) :
    Nat → Cursor → List Char × Cursor × Bool
  | 0, c => ([], c, atBreak)
  | fuel + 1, c =>
    if c.peek = '#' then ([], c, atBreak)
    else
      let length := plainRun inFlow c.rest
      if length = 0 then ([], c, atBreak)
      else
        let run := c.rest.take length
        let (more, c, sawBreak) := (c.skip length).plainSpaces
        if more.isEmpty ∨ c.peek = '#' ∨ (!inFlow ∧ (c.column : Int) < indent + 1) then
          (spaces ++ run, c, sawBreak)
        else
          let (rest, c, atBreak) := plainText inFlow indent more sawBreak fuel c
          (spaces ++ run ++ rest, c, atBreak)

/-- A plain scalar, and whether it ended at a line end. -/
def plain (inFlow : Bool) (indent : Int) (c : Cursor) : Token × Cursor × Bool :=
  let (text, c, atBreak) := c.plainText inFlow indent [] false (c.rest.length + 1)
  (.scalar (String.ofList text) true, c, atBreak)

end Cursor

end Strata.Yaml
