import Strata.Syntax.Node
import Strata.Text.Blank

/-!
# Kotlin tokens

A source is cut into tokens by looking at what starts at each of its characters. Strings may hold
templates, which hold code again, so the lexer keeps the strings, templates and braces that are open.
Rows end at line feeds only, and columns count the bytes of the UTF-8 form.
-/

namespace Strata.Kotlin

open Strata.Syntax (Point)

/-- The pairs that enclose other tokens. -/
inductive Bracket where
  | round
  | square
  | curly
  /-- A template `${…}` in a string. -/
  | template
  | string
  deriving Repr, DecidableEq

/-- What a token is. -/
inductive Kind where
  /-- An identifier or a keyword; a label such as `@outer` behind a keyword belongs to it. -/
  | word
  /-- An identifier in backquotes. -/
  | quotedWord
  /-- A label before a statement, such as `outer@`. -/
  | label
  /-- The name of an annotation with its mark. -/
  | marker
  | number
  | character
  | symbol
  | opening (b : Bracket)
  | closing (b : Bracket)
  /-- Brackets with all that they enclose, taken as one token. -/
  | enclosed (b : Bracket)
  deriving Repr, DecidableEq

/-- A token. -/
structure Token where
  kind : Kind
  /-- The text of a word without its label, and of a symbol; empty for other tokens. -/
  text : String
  start : Point
  stop : Point
  /-- How many characters stand before the token and before its end. -/
  offset : Nat
  endOffset : Nat
  /-- Is there a line end between the token before and this one, other than in a comment? -/
  afterNewline : Bool
  deriving Repr

/-- The place behind a character that stands at `p`. -/
def nextPoint (p : Point) (c : Char) : Point :=
  if c = '\n' then ⟨p.row + 1, 0⟩ else ⟨p.row, p.column + c.utf8Size⟩

/-- What encloses the place where the lexer stands. -/
inductive Context where
  | curly
  | template
  | string (raw : Bool)
  deriving Repr, DecidableEq

/-- What starts at a place: nothing that counts, a line end, or a token; with its length and what
encloses the place behind it. -/
structure Lexeme where
  kind : Option Kind
  text : String := ""
  length : Nat
  context : List Context
  newline : Bool := false

/-- White space between tokens. The byte order mark counts as such. -/
def isSpace (c : Char) : Bool :=
  Text.isBlank c || c.toNat = 0xFEFF

/-- May an identifier start with this character? -/
def isWordStart (c : Char) : Bool :=
  c.isAlpha || c = '_' || (0x80 ≤ c.toNat && !isSpace c)

/-- May an identifier go on with this character? -/
def isWordChar (c : Char) : Bool :=
  isWordStart c || c.isDigit

/-- The length of a block comment from its first character on. Comments nest; `depth` counts those that
are open. -/
def blockComment (depth : Nat) : List Char → Nat
  | '/' :: '*' :: cs => blockComment (depth + 1) cs + 2
  | '*' :: '/' :: cs => if depth ≤ 1 then 2 else blockComment (depth - 1) cs + 2
  | _ :: cs => blockComment depth cs + 1
  | [] => 0

/-- The length of a character literal behind its opening quote. -/
def characterLength : List Char → Nat
  | '\\' :: _ :: cs => characterLength cs + 2
  | '\'' :: _ => 1
  | _ :: cs => characterLength cs + 1
  | [] => 0

/-- The length of a number. A point belongs to it if a digit follows, and so does the sign of a decimal
exponent. -/
def numberLength (hexadecimal : Bool) : List Char → Nat
  | c :: '+' :: d :: cs =>
    if isWordChar c then
      if (c = 'e' || c = 'E') && !hexadecimal && d.isDigit then numberLength hexadecimal (d :: cs) + 2
      else 1
    else 0
  | c :: '-' :: d :: cs =>
    if isWordChar c then
      if (c = 'e' || c = 'E') && !hexadecimal && d.isDigit then numberLength hexadecimal (d :: cs) + 2
      else 1
    else 0
  | '.' :: d :: cs => if d.isDigit then numberLength hexadecimal (d :: cs) + 1 else 0
  | c :: cs => if isWordChar c then numberLength hexadecimal cs + 1 else 0
  | [] => 0

/-- The length of an annotation's name behind its mark: a target with a colon, then a dotted name. -/
def annotationLength (cs : List Char) : Nat :=
  let target := (cs.takeWhile isWordChar).length
  let rest := cs.drop target
  match rest with
  | ':' :: c :: _ =>
    if isWordStart c then target + 1 + ((rest.drop 1).takeWhile fun c => isWordChar c || c = '.').length
    else target
  | _ => (cs.takeWhile fun c => isWordChar c || c = '.').length

/-- Symbols of more than one character, longer ones first. -/
def longSymbols : List String :=
  ["===", "!==", "..<", "?.", "?:", "::", "->", "++", "--", "&&", "||", "==", "!=", "<=", ">=", "+=", "-=",
    "*=", "/=", "%=", "!!", ".."]

/-- The symbol at the start of the characters. A question mark before two colons stands alone. -/
def symbolAt (cs : List Char) : String :=
  match cs with
  | '?' :: ':' :: ':' :: _ => "?"
  | '!' :: 'i' :: 's' :: c :: _ => if isWordChar c then "!" else "!is"
  | '!' :: 'i' :: 'n' :: c :: _ => if isWordChar c then "!" else "!in"
  | _ =>
    match longSymbols.find? fun s => s.toList.isPrefixOf cs with
    | some s => s
    | none => String.ofList (cs.take 1)

/-- Keywords that a label may follow directly. -/
def labelled : List String :=
  ["this", "super", "return", "break", "continue"]

/-- The word at the start of the characters, with its label if it has one. -/
def wordAt (context : List Context) (cs : List Char) : Lexeme :=
  let letters := cs.takeWhile isWordChar
  let text := String.ofList letters
  match cs.drop letters.length with
  | '@' :: rest =>
    if labelled.contains text then
      let label := (rest.takeWhile isWordChar).length
      ⟨some .word, text, letters.length + 1 + label, context, false⟩
    else ⟨some .label, "", letters.length + 1, context, false⟩
  | _ => ⟨some .word, text, letters.length, context, false⟩

/-- What starts inside a string. -/
def stringLexeme (raw : Bool) (outer : List Context) (cs : List Char) : Lexeme :=
  let here := Context.string raw :: outer
  match cs with
  | '$' :: '\x7b' :: _ => ⟨some (.opening .template), "", 2, .template :: here, false⟩
  | '"' :: rest =>
    if raw then
      match rest with
      | '"' :: '"' :: '"' :: _ => ⟨none, "", 1, here, false⟩
      | '"' :: '"' :: _ => ⟨some (.closing .string), "", 3, outer, false⟩
      | _ => ⟨none, "", 1, here, false⟩
    else ⟨some (.closing .string), "", 1, outer, false⟩
  | '\\' :: _ :: _ => if raw then ⟨none, "", 1, here, false⟩ else ⟨none, "", 2, here, false⟩
  | _ => ⟨none, "", 1, here, false⟩

/-- What starts in code. -/
def codeLexeme (context : List Context) (cs : List Char) : Lexeme :=
  let single (kind : Kind) (context : List Context) : Lexeme := ⟨some kind, "", 1, context, false⟩
  match cs with
  | [] => ⟨none, "", 1, context, false⟩
  | '/' :: '/' :: _ => ⟨none, "", (cs.takeWhile fun c => c != '\n').length, context, false⟩
  | '/' :: '*' :: rest => ⟨none, "", blockComment 1 rest + 2, context, false⟩
  | '"' :: '"' :: '"' :: _ => ⟨some (.opening .string), "", 3, .string true :: context, false⟩
  | '"' :: _ => single (.opening .string) (.string false :: context)
  | '\'' :: rest => ⟨some .character, "", characterLength rest + 1, context, false⟩
  | '`' :: rest => ⟨some .quotedWord, "", (rest.takeWhile fun c => c != '`').length + 2, context, false⟩
  | '(' :: _ => single (.opening .round) context
  | ')' :: _ => single (.closing .round) context
  | '[' :: _ => single (.opening .square) context
  | ']' :: _ => single (.closing .square) context
  | '\x7b' :: _ => single (.opening .curly) (.curly :: context)
  | '\x7d' :: _ =>
    match context with
    | .template :: outer => single (.closing .template) outer
    | .curly :: outer => single (.closing .curly) outer
    | _ => single (.closing .curly) context
  | '@' :: c :: rest =>
    if isWordStart c then ⟨some .marker, "", annotationLength (c :: rest) + 1, context, false⟩
    else ⟨some .symbol, "@", 1, context, false⟩
  | '.' :: d :: rest =>
    if d.isDigit then ⟨some .number, "", numberLength false (d :: rest) + 1, context, false⟩
    else
      let s := symbolAt cs
      ⟨some .symbol, s, s.length, context, false⟩
  | c :: rest =>
    if isSpace c then ⟨none, "", 1, context, c = '\n'⟩
    else if isWordStart c then wordAt context cs
    else if c.isDigit then
      let hexadecimal := c = '0' && (rest.head? = some 'x' || rest.head? = some 'X')
      ⟨some .number, "", numberLength hexadecimal cs, context, false⟩
    else
      let s := symbolAt cs
      ⟨some .symbol, s, s.length, context, false⟩

/-- What starts at the first of the characters. -/
def lexemeAt : List Context → List Char → Lexeme
  | .string raw :: outer, cs => stringLexeme raw outer cs
  | context, cs => codeLexeme context cs

/-- The tokens from a place on. The next `skip` characters belong to what was read before. -/
def tokensFrom (skip : Nat) (context : List Context) (offset : Nat) (p : Point) (newline : Bool) :
    List Char → List Token
  | [] => []
  | c :: cs =>
    match skip with
    | skip + 1 => tokensFrom skip context (offset + 1) (nextPoint p c) newline cs
    | 0 =>
      let l := lexemeAt context (c :: cs)
      match l.kind with
      | none => tokensFrom (l.length - 1) l.context (offset + 1) (nextPoint p c) (newline || l.newline) cs
      | some kind =>
        let stop := ((c :: cs).take l.length).foldl nextPoint p
        ⟨kind, l.text, p, stop, offset, offset + l.length, newline⟩ ::
          tokensFrom (l.length - 1) l.context (offset + 1) (nextPoint p c) false cs

/-- The tokens of a source. A first line that begins with `#!` is skipped. -/
def tokensOf (source : List Char) : List Token :=
  let skip := match source with
    | '#' :: '!' :: _ => (source.takeWhile fun c => c != '\n').length
    | _ => 0
  tokensFrom skip [] 0 ⟨0, 0⟩ false source

end Strata.Kotlin
