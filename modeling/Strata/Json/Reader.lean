import Strata.Json.Basic
import Strata.Text.Digit

/-!
# Reading JSON

Reading has two steps, each a recursion on its input: `lex` cuts the text into tokens, `assemble` builds
the document from the tokens with a stack of the arrays and objects that are still open.
-/

namespace Strata.Json

/-- What a document is written with. -/
inductive Token where
  | openArray
  | closeArray
  | openObject
  | closeObject
  | comma
  | colon
  | string (s : String)
  /-- A numeral or one of the names `null`, `true`, `false`, `NaN`, `Infinity`, `-Infinity`. -/
  | word (letters : List Char)
  deriving Repr, DecidableEq

/-- The characters that UTF-16 units stand for. A surrogate without its partner is no character and
reads as U+FFFD. -/
def ofUnits : List Nat → List Char
  | [] => []
  | [u] => [if 0xD800 ≤ u ∧ u < 0xE000 then Char.ofNat 0xFFFD else Char.ofNat u]
  | hi :: lo :: rest =>
    if 0xD800 ≤ hi ∧ hi < 0xDC00 ∧ 0xDC00 ≤ lo ∧ lo < 0xE000 then
      Char.ofNat (0x10000 + (hi - 0xD800) * 1024 + (lo - 0xDC00)) :: ofUnits rest
    else
      (if 0xD800 ≤ hi ∧ hi < 0xE000 then Char.ofNat 0xFFFD else Char.ofNat hi) :: ofUnits (lo :: rest)

/-- Where the lexer stands. Lists of what has been read are kept in reverse. -/
inductive LexState where
  | between
  | word (letters : List Char)
  | text (units : List Nat)
  | escape (units : List Nat)
  | unit (units : List Nat) (value count : Nat)
  deriving Repr

/-- The token of a punctuation mark. -/
def punctuation? (c : Char) : Option Token :=
  if c = '[' then some .openArray
  else if c = ']' then some .closeArray
  else if c = '\x7b' then some .openObject
  else if c = '\x7d' then some .closeObject
  else if c = ',' then some .comma
  else if c = ':' then some .colon
  else none

/-- The value of a hexadecimal digit. -/
def hexValue? (c : Char) : Option Nat :=
  if '0' ≤ c ∧ c ≤ '9' then some (c.toNat - '0'.toNat)
  else if 'a' ≤ c ∧ c ≤ 'f' then some (c.toNat - 'a'.toNat + 10)
  else if 'A' ≤ c ∧ c ≤ 'F' then some (c.toNat - 'A'.toNat + 10)
  else none

/-- What a backslash followed by `c` stands for; `u` is not among them. -/
def unescape? (c : Char) : Option Nat :=
  if c = '"' ∨ c = '\\' ∨ c = '/' then some c.toNat
  else if c = 'n' then some 0x0A
  else if c = 'r' then some 0x0D
  else if c = 't' then some 0x09
  else if c = 'b' then some 0x08
  else if c = 'f' then some 0x0C
  else none

/-- One character read between two tokens: the token it is, if any, and the state after it. -/
def startToken (c : Char) : List Token × LexState :=
  if c = ' ' ∨ c = '\n' ∨ c = '\r' ∨ c = '\t' then ([], .between)
  else if c = '"' then ([], .text [])
  else match punctuation? c with
    | some t => ([t], .between)
    | none => ([], .word [c])

/-- Does `c` end a word? -/
def endsWord (c : Char) : Bool :=
  c = ' ' || c = '\n' || c = '\r' || c = '\t' || c = '"' || (punctuation? c).isSome

/-- One character read: the tokens it completes, in reverse, and the state after it. -/
def lexStep : LexState → Char → Option (List Token × LexState)
  | .between, c => some (startToken c)
  | .word letters, c =>
    if endsWord c then
      let (ts, st) := startToken c
      some (ts ++ [.word letters.reverse], st)
    else some ([], .word (c :: letters))
  | .text units, c =>
    if c = '"' then some ([.string (String.ofList (ofUnits units.reverse))], .between)
    else if c = '\\' then some ([], .escape units)
    else some ([], .text (c.toNat :: units))
  | .escape units, c =>
    if c = 'u' then some ([], .unit units 0 0)
    else (unescape? c).map fun u => ([], .text (u :: units))
  | .unit units value count, c =>
    (hexValue? c).map fun d =>
      if count = 3 then ([], .text ((value * 16 + d) :: units))
      else ([], .unit units (value * 16 + d) (count + 1))

/-- The tokens of a text; `found` holds those already read, in reverse. -/
def lexFrom (found : List Token) : LexState → List Char → Option (List Token)
  | .between, [] => some found.reverse
  | .word letters, [] => some (.word letters.reverse :: found).reverse
  | _, [] => none
  | st, c :: cs =>
    match lexStep st c with
    | none => none
    | some (ts, st') => lexFrom (ts ++ found) st' cs

/-- The tokens of a text. -/
def lex (text : List Char) : Option (List Token) :=
  lexFrom [] .between text

/-- Are these letters digits, and at least one? -/
def isDigits (letters : List Char) : Bool :=
  !letters.isEmpty && letters.all Char.isDigit

/-- The integer written by these letters: digits with an optional minus sign. -/
def intOfWord? : List Char → Option Int
  | '-' :: ds => if isDigits ds then some (-(Text.natOfDigits ds : Int)) else none
  | ds => if isDigits ds then some (Text.natOfDigits ds : Int) else none

/-- The digits of the fraction with which letters start, and the letters behind it. A missing fraction is zero. -/
def splitFraction : List Char → List Char × List Char
  | '.' :: rest => rest.span Char.isDigit
  | rest => (['0'], rest)

/-- The digits of the exponent that the letters are. A missing exponent is zero. -/
def exponentDigits? : List Char → Option (List Char)
  | [] => some ['0']
  | mark :: rest =>
    if mark = 'e' ∨ mark = 'E' then
      some (if rest.head? = some '+' ∨ rest.head? = some '-' then rest.tail else rest)
    else none

/-- Are these letters a numeral: digits, then an optional fraction, then an optional exponent? -/
def isNumeral (letters : List Char) : Bool :=
  let unsigned := if letters.head? = some '-' then letters.tail else letters
  let (whole, rest) := unsigned.span Char.isDigit
  let (fraction, rest) := splitFraction rest
  isDigits whole && isDigits fraction && (exponentDigits? rest).any isDigits

/-- The document that a word stands for. -/
def ofWord? (letters : List Char) : Option Json :=
  let text := String.ofList letters
  if text = "null" then some .null
  else if text = "true" then some (.bool true)
  else if text = "false" then some (.bool false)
  else if text = "NaN" ∨ text = "Infinity" ∨ text = "-Infinity" then some (.real text)
  else match intOfWord? letters with
    | some n => some (.int n)
    | none => if isNumeral letters then some (.real text) else none

/-- An array or object that is still open; what it holds already is kept in reverse. -/
inductive Frame where
  | items (before : List Json)
  | fields (before : List (String × Json)) (name : String)
  deriving Repr

/-- What may come next. -/
inductive Expect where
  /-- A value. -/
  | value
  /-- A value, or the end of the array that has just been opened. -/
  | item
  /-- The name of a field; `first` if the object may also end here. -/
  | name (before : List (String × Json)) (first : Bool)
  /-- The colon after a field's name. -/
  | colon (before : List (String × Json)) (name : String)
  /-- The value `v` is complete: a comma or a closing bracket, or the end of the text. -/
  | after (v : Json)
  deriving Repr

/-- What to expect after a token that starts a value. -/
def startValue? : Token → Option Expect
  | .openArray => some .item
  | .openObject => some (.name [] true)
  | .string s => some (.after (.string s))
  | .word letters => (ofWord? letters).map .after
  | _ => none

/-- The document written by the tokens, given what is expected and what is open. An array enters the
stack with its first item, an object with the name of its first field. -/
def assemble : Expect → List Frame → List Token → Option Json
  | .after v, [], [] => some v
  | _, _, [] => none
  | .item, frames, .closeArray :: ts => assemble (.after (.array [])) frames ts
  | .item, frames, t :: ts =>
    match startValue? t with
    | some next => assemble next (.items [] :: frames) ts
    | none => none
  | .value, frames, t :: ts =>
    match startValue? t with
    | some next => assemble next frames ts
    | none => none
  | .name _ true, frames, .closeObject :: ts => assemble (.after (.object [])) frames ts
  | .name before _, frames, .string s :: ts => assemble (.colon before s) frames ts
  | .colon before name, frames, .colon :: ts => assemble .value (.fields before name :: frames) ts
  | .after v, .items before :: frames, .comma :: ts => assemble .value (.items (v :: before) :: frames) ts
  | .after v, .items before :: frames, .closeArray :: ts =>
    assemble (.after (.array (v :: before).reverse)) frames ts
  | .after v, .fields before name :: frames, .comma :: ts =>
    assemble (.name ((name, v) :: before) false) frames ts
  | .after v, .fields before name :: frames, .closeObject :: ts =>
    assemble (.after (.object ((name, v) :: before).reverse)) frames ts
  | _, _, _ :: _ => none

/-- The document that a text is written for; `none` for any other text. -/
def parse? (text : String) : Option Json :=
  match lex text.toList with
  | some ts => assemble .value [] ts
  | none => none

end Strata.Json
