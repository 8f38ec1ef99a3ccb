import Strata.Kotlin.Token

/-!
# How far an expression reaches

`extent` follows an expression from its first token to its last. Brackets are taken as one token with all
that they enclose (`siblings`), so that the expression is a flat row of tokens, and a state says what may
come next in it. A line end closes an expression before some tokens and not before others.
-/

namespace Strata.Kotlin

open Strata.Syntax (Point)

/-- The tokens up to the bracket that closes around them, each pair of brackets with what it encloses
being one token. `opened` is the outermost bracket that is open, and `depth` counts those inside it. -/
def siblingsFrom (opened : Option (Bracket × Token)) (depth : Nat) : List Token → List Token
  | [] => []
  | t :: ts =>
    match opened, t.kind with
    | none, .opening b => siblingsFrom (some (b, t)) 0 ts
    | none, .closing _ => []
    | none, _ => t :: siblingsFrom none 0 ts
    | some _, .opening _ => siblingsFrom opened (depth + 1) ts
    | some (b, first), .closing _ =>
      match depth with
      | 0 =>
        { first with kind := .enclosed b, stop := t.stop, endOffset := t.endOffset } ::
          siblingsFrom none 0 ts
      | depth + 1 => siblingsFrom opened depth ts
    | some _, _ => siblingsFrom opened depth ts

/-- The tokens up to the bracket that closes around them. -/
def siblings (ts : List Token) : List Token :=
  siblingsFrom none 0 ts

namespace Token

/-- Is this the keyword or the identifier `text`? -/
def isWord (t : Token) (text : String) : Bool :=
  t.kind = .word && t.text = text

def isSymbol (t : Token) (text : String) : Bool :=
  t.kind = .symbol && t.text = text

/-- Is this a word, in backquotes or not? -/
def isName (t : Token) : Bool :=
  t.kind = .word || t.kind = .quotedWord

end Token

/-- Words that start neither an expression nor an infix call. -/
def reserved : List String :=
  ["as", "class", "do", "else", "for", "import", "in", "interface", "is", "package", "typealias", "typeof",
    "val", "var", "while"]

/-- Words that start an expression and are no infix function. -/
def expressionWords : List String :=
  ["break", "continue", "false", "fun", "if", "null", "object", "return", "super", "this", "throw", "true",
    "try", "when"]

/-- Symbols between two operands. -/
def binarySymbols : List String :=
  ["?:", "&&", "||", "+", "-", "*", "/", "%", "<", ">", "<=", ">=", "==", "!=", "===", "!==", "..", "..<"]

/-- Symbols before an operand. -/
def prefixSymbols : List String :=
  ["+", "-", "++", "--", "!", "!!"]

/-- What may come next in an expression. -/
inductive State where
  /-- An operand has to come. -/
  | operand
  /-- An operand may come. -/
  | jump
  /-- The expression may end here. -/
  | complete
  /-- An annotation was read, so its arguments or an operand come. -/
  | annotated
  | member
  | ifCondition
  | whenSubject
  | whenBody
  | tryBody
  /-- A `try` with its body, so that a `catch` or a `finally` may come. -/
  | tried
  | caught
  | finallyBody
  | objectHead
  | superTypes
  | functionHead
  | functionSignature
  /-- A type has to come; behind `as` a question mark may stand before it. -/
  | type
  | typed
  /-- Type arguments, `depth` of which are open, in a type or in a call. -/
  | typeArguments (depth : Nat) (inType : Bool)
  deriving Repr, DecidableEq

/-- The tokens behind type arguments of which `depth` lists are open, or none if these tokens cannot be
type arguments. -/
def afterTypeArguments (depth : Nat) : List Token → Option (List Token)
  | [] => none
  | t :: ts =>
    if t.isSymbol "<" then afterTypeArguments (depth + 1) ts
    else if t.isSymbol ">" then
      match depth with
      | 0 | 1 => some ts
      | depth + 2 => afterTypeArguments (depth + 1) ts
    else if t.kind = .symbol then
      if [".", ",", "?", "*", "->", "&", ":"].contains t.text then afterTypeArguments depth ts else none
    else if t.kind = .word then
      if t.text = "in" || !(reserved.contains t.text || expressionWords.contains t.text) then
        afterTypeArguments depth ts
      else none
    else if t.kind = .quotedWord || t.kind = .marker || t.kind = .enclosed .round then
      afterTypeArguments depth ts
    else none

/-- Does `<` before these tokens open the type arguments of a call? A call, a member or a reference has
to follow them. -/
def opensTypeArguments (ts : List Token) : Bool :=
  match (afterTypeArguments 1 ts).bind List.head? with
  | none => false
  | some t =>
    t.isSymbol "." || t.isSymbol "?." || t.isSymbol "::" || t.kind = .enclosed .curly ||
      (t.kind = .enclosed .round && !t.afterNewline)

/-- The state behind `t` where an operand has to come, or none if `t` starts no operand. -/
def State.operandStep (t : Token) : Option State :=
  match t.kind with
  | .word =>
    if t.text = "if" then some .ifCondition
    else if t.text = "when" then some .whenSubject
    else if t.text = "try" then some .tryBody
    else if t.text = "object" then some .objectHead
    else if t.text = "fun" then some .functionHead
    else if t.text = "throw" then some .operand
    else if t.text = "return" then some .jump
    else if reserved.contains t.text then none
    else some .complete
  | .label => some .operand
  | .marker => some .annotated
  | .symbol =>
    if prefixSymbols.contains t.text then some .operand
    else if t.text = "::" then some .member
    else none
  | .quotedWord | .number | .character | .enclosed _ => some .complete
  | .opening _ | .closing _ => none

/-- The state behind `t` where the expression may end, with the number of `if`s that may still take an
`else`; none if the expression ends before `t`. The tokens behind `t` are `ts`. -/
def State.completeStep (ifs : Nat) (t : Token) (ts : List Token) : Option (State × Nat) :=
  let onSameLine (s : State) := if t.afterNewline then none else some (s, ifs)
  match t.kind with
  | .symbol =>
    if t.text = "." || t.text = "?." || t.text = "::" then some (.member, ifs)
    else if t.text = "!!" || t.text = "++" || t.text = "--" then onSameLine .complete
    else if t.text = "!is" then onSameLine .type
    else if t.text = "!in" then onSameLine .operand
    else if t.text = "<" && opensTypeArguments ts then some (.typeArguments 1 false, ifs)
    else if t.text = "+" || t.text = "-" then
      -- a number with a sign starts a new line's statement
      if t.afterNewline && ts.head?.any fun n => n.kind = .number && n.offset = t.endOffset then none
      else some (.operand, ifs)
    else if binarySymbols.contains t.text then some (.operand, ifs)
    else if t.text = "?" then
      if ts.head?.any fun n => n.isSymbol "::" then some (.complete, ifs) else none
    else if t.text = ";" then
      if 0 < ifs && ts.head?.any fun n => n.isWord "else" then some (.complete, ifs) else none
    else none
  | .word =>
    if t.text = "as" then some (.type, ifs)
    else if t.text = "is" then onSameLine .type
    else if t.text = "in" then some (.operand, ifs)
    else if t.text = "else" then
      match ifs with
      | 0 => none
      | ifs + 1 => some (.operand, ifs)
    else if reserved.contains t.text || expressionWords.contains t.text then none
    else onSameLine .operand
  | .quotedWord => onSameLine .operand
  | .label | .marker =>
    if ts.head?.any fun n => n.kind = .enclosed .curly then onSameLine .complete else none
  | .enclosed .round => onSameLine .complete
  | .enclosed .square | .enclosed .curly => some (.complete, ifs)
  | _ => none

/-- The state behind `t`, with the number of `if`s that may still take an `else`; none if the expression
ends before `t`. The tokens behind `t` are `ts`. -/
def State.step (s : State) (ifs : Nat) (t : Token) (ts : List Token) : Option (State × Nat) :=
  let keep (s : State) : Option (State × Nat) := some (s, ifs)
  let operand := (State.operandStep t).map fun s => (s, ifs)
  let complete := State.completeStep ifs t ts
  match s with
  | .operand => operand
  | .jump => if t.afterNewline then complete else operand.or complete
  | .complete => complete
  | .annotated => if t.kind = .enclosed .round then keep .operand else operand
  | .member => if t.isName || t.kind = .enclosed .round then keep .complete else none
  | .ifCondition => if t.kind = .enclosed .round then some (.operand, ifs + 1) else none
  | .whenSubject =>
    if t.kind = .enclosed .round then keep .whenBody
    else if t.kind = .enclosed .curly then keep .complete
    else none
  | .whenBody | .finallyBody => if t.kind = .enclosed .curly then keep .complete else none
  | .tryBody => if t.kind = .enclosed .curly then keep .tried else none
  | .tried =>
    if t.isWord "catch" then keep .caught
    else if t.isWord "finally" then keep .finallyBody
    else complete
  | .caught => if t.kind = .enclosed .round then keep .tryBody else none
  | .objectHead =>
    if t.isSymbol ":" then keep .superTypes
    else if t.kind = .enclosed .curly then keep .complete
    else none
  | .superTypes =>
    if t.kind = .enclosed .curly then keep .complete
    else if t.isName || t.kind = .enclosed .round || t.kind = .marker ||
        (t.kind = .symbol && [".", ",", "<", ">", "?", "*"].contains t.text) then keep .superTypes
    else none
  | .functionHead =>
    if t.kind = .enclosed .round then keep .functionSignature
    else if t.isName || (t.kind = .symbol && [".", ",", "<", ">", "?", "*"].contains t.text) then
      keep .functionHead
    else none
  | .functionSignature =>
    if t.isSymbol "=" then keep .operand
    else if t.kind = .enclosed .curly then keep .complete
    else if t.isSymbol ":" ||
        (t.kind = .symbol && [".", ",", "<", ">", "?", "*", "->", "&"].contains t.text) then
      keep .functionSignature
    else if (t.isName || t.kind = .enclosed .round || t.kind = .marker) && !t.afterNewline then
      keep .functionSignature
    else none
  | .type =>
    if t.kind = .marker || t.isSymbol "?" || t.isWord "suspend" then keep .type
    else if t.isName || t.kind = .enclosed .round then keep .typed
    else none
  | .typed =>
    if t.isSymbol "." || t.isSymbol "->" || t.isSymbol "&" then keep .type
    else if t.isSymbol "?" then keep .typed
    else if t.isSymbol "<" && (afterTypeArguments 1 ts).isSome then keep (.typeArguments 1 true)
    else complete
  | .typeArguments depth inType =>
    if t.isSymbol "<" then keep (.typeArguments (depth + 1) inType)
    else if t.isSymbol ">" then
      match depth with
      | 0 | 1 => keep (if inType then .typed else .complete)
      | depth + 2 => keep (.typeArguments (depth + 1) inType)
    else keep (.typeArguments depth inType)

/-- Where an expression in state `s` ends, if what was read of it so far ends at `stop`. -/
def extentFrom (s : State) (ifs : Nat) (stop : Point) : List Token → Point
  | [] => stop
  | t :: ts =>
    match s.step ifs t ts with
    | none => stop
    | some (s, ifs) => extentFrom s ifs t.stop ts

/-- Where the expression that starts behind `first` ends, `first` being a word that takes an operand, and
`ts` the tokens behind it. -/
def extent (first : Token) (ts : List Token) : Point :=
  extentFrom .operand 0 first.stop (siblings ts)

end Strata.Kotlin
