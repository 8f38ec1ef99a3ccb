import Strata.Kotlin.Extent

/-!
# The outline of a Kotlin source

The outline is a tree with the package header, the imports and the throws of a source; all other syntax
is left out. A throw that stands in the operand of another one is a node below it.
-/

namespace Strata.Kotlin

open Strata.Syntax (Point Span Node)

/-- The tokens of a dotted path behind its first segment. -/
def pathTail : List Token → List Token
  | dot :: name :: ts => if dot.isSymbol "." && name.isName then dot :: name :: pathTail ts else []
  | _ => []

/-- The tokens of the dotted path that starts here. A segment may be any word. -/
def pathTokens : List Token → List Token
  | t :: ts => if t.isName then t :: pathTail ts else []
  | [] => []

/-- The tokens with which an import goes on behind its path: a star, and then an alias. -/
def importTail (ts : List Token) : List Token :=
  let star := match ts with
    | dot :: s :: _ => if dot.isSymbol "." && s.isSymbol "*" then [dot, s] else []
    | _ => []
  let aliasOf := match ts.drop star.length with
    | word :: name :: _ => if word.isWord "as" && name.isName then [word, name] else []
    | _ => []
  star ++ aliasOf

/-- The semicolon that closes an import which ends with `last`: it has to stand on the same line, with
nothing but blanks between. -/
def importEnd (source : List Char) (last : Token) : List Token → List Token
  | t :: _ =>
    let between := (source.drop last.endOffset).take (t.offset - last.endOffset)
    if t.isSymbol ";" && between.all fun c => isSpace c && c != '\n' then [t] else []
  | [] => []

/-- The node of a dotted path, which has the text of the source from its first to its last segment. -/
def pathNode (source : List Char) (path : List Token) : List Node :=
  match path.head?, path.getLast? with
  | some first, some last =>
    let text := String.ofList ((source.drop first.offset).take (last.endOffset - first.offset))
    [.mk "qualified_identifier" true text.toUTF8 ⟨first.start, last.stop⟩ []]
  | _, _ => []

/-- A header: its node, and how many tokens behind its keyword belong to it. -/
def header (kind : String) (source : List Char) (keyword : Token) (path tail : List Token) : Node × Nat :=
  let stop := ((path ++ tail).getLast?.getD keyword).stop
  (.mk kind true ByteArray.empty ⟨keyword.start, stop⟩ (pathNode source path), path.length + tail.length)

/-- The package header with this keyword, the tokens behind it being `ts`. -/
def packageHeader (source : List Char) (keyword : Token) (ts : List Token) : Node × Nat :=
  header "package_header" source keyword (pathTokens ts) []

/-- The import with this keyword. Without a path it is the keyword alone. -/
def importHeader (source : List Char) (keyword : Token) (ts : List Token) : Node × Nat :=
  let path := pathTokens ts
  match path.getLast? with
  | none => header "import" source keyword [] []
  | some last =>
    let rest := ts.drop path.length
    let tail := importTail rest
    let close := importEnd source (tail.getLast?.getD last) (rest.drop tail.length)
    header "import" source keyword path (tail ++ close)

/-- Words that a name follows. -/
def declaring : List String :=
  ["class", "fun", "interface", "object", "typealias", "val", "var"]

/-- May an import stand behind this token? Behind a symbol or the keyword of a declaration the word
`import` is a name. -/
def allowsImport (before : Option Token) : Bool :=
  match before with
  | none => true
  | some t =>
    match t.kind with
    | .symbol => t.text = ";"
    | .word => !declaring.contains t.text
    | _ => true

/-- May these tokens follow the keyword of an import? Otherwise the word `import` is a name. -/
def continuesImport : List Token → Bool
  | t :: _ => t.isName || t.isSymbol "*" || t.afterNewline
  | [] => true

/-- Where the reader of an outline stands. -/
structure Place where
  /-- How many brackets are open. -/
  depth : Nat
  /-- The token before, unless a header ends there. -/
  before : Option Token
  /-- Did nothing but annotations come so far? -/
  top : Bool

namespace Place

/-- The place behind `t`. -/
def next (p : Place) (t : Token) : Place :=
  match t.kind with
  | .opening _ => ⟨p.depth + 1, some t, p.top⟩
  | .closing _ => ⟨p.depth - 1, some t, p.top⟩
  | .marker => ⟨p.depth, some t, p.top⟩
  | _ => ⟨p.depth, some t, p.top && (0 < p.depth || t.isSymbol ":")⟩

end Place

/-- The package headers, imports and throws among the tokens, in order and not nested. The next `skip`
tokens belong to a header. -/
def entriesFrom (source : List Char) (skip : Nat) (p : Place) : List Token → List Node
  | [] => []
  | t :: ts =>
    match skip with
    | skip + 1 => entriesFrom source skip p ts
    | 0 =>
      if t.isWord "package" && p.depth = 0 && p.top then
        let (node, length) := packageHeader source t ts
        node :: entriesFrom source length ⟨0, none, false⟩ ts
      else if t.isWord "import" && p.depth = 0 && allowsImport p.before && continuesImport ts then
        let (node, length) := importHeader source t ts
        node :: entriesFrom source length ⟨0, none, false⟩ ts
      else if t.isWord "throw" then
        .mk "throw_expression" true ByteArray.empty ⟨t.start, extent t ts⟩ [] ::
          entriesFrom source 0 (p.next t) ts
      else entriesFrom source 0 (p.next t) ts

/-- Does `p` come before `q` in a source? -/
def isBefore (p q : Point) : Bool :=
  p.row < q.row || (p.row = q.row && p.column < q.column)

/-- Puts a node before the trees that follow it: those that start before its end become its children. -/
def nest (n : Node) (following : List Node) : List Node :=
  let inside (m : Node) := isBefore m.span.start n.span.stop
  .mk n.kind n.named n.text n.span (n.children ++ following.takeWhile inside) :: following.dropWhile inside

/-- The outline of a source. -/
def outline (source : String) : Node :=
  let chars := source.toList
  let entries := entriesFrom chars 0 ⟨0, none, true⟩ (tokensOf chars)
  let stop := chars.foldl nextPoint ⟨0, 0⟩
  .mk "source_file" true ByteArray.empty ⟨⟨0, 0⟩, stop⟩ (entries.foldr nest [])

end Strata.Kotlin
