/-!
# Globs

Patterns for whole paths: `*` stands for any characters, `?` for any one, `[…]` for one of a set and
`[!…]` for one outside it. A slash is a character like any other, and nothing escapes a special
character. `Glob.parse` reads a pattern, `Glob.accepts` matches it.
-/

namespace Strata

/-- One part of a pattern. -/
inductive GlobPart where
  /-- Any characters, also none. -/
  | star
  /-- Any one character. -/
  | any
  /-- This character. -/
  | exactly (c : Char)
  /-- One character in some range, both ends included, or outside all of them. -/
  | oneOf (negated : Bool) (ranges : List (Char × Char))
  deriving Repr, DecidableEq

/-- A pattern. -/
structure Glob where
  parts : List GlobPart
  deriving Repr, DecidableEq

namespace Glob

/-! ## Character sets

The text of a set is cut into chunks at its hyphens. The last character of a chunk and the first of the
next one are the ends of a range; all other characters stand for themselves. -/

/-- The chunks of a set's text. A hyphen ends a chunk that has at least `skip` more characters, unless
it is the last character of the set. `chunk` holds the characters of the current chunk in reverse. -/
def chunksFrom (chunk : List Char) : Nat → List Char → List (List Char)
  | _, [] => [chunk.reverse]
  | 0, ['-'] => [('-' :: chunk).reverse]
  | 0, '-' :: cs => chunk.reverse :: chunksFrom [] 2 cs
  | 0, c :: cs => chunksFrom (c :: chunk) 0 cs
  | skip + 1, c :: cs => chunksFrom (c :: chunk) skip cs

/-- The chunks of a set's text: the first has one character or more, not counting a mark of negation,
and every later one that is not the last has two or more. -/
def chunksOf (text : List Char) : List (List Char) :=
  chunksFrom [] (if text.head? = some '!' then 2 else 1) text

/-- The chunks without their empty ranges: where a range would run downwards, its ends vanish and the
two chunks become one. Ranges are looked at from the right. -/
def dropEmptyRanges : List (List Char) → List (List Char)
  | [] => []
  | left :: rest =>
    match dropEmptyRanges rest with
    | [] => [left]
    | right :: more =>
      match left.getLast?, right.head? with
      | some a, some b => if b < a then (left.dropLast ++ right.tail) :: more else left :: right :: more
      | _, _ => left :: right :: more

/-- The ranges that chunks stand for; `low` is the open end of a range begun by the chunk before. -/
def rangesFrom (low : Option Char) : List (List Char) → List (Char × Char)
  | [] => []
  | chunk :: rest =>
    let ranged := match low, chunk with
      | some a, b :: cs => (a, b) :: cs.map fun c => (c, c)
      | _, cs => cs.map fun c => (c, c)
    match rest with
    | [] => ranged
    | _ :: _ => ranged ++ rangesFrom chunk.getLast? rest

/-- The part that a set's text stands for. The mark of negation is looked for after empty ranges have
been dropped. An empty set matches nothing, an empty negated one any character. -/
def partOfSet (text : List Char) : GlobPart :=
  match dropEmptyRanges (chunksOf text) with
  | ('!' :: chunk) :: rest => .oneOf true (rangesFrom none (chunk :: rest))
  | cut => .oneOf false (rangesFrom none cut)

/-- The text of the set that begins after an opening bracket, up to its closing bracket. A closing
bracket right at the start, also after `!`, belongs to the set. -/
def setText? (cs : List Char) : Option (List Char) :=
  let lead := match cs with
    | '!' :: ']' :: _ => 2
    | '!' :: _ => 1
    | ']' :: _ => 1
    | _ => 0
  let size := lead + ((cs.drop lead).takeWhile fun c => c != ']').length
  if size < cs.length then some (cs.take size) else none

/-- The parts of a pattern after its first `skip` characters. An opening bracket without its closing
one stands for itself. -/
def partsFrom : Nat → List Char → List GlobPart
  | _, [] => []
  | skip + 1, _ :: cs => partsFrom skip cs
  | 0, c :: cs =>
    if c = '*' then .star :: partsFrom 0 cs
    else if c = '?' then .any :: partsFrom 0 cs
    else if c = '[' then
      match setText? cs with
      | some text => partOfSet text :: partsFrom (text.length + 1) cs
      | none => .exactly c :: partsFrom 0 cs
    else .exactly c :: partsFrom 0 cs

/-- The pattern that a text stands for. -/
def parse (pattern : String) : Glob :=
  ⟨partsFrom 0 pattern.toList⟩

end Glob

/-- Does the part stand for this one character? -/
def GlobPart.admits (c : Char) : GlobPart → Bool
  | .star => true
  | .any => true
  | .exactly d => c == d
  | .oneOf negated ranges => (ranges.any fun r => r.1 ≤ c && c ≤ r.2) != negated

/-- Given for each end of the text, from the longest to the empty one, whether the parts that follow
match it: the same with this part in front. -/
def GlobPart.sweep (text : List Char) (ends : List Bool) : GlobPart → List Bool
  | .star => ends.scanr (· || ·) false |>.dropLast
  | part => text.zipWith (fun c rest => part.admits c && rest) ends.tail ++ [false]

/-- Does the pattern match the whole text? For each part, from the last to the first, the ends of the
text that match from there on are computed from those of the part behind it. -/
def Glob.accepts (g : Glob) (text : String) : Bool :=
  let cs := text.toList
  let last := List.replicate cs.length false ++ [true]
  (g.parts.foldr (fun part ends => part.sweep cs ends) last).headD false

/-- Does some pattern match the path? -/
def Glob.anyAccepts (patterns : List String) (path : String) : Bool :=
  patterns.any fun p => (Glob.parse p).accepts path

end Strata
