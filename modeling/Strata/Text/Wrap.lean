import Strata.Text.Blank
import Strata.Text.Cell
import Strata.Text.Search

/-!
# Wrapped text

A text is laid out in lines of at most `width` cells. A line is broken before a word that does not fit any
more; a word that fits no line at all is cut into pieces. Blanks stay behind the word that they follow, and
those beyond the width are dropped.
-/

namespace Strata.Text

/-- A text's words. Each has the blanks behind it, and the first one those before it too. Nothing but blanks
is no word. -/
def words (cs : List Char) : List (List Char) :=
  let start := cs.takeWhile isBlank
  match wordsFrom [] (cs.drop start.length) with
  | [] => []
  | w :: ws => (start ++ w) :: ws
where
  /-- The words from here on, `word` being in reverse what was read of the first one. -/
  wordsFrom (word : List Char) : List Char → List (List Char)
    | [] => if word.isEmpty then [] else [word.reverse]
    | c :: cs =>
      if !isBlank c && word.head?.any isBlank then word.reverse :: wordsFrom [c] cs
      else wordsFrom (c :: word) cs

/-- The characters without the blanks at their end. -/
def trimEnd (cs : List Char) : List Char :=
  dropEndWhile isBlank cs

/-- A word cut into pieces of at most `width` cells; `piece` is in reverse what was read of the first one,
and `used` its cells. -/
def chopFrom (width : Nat) (piece : List Char) (used : Nat) : List Char → List (List Char)
  | [] => [piece.reverse]
  | c :: cs =>
    if width < used + cell c then piece.reverse :: chopFrom width [c] (cell c) cs
    else chopFrom width (c :: piece) (used + cell c) cs

/-- Lays words out. The line that is being written is `line`, and `used` of its cells are taken. -/
def layOut (width : Nat) (line : List Char) (used : Nat) : List (List Char) → List (List Char)
  | [] => [line]
  | w :: ws =>
    let size := cells (trimEnd w)
    if used + size ≤ width then layOut width (line ++ w) (used + cells w) ws
    else if width < size then
      let pieces := chopFrom width [] 0 w
      let last := pieces.getLast?.getD []
      (if line.isEmpty then [] else [line]) ++ pieces.dropLast ++ layOut width last (cells last) ws
    else line :: layOut width w (cells w) ws

/-- A line without the blanks at its end that are beyond `width` characters. -/
def dropExcess (width : Nat) (line : List Char) : List Char :=
  let blanks := line.length - (trimEnd line).length
  line.take (line.length - min blanks (line.length - width))

/-- The first `width` cells of a line. Half a wide character at the end is a space. -/
def crop (width : Nat) : List Char → List Char
  | [] => []
  | c :: cs =>
    if cell c ≤ width then c :: crop (width - cell c) cs
    else List.replicate width ' '

/-- The lines of a text without line ends. -/
def wrapLine (width : Nat) (cs : List Char) : List (List Char) :=
  let lines := match words cs with
    | [] => [cs]
    | ws => layOut width [] 0 ws
  lines.map fun line =>
    let line := dropExcess width line
    if width < cells line then crop width line else line

/-- The distance between two tab stops. -/
def tabSize : Nat := 8

/-- Spaces in the place of tabs, up to the next tab stop. The text before takes `used` cells. -/
def expandTabs (used : Nat) : List Char → List Char
  | [] => []
  | '\t' :: cs =>
    let spaces := tabSize - used % tabSize
    List.replicate spaces ' ' ++ expandTabs (used + spaces) cs
  | c :: cs => c :: expandTabs (used + cell c) cs

/-- Controls that are never shown: bell, backspace, vertical tab, form feed and carriage return. -/
def isDropped (c : Char) : Bool :=
  [0x07, 0x08, 0x0B, 0x0C, 0x0D].contains c.toNat

/-- The lines in which a text is shown. -/
def wrap (width : Nat) (s : String) : List String :=
  let shown := String.ofList (s.toList.filter fun c => !isDropped c)
  (split '\n' shown).flatMap fun line =>
    (wrapLine width (expandTabs 0 line.toList)).map String.ofList

end Strata.Text
