/-!
# Escape sequences

A terminal is told to change its colours and the like by sequences among the text: an escape character, a bracket,
some parameters and a letter. A text that is not shown on a terminal is written without them.
-/

namespace Strata.Text

/-- May the character stand between the bracket and the letter of an escape sequence? -/
def isParameter (c : Char) : Bool :=
  c.isDigit || c = ';' || c = '?'

/-- How many characters the escape sequence has with which the text begins. It is 0 if the text begins with none. -/
def escapeLength : List Char → Nat
  | '\x1b' :: '[' :: cs =>
    match cs.dropWhile isParameter with
    | c :: _ => if c.isAlpha then (cs.takeWhile isParameter).length + 3 else 0
    | [] => 0
  | _ => 0

/-- The characters without escape sequences. The next `skip` characters belong to one. -/
def deleteEscapesFrom (skip : Nat) : List Char → List Char
  | [] => []
  | c :: cs =>
    match skip with
    | skip + 1 => deleteEscapesFrom skip cs
    | 0 =>
      match escapeLength (c :: cs) with
      | 0 => c :: deleteEscapesFrom 0 cs
      | more + 1 => deleteEscapesFrom more cs

/-- The text without its escape sequences. -/
def deleteEscapes (s : String) : String :=
  String.ofList (deleteEscapesFrom 0 s.toList)

end Strata.Text
