/-!
# Searching in texts

Prefixes, occurrences and splitting, on lists of characters. Everything here recurses on the text, so
that each operation has equations of its own.
-/

namespace Strata.Text

/-- What follows `start` in a text that begins with it. -/
def afterPrefix? : List Char → List Char → Option (List Char)
  | [], cs => some cs
  | _ :: _, [] => none
  | p :: ps, c :: cs => if p = c then afterPrefix? ps cs else none

/-- Does `s` begin with `start`? -/
def beginsWith (s start : String) : Bool :=
  start.toList.isPrefixOf s.toList

/-- Does `word` occur somewhere in the characters? -/
def occursIn (word : List Char) : List Char → Bool
  | [] => word.isEmpty
  | c :: cs => word.isPrefixOf (c :: cs) || occursIn word cs

/-- Does `word` occur somewhere in `s`? The empty text occurs everywhere. -/
def contains (s word : String) : Bool :=
  occursIn word.toList s.toList

/-- The maximal runs between the characters that satisfy `p`; there is always at least one. -/
def splitWhere (p : Char → Bool) : List Char → List (List Char)
  | [] => [[]]
  | c :: cs =>
    if p c then [] :: splitWhere p cs
    else match splitWhere p cs with
      | [] => [[c]]
      | run :: runs => (c :: run) :: runs

/-- The maximal runs between the characters equal to `sep`. -/
def splitAt (sep : Char) (cs : List Char) : List (List Char) :=
  splitWhere (fun c => c = sep) cs

/-- The pieces of `s` between the separators. -/
def split (sep : Char) (s : String) : List String :=
  (splitAt sep s.toList).map String.ofList

/-- `s` with every `old` replaced by `new`. -/
def replaceChar (old new : Char) (s : String) : String :=
  String.ofList (s.toList.map fun c => if c = old then new else c)

/-- Strings in the order of their code points. -/
def lexLE (a b : String) : Bool :=
  !(b < a)

end Strata.Text
