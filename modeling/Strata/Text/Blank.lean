import Strata.Text.Search

/-!
# Blank characters

White space in the sense of this library, and the operations that ignore it. Dotted paths may be laid
out over several lines; joining the pieces between their blanks gives the name that is meant.
-/

namespace Strata.Text

/-- White space: the ASCII controls U+0009–000D and U+001C–001F, the space, U+0085 and U+00A0, and the
Unicode separators. -/
def isBlank (c : Char) : Bool :=
  let n := c.toNat
  (0x09 ≤ n && n ≤ 0x0D) || (0x1C ≤ n && n ≤ 0x20) || n == 0x85 || n == 0xA0 || n == 0x1680 ||
    (0x2000 ≤ n && n ≤ 0x200A) || n == 0x2028 || n == 0x2029 || n == 0x202F || n == 0x205F ||
    n == 0x3000

/-- What stands between the blanks of a text, without the empty pieces between blanks that follow each other. -/
def pieces (s : String) : List String :=
  ((splitWhere isBlank s.toList).filter fun piece => !piece.isEmpty).map String.ofList

/-- The characters without the trailing ones that satisfy `p`. -/
def dropEndWhile (p : Char → Bool) (cs : List Char) : List Char :=
  (cs.reverse.dropWhile p).reverse

/-- The characters without the leading and trailing ones that satisfy `p`. -/
def stripWhile (p : Char → Bool) (cs : List Char) : List Char :=
  dropEndWhile p (cs.dropWhile p)

/-- The text without leading and trailing blanks. -/
def trim (s : String) : String :=
  String.ofList (stripWhile isBlank s.toList)

end Strata.Text
