import Strata.Text.Search

/-!
# Words that resemble each other

How much two words have in common is measured by their longest common part, the longest common parts on
both sides of it, and so on. `closeMatches` gives the words that resemble a given one most.
-/

namespace Strata.Text

/-- How many characters two texts have in common at their start. -/
def commonStart : List Char → List Char → Nat
  | a :: as, b :: bs => if a = b then commonStart as bs + 1 else 0
  | _, _ => 0

/-- A common part of two texts: where it starts in each of them, and its length. -/
structure CommonPart where
  left : Nat
  right : Nat
  length : Nat
  deriving Repr, DecidableEq

/-- The longest common part that starts at the start of `as`, and somewhere in the second text. Of several
the first one counts. -/
def longestFrom (left right : Nat) (as : List Char) (best : CommonPart) : List Char → CommonPart
  | [] => best
  | b :: bs =>
    let length := commonStart as (b :: bs)
    longestFrom left (right + 1) as (if best.length < length then ⟨left, right, length⟩ else best) bs

/-- The longest common part of two texts. Of several it is the one that starts first in the first text, and
then in the second one. -/
def longestCommon (left : Nat) (best : CommonPart) : List Char → List Char → CommonPart
  | [], _ => best
  | a :: as, bs => longestCommon (left + 1) (longestFrom left 0 (a :: as) best bs) as bs

/-- How many characters of two texts belong to common parts. At most `limit` parts are counted on each
way down, which is no limit if it is the length of a text. -/
def commonCount (limit : Nat) (as bs : List Char) : Nat :=
  match limit with
  | 0 => 0
  | limit + 1 =>
    let part := longestCommon 0 ⟨0, 0, 0⟩ as bs
    if part.length = 0 then 0
    else
      commonCount limit (as.take part.left) (bs.take part.right) + part.length +
        commonCount limit (as.drop (part.left + part.length)) (bs.drop (part.right + part.length))

/-- A candidate with the characters that it has in common with a word. -/
structure Candidate where
  word : String
  common : Nat
  /-- The characters of both words together. -/
  total : Nat

/-- What a candidate has in common with a word. -/
def Candidate.of (word candidate : String) : Candidate :=
  let count := commonCount candidate.length candidate.toList word.toList
  ⟨candidate, count, candidate.length + word.length⟩

/-- Is at least three fifths of both words common? -/
def Candidate.isClose (c : Candidate) : Bool :=
  3 * c.total ≤ 10 * c.common

/-- Candidates in descending order of what they have in common, and then of their text. -/
def Candidate.before (c d : Candidate) : Bool :=
  if c.common * d.total = d.common * c.total then lexLE d.word c.word
  else d.common * c.total < c.common * d.total

/-- The candidates that are close to a word, three at most, in alphabetical order. -/
def closeMatches (word : String) (candidates : List String) : List String :=
  let close := (candidates.map (Candidate.of word)).filter Candidate.isClose
  (((close.mergeSort Candidate.before).take 3).map Candidate.word).mergeSort lexLE

end Strata.Text
