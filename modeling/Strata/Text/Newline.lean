/-!
# Line ends

A text file may end its lines with a line feed, a carriage return or both; after `unifyNewlines` only
line feeds are left.
-/

namespace Strata.Text

/-- Every carriage return, with a line feed after it or alone, as one line feed. -/
def unifyNewlineChars : List Char → List Char
  | '\r' :: '\n' :: cs => '\n' :: unifyNewlineChars cs
  | '\r' :: cs => '\n' :: unifyNewlineChars cs
  | c :: cs => c :: unifyNewlineChars cs
  | [] => []

/-- The text with all its line ends written as line feeds. -/
def unifyNewlines (s : String) : String :=
  String.ofList (unifyNewlineChars s.toList)

end Strata.Text
