import Strata.Json.Basic
import Strata.Text.Digit

/-!
# Writing JSON

Output is pure ASCII: every other character is written as an escape of its UTF-16 units. Two layouts:
`compact` on one line and `pretty` with one item a line, two blanks deeper at each level.
-/

namespace Strata.Json

/-- `\uXXXX` for a UTF-16 unit. -/
def escapeUnit (n : Nat) : List Char :=
  '\\' :: 'u' :: Text.hexDigits 4 n

/-- A character as it is written inside a string. -/
def escapeChar (c : Char) : List Char :=
  if c = '"' then ['\\', '"']
  else if c = '\\' then ['\\', '\\']
  else if c = '\n' then ['\\', 'n']
  else if c = '\r' then ['\\', 'r']
  else if c = '\t' then ['\\', 't']
  else if c.toNat = 0x08 then ['\\', 'b']
  else if c.toNat = 0x0C then ['\\', 'f']
  else if 0x20 ≤ c.toNat ∧ c.toNat ≤ 0x7E then [c]
  else if c.toNat < 0x10000 then escapeUnit c.toNat
  else
    let n := c.toNat - 0x10000
    escapeUnit (0xD800 + n / 1024) ++ escapeUnit (0xDC00 + n % 1024)

/-- A string with its quotes. -/
def quote (s : String) : String :=
  String.ofList ('"' :: s.toList.flatMap escapeChar ++ ['"'])

mutual

/-- The document on one line. -/
def compact : Json → String
  | .null => "null"
  | .bool true => "true"
  | .bool false => "false"
  | .int n => toString n
  | .real numeral => numeral
  | .string s => quote s
  | .array items => "[" ++ compactItems items ++ "]"
  | .object fields => "\x7b" ++ compactFields fields ++ "\x7d"

/-- Items with commas between them. -/
def compactItems : List Json → String
  | [] => ""
  | [x] => compact x
  | x :: y :: rest => compact x ++ "," ++ compactItems (y :: rest)

/-- Fields with commas between them. -/
def compactFields : List (String × Json) → String
  | [] => ""
  | [(name, x)] => quote name ++ ":" ++ compact x
  | (name, x) :: y :: rest => quote name ++ ":" ++ compact x ++ "," ++ compactFields (y :: rest)

end

/-- A new line, indented by `depth` steps of two blanks. -/
def newline (depth : Nat) : String :=
  String.ofList ('\n' :: List.replicate (2 * depth) ' ')

mutual

/-- The document over several lines, `depth` being the depth of the place where it stands. -/
def pretty (depth : Nat) : Json → String
  | .null => "null"
  | .bool true => "true"
  | .bool false => "false"
  | .int n => toString n
  | .real numeral => numeral
  | .string s => quote s
  | .array [] => "[]"
  | .array (x :: rest) => "[" ++ prettyItems (depth + 1) (x :: rest) ++ newline depth ++ "]"
  | .object [] => "\x7b\x7d"
  | .object (f :: rest) => "\x7b" ++ prettyFields (depth + 1) (f :: rest) ++ newline depth ++ "\x7d"

/-- Items, each on a line of its own. -/
def prettyItems (depth : Nat) : List Json → String
  | [] => ""
  | [x] => newline depth ++ pretty depth x
  | x :: y :: rest => newline depth ++ pretty depth x ++ "," ++ prettyItems depth (y :: rest)

/-- Fields, each on a line of its own. -/
def prettyFields (depth : Nat) : List (String × Json) → String
  | [] => ""
  | [(name, x)] => newline depth ++ quote name ++ ": " ++ pretty depth x
  | (name, x) :: y :: rest =>
    newline depth ++ quote name ++ ": " ++ pretty depth x ++ "," ++ prettyFields depth (y :: rest)

end

end Strata.Json
