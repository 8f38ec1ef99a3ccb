import Strata.Decimal.Numeral
import Strata.Text.Quoted
import Strata.Value.HashOrder

/-!
# Values in messages

`Value.display` is a value as it stands alone in a message, `Value.literal` as it stands inside a
collection: there texts are quoted, and dates and times say what they are.
-/

namespace Strata.Value

mutual

/-- A value as it stands inside a collection. -/
def literal : Value → String
  | .null => "None"
  | .bool true => "True"
  | .bool false => "False"
  | .int n => toString n
  | .float x => Decimal.plain.render x
  | .string s => Text.quoted s
  | .bytes bs => Text.quotedBytes bs
  | .date d => d.literal
  | .dateTime t => t.literal
  | .list items => "[" ++ String.intercalate ", " (literals items) ++ "]"
  | .pair key value => "(" ++ literal key ++ ", " ++ literal value ++ ")"
  | .map entries => "\x7b" ++ String.intercalate ", " (entryLiterals entries) ++ "\x7d"
  | .set [] => "set()"
  | .set (item :: items) =>
    "\x7b" ++ String.intercalate ", " (inHashOrder (item :: items) (literals (item :: items))) ++ "\x7d"

/-- Values as they stand inside a collection. -/
def literals : List Value → List String
  | [] => []
  | v :: rest => literal v :: literals rest

/-- Entries as they stand inside a mapping. -/
def entryLiterals : List (Value × Value) → List String
  | [] => []
  | (key, value) :: rest => (literal key ++ ": " ++ literal value) :: entryLiterals rest

end

/-- A value as it stands alone. -/
def display : Value → String
  | .string s => s
  | .date d => d.iso
  | .dateTime t => t.iso " "
  | v => v.literal

end Strata.Value
