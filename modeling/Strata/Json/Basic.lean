/-!
# JSON documents

A number is either an integer or a numeral kept as it is written, so that reading and writing a
document never rounds. Objects keep their fields in the order in which they are written.
-/

namespace Strata

/-- A JSON document. -/
inductive Json where
  | null
  | bool (b : Bool)
  /-- An integer of any size. -/
  | int (n : Int)
  /-- A numeral with a fraction or an exponent, or one of `NaN`, `Infinity`, `-Infinity`. -/
  | real (numeral : String)
  | string (s : String)
  | array (items : List Json)
  | object (fields : List (String × Json))
  deriving Repr, Inhabited, BEq

namespace Json

/-- The last field of that name; `none` when the document has none or is no object. -/
def field? (name : String) : Json → Option Json
  | .object fields => (fields.reverse.find? fun f => f.1 == name).map (·.2)
  | _ => none

/-- The text of a string document. -/
def string? : Json → Option String
  | .string s => some s
  | _ => none

/-- The value of an integer document. -/
def int? : Json → Option Int
  | .int n => some n
  | _ => none

/-- The items of an array document. -/
def array? : Json → Option (List Json)
  | .array items => some items
  | _ => none

/-- The fields of an object document. -/
def fields? : Json → Option (List (String × Json))
  | .object fields => some fields
  | _ => none

end Json

end Strata
