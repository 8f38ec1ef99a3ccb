import Strata.Text.Quoted
import Strata.Value.Calendar

/-!
# What can be wrong with a YAML document

Whatever is not YAML, or not a plain data document, is `malformed`. It is not told what is wrong with it or where, so
its message ends behind the colon. The other errors are about scalars whose text does not fit the tag they are given.
-/

namespace Strata.Yaml

/-- Why a document has no value. -/
inductive Error where
  | malformed
  /-- A text that is no integer in the base. -/
  | integer (base : Nat) (text : String)
  /-- A text that is no number. -/
  | float (text : String)
  /-- A text that is no truth value. -/
  | bool (text : String)
  /-- An empty text where a number is wanted. -/
  | emptyNumber
  | calendar (e : CalendarError)
  /-- A text that is no time. -/
  | timestamp
  /-- An escape beyond the last code point. -/
  | codePoint
  /-- An escape beyond what fits a machine word. -/
  | hugeCodePoint
  deriving Repr, DecidableEq, Inhabited

/-- What is wrong, in words. -/
def Error.message : Error → String
  | .malformed => "invalid YAML: "
  | .integer base text =>
    "invalid literal for int() with base " ++ toString base ++ ": " ++ Text.quoted text
  | .float text => "could not convert string to float: " ++ Text.quoted text
  | .bool text => Text.quoted text
  | .emptyNumber => "string index out of range"
  | .calendar e => e.message
  | .timestamp => "'NoneType' object has no attribute 'groupdict'"
  | .codePoint => "chr() arg not in range(0x110000)"
  | .hugeCodePoint => "signed integer is greater than maximum"

end Strata.Yaml
