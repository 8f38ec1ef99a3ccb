import Strata.Association
import Strata.Decimal.Shortest
import Strata.Value.Calendar

/-!
# Setting values

The values that a settings document can hold. A mapping is a table in insertion order; its keys are
compared by `Value.sameKey`, so that `1`, `1.0` and `true` are one key.
-/

namespace Strata

/-- A value of a settings document. -/
inductive Value where
  | null
  | bool (b : Bool)
  | int (n : Int)
  | float (x : Float)
  | string (s : String)
  | bytes (bytes : List UInt8)
  | date (d : Date)
  | dateTime (t : DateTime)
  | list (items : List Value)
  /-- A key with its value, as it stands in an ordered list of entries. -/
  | pair (key value : Value)
  | map (entries : List (Value × Value))
  | set (items : List Value)
  deriving Inhabited

namespace Value

/-- Is the double exactly that integer? -/
def floatIsInt (x : Float) (n : Int) : Bool :=
  match Decimal.Binary.ofFloat x with
  | .finite negative mantissa exponent _ =>
    let r := Decimal.Ratio.scaleTwo mantissa exponent
    (if negative then -(r.num : Int) else r.num) == n * r.den
  | _ => false

/-- The integer that a value counts as: `true` is 1 and `false` is 0. -/
def integer? : Value → Option Int
  | .bool b => some (if b then 1 else 0)
  | .int n => some n
  | _ => none

/-- Are two values one key? Numbers are compared by what they are worth, whatever their kind; of all
else only values of the same kind can be one key. Collections are no keys. -/
def sameKey : Value → Value → Bool
  | .null, .null => true
  | .string a, .string b => a == b
  | .bytes a, .bytes b => a == b
  | .date a, .date b => a == b
  | .dateTime a, .dateTime b => a.same b
  | .float x, .float y => x == y
  | .float x, v =>
    match v.integer? with
    | some n => floatIsInt x n
    | none => false
  | v, .float y =>
    match v.integer? with
    | some n => floatIsInt y n
    | none => false
  | v, w =>
    match v.integer?, w.integer? with
    | some m, some n => m == n
    | _, _ => false

/-- The kinds of values that cannot be keys. -/
inductive Collection where
  | list
  | map
  | set
  deriving Repr, DecidableEq

/-- The first part of the value that keeps it from being a key, if there is one. -/
def keyObstacle? : Value → Option Collection
  | .list _ => some .list
  | .map _ => some .map
  | .set _ => some .set
  | .pair key value =>
    match keyObstacle? key with
    | some c => some c
    | none => keyObstacle? value
  | _ => none

/-- The value under a key that is a text. -/
def get? (key : String) (entries : List (Value × Value)) : Option Value :=
  Association.get? sameKey (.string key) entries

end Value

end Strata
