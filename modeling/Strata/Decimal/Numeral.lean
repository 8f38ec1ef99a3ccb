import Strata.Decimal.Shortest
import Strata.Text.Digit

/-!
# Numerals of doubles

How a double is written (`render`), with the decisions of a style in one record; how it is written
with a fixed number of places (`fixed`); and how a decimal numeral is read (`read?`).
-/

namespace Strata.Decimal

/-- The decisions of a style for doubles. -/
structure Style where
  /-- The exponents of the first digit from `positionalFrom` up to and without `positionalTo` are
  written without an exponent mark. -/
  positionalFrom : Int
  positionalTo : Int
  /-- The least number of digits of a written exponent. -/
  exponentWidth : Nat
  nan : String
  infinity : String

/-- Shortest digits, positional from 0.0001 up to 10^16, `1e+16` and `1e-05` beyond. -/
def plain : Style where
  positionalFrom := -4
  positionalTo := 16
  exponentWidth := 2
  nan := "nan"
  infinity := "inf"

/-- The same digits with the names that JSON readers know. -/
def json : Style :=
  { plain with nan := "NaN", infinity := "Infinity" }

/-- Digits written with a point and, outside the positional range, an exponent. -/
def Style.layout (style : Style) (d : Digits) : List Char :=
  let ds := Nat.toDigits 10 d.digits
  if style.positionalFrom ≤ d.exponent ∧ d.exponent < style.positionalTo then
    if 0 ≤ d.exponent then
      let whole := d.exponent.toNat + 1
      let fraction := ds.drop whole
      ds.take whole ++ List.replicate (whole - ds.length) '0' ++ '.' ::
        (if fraction.isEmpty then ['0'] else fraction)
    else '0' :: '.' :: List.replicate ((-d.exponent).toNat - 1) '0' ++ ds
  else
    let fraction := ds.drop 1
    ds.take 1 ++ (if fraction.isEmpty then [] else '.' :: fraction) ++
      'e' :: (if d.exponent < 0 then '-' else '+') :: Text.padded style.exponentWidth d.exponent.natAbs

/-- A double in the given style. -/
def Style.render (style : Style) (x : Float) : String :=
  let signed (negative : Bool) (cs : List Char) := String.ofList (if negative then '-' :: cs else cs)
  match Binary.ofFloat x with
  | .nan => style.nan
  | .infinite negative => signed negative style.infinity.toList
  | .finite negative 0 _ _ => signed negative ['0', '.', '0']
  | .finite negative m q narrow => signed negative (style.layout (shortest m q narrow))

/-- The nearest natural number to `num / den`; a tie goes to the even one. -/
def roundDiv (num den : Nat) : Nat :=
  let low := num / den
  let twice := 2 * (num % den)
  if twice < den then low
  else if den < twice then low + 1
  else if low % 2 = 0 then low else low + 1

/-- A double with exactly `places` digits after the point, rounded from its exact value. -/
def fixed (places : Nat) (x : Float) : String :=
  let signed (negative : Bool) (cs : List Char) := String.ofList (if negative then '-' :: cs else cs)
  match Binary.ofFloat x with
  | .nan => "nan"
  | .infinite negative => signed negative ['i', 'n', 'f']
  | .finite negative m q _ =>
    let r := Ratio.scaleTen (Ratio.scaleTwo m q) places
    let units := roundDiv r.num r.den
    let whole := Nat.toDigits 10 (units / Nat.pow 10 places)
    signed negative (if places = 0 then whole else whole ++ '.' :: Text.padded places (units % Nat.pow 10 places))

/-- The double nearest to `digits · 10^exponent`. Far outside the range of doubles the answer does not
need the power of ten. -/
def scale (digits : Nat) (exponent : Int) : Float :=
  let size := (digitCount digits : Int) + exponent
  if digits = 0 then 0.0
  else if 400 < size then Float.ofBits 0x7FF0000000000000
  else if size < -400 then 0.0
  else if 0 ≤ exponent then Float.ofScientific digits false exponent.toNat
  else Float.ofScientific digits true (-exponent).toNat

/-- An exponent: a mark, an optional sign and digits, or nothing at all. -/
def readExponent? : List Char → Option Int
  | [] => some 0
  | mark :: rest =>
    if mark = 'e' ∨ mark = 'E' then
      let (negative, ds) := match rest with
        | '-' :: ds => (true, ds)
        | '+' :: ds => (false, ds)
        | ds => (false, ds)
      if !ds.isEmpty && ds.all Char.isDigit then
        some (if negative then -(Text.natOfDigits ds : Int) else Text.natOfDigits ds)
      else none
    else none

/-- An unsigned decimal: digits with an optional point among, before or after them, and an optional
exponent. -/
def readUnsigned? (cs : List Char) : Option Float :=
  let (whole, rest) := cs.span Char.isDigit
  let (fraction, rest) := match rest with
    | '.' :: rest => rest.span Char.isDigit
    | rest => ([], rest)
  if whole.isEmpty && fraction.isEmpty then none
  else (readExponent? rest).map fun e => scale (Text.natOfDigits (whole ++ fraction)) (e - fraction.length)

/-- A double read from a decimal numeral, or from one of the names of infinity and not-a-number in any
case, with an optional sign. -/
def read? (cs : List Char) : Option Float :=
  let (negative, rest) := match cs with
    | '-' :: rest => (true, rest)
    | '+' :: rest => (false, rest)
    | rest => (false, rest)
  let name := String.ofList (rest.map Char.toLower)
  let magnitude :=
    if name = "inf" ∨ name = "infinity" then some (Float.ofBits 0x7FF0000000000000)
    else if name = "nan" then some (Float.ofBits 0x7FF8000000000000)
    else readUnsigned? rest
  magnitude.map fun x => if negative then -x else x

end Strata.Decimal
