/-!
# The shortest decimal of a binary fraction

A finite double is `m · 2^q`. Among the decimals that read back as that double, `shortest` takes one with
the fewest digits and, of those, the nearest. All arithmetic is exact, on natural numbers.
-/

namespace Strata.Decimal

/-- What the bits of a double stand for. -/
inductive Binary where
  | nan
  | infinite (negative : Bool)
  /-- `(-1)^negative · mantissa · 2^exponent`; `narrow` if the double below is at half the distance of
  the double above. -/
  | finite (negative : Bool) (mantissa : Nat) (exponent : Int) (narrow : Bool)
  deriving Repr, DecidableEq

/-- The parts of a double: one sign bit, eleven bits of exponent, fifty-two bits of fraction. -/
def Binary.ofFloat (x : Float) : Binary :=
  let bits := x.toBits.toNat
  let negative := bits / Nat.pow 2 63 == 1
  let exponent : Nat := bits / Nat.pow 2 52 % Nat.pow 2 11
  let fraction := bits % Nat.pow 2 52
  if exponent = 2047 then
    if fraction = 0 then .infinite negative else .nan
  else if exponent = 0 then .finite negative fraction (-1074) false
  else .finite negative (Nat.pow 2 52 + fraction) ((exponent : Int) - 1075) (fraction = 0 && 1 < exponent)

/-- A ratio of natural numbers, kept unreduced. -/
structure Ratio where
  num : Nat
  den : Nat
  deriving Repr

/-- `n · 2^q` as a ratio. -/
def Ratio.scaleTwo (n : Nat) (q : Int) : Ratio :=
  if 0 ≤ q then ⟨n * Nat.pow 2 q.toNat, 1⟩ else ⟨n, Nat.pow 2 (-q).toNat⟩

/-- `r · 10^e`. -/
def Ratio.scaleTen (r : Ratio) (e : Int) : Ratio :=
  if 0 ≤ e then ⟨r.num * Nat.pow 10 e.toNat, r.den⟩ else ⟨r.num, r.den * Nat.pow 10 (-e).toNat⟩

/-- Is `r` below the natural number `n`? -/
def Ratio.ltNat (r : Ratio) (n : Nat) : Bool :=
  r.num < n * r.den

/-- The number of decimal digits of `n`. -/
def digitCount (n : Nat) : Nat :=
  (Nat.toDigits 10 n).length

/-- The largest `e` with `10^e ≤ r`, for a positive `r`. -/
def Ratio.magnitude (r : Ratio) : Int :=
  let guess : Int := (digitCount r.num : Int) - (digitCount r.den : Int)
  -- The quotient has as many digits as the difference of the counts says, or one fewer.
  if (r.scaleTen (-guess)).ltNat 1 then guess - 1 else guess

/-- Decimal digits with the exponent of the first one: `digits = 314, exponent = 0` is 3.14. -/
structure Digits where
  digits : Nat
  exponent : Int
  deriving Repr, DecidableEq

/-- `digits` without its trailing zeros; `fuel` bounds their number. -/
def dropZeros : Nat → Nat → Nat
  | 0, n => n
  | fuel + 1, n => if n % 10 = 0 ∧ n ≠ 0 then dropZeros fuel (n / 10) else n

/-- The neighbours of the value on the grid of `count` digits that lie in the rounding interval, the
nearer one first; of two at the same distance the even one. -/
def candidate (value low high : Ratio) (closed : Bool) (magnitude : Int) (count : Nat) : Option Nat :=
  let shift : Int := (count : Int) - 1 - magnitude
  let v := value.scaleTen shift
  let lo := low.scaleTen shift
  let hi := high.scaleTen shift
  let below := v.num / v.den
  let above := below + 1
  let belowIn := if closed then lo.num ≤ below * lo.den else lo.num < below * lo.den
  let aboveIn := if closed then above * hi.den ≤ hi.num else above * hi.den < hi.num
  let twice := 2 * (v.num % v.den)
  if belowIn && aboveIn then
    if twice < v.den then some below
    else if v.den < twice then some above
    else if below % 2 = 0 then some below else some above
  else if belowIn then some below
  else if aboveIn then some above
  else none

/-- The first grid with a candidate, starting from `count` digits. If none of the grids has one, it is the power of ten
below the value. -/
def firstGrid (value low high : Ratio) (closed : Bool) (magnitude : Int) : Nat → Nat → Digits
  | 0, _ => ⟨1, magnitude⟩
  | fuel + 1, count =>
    match candidate value low high closed magnitude count with
    | some n =>
      let carried := digitCount n - count
      ⟨dropZeros (count + 1) n, magnitude + carried⟩
    | none => firstGrid value low high closed magnitude fuel (count + 1)

/-- The shortest decimal that reads back as `mantissa · 2^exponent`, for a positive mantissa. Seventeen
digits always suffice. -/
def shortest (mantissa : Nat) (exponent : Int) (narrow : Bool) : Digits :=
  -- In quarters of the unit in the last place the value is `4m`, and a decimal reads back as it within
  -- half a unit on either side, a quarter below if the gap there is narrow.
  let value := Ratio.scaleTwo (4 * mantissa) (exponent - 2)
  let low := Ratio.scaleTwo (if narrow then 4 * mantissa - 1 else 4 * mantissa - 2) (exponent - 2)
  let high := Ratio.scaleTwo (4 * mantissa + 2) (exponent - 2)
  firstGrid value low high (mantissa % 2 = 0) value.magnitude 17 1

end Strata.Decimal
