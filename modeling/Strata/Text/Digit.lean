import Strata.Text.Blank

/-!
# Digits and integers

Numbers are written with ASCII digits, at least so many or just so many of them. Integers may be read with the
digits of any script, with blanks around them and with single underscores between digits.
-/

namespace Strata.Text

/-- `n` with at least `width` decimal digits. -/
def padded (width n : Nat) : List Char :=
  let ds := Nat.toDigits 10 n
  List.replicate (width - ds.length) '0' ++ ds

/-- `count` lower-case hexadecimal digits of `n`. -/
def hexDigits (count n : Nat) : List Char :=
  (List.range count).reverse.map fun k => Nat.digitChar (n / Nat.pow 16 k % 16)

/-- The natural number with these decimal digits. -/
def natOfDigits (ds : List Char) : Nat :=
  ds.foldl (fun n d => n * 10 + (d.toNat - '0'.toNat)) 0

/-- The zeros of the scripts; the other nine digits follow each of them. -/
def digitZeros : List Nat := [
    0x30, 0x660, 0x6F0, 0x7C0, 0x966, 0x9E6, 0xA66, 0xAE6, 0xB66, 0xBE6, 0xC66, 0xCE6, 0xD66, 0xDE6,
    0xE50, 0xED0, 0xF20, 0x1040, 0x1090, 0x17E0, 0x1810, 0x1946, 0x19D0, 0x1A80, 0x1A90, 0x1B50,
    0x1BB0, 0x1C40, 0x1C50, 0xA620, 0xA8D0, 0xA900, 0xA9D0, 0xA9F0, 0xAA50, 0xABF0, 0xFF10, 0x104A0,
    0x10D30, 0x11066, 0x110F0, 0x11136, 0x111D0, 0x112F0, 0x11450, 0x114D0, 0x11650, 0x116C0,
    0x11730, 0x118E0, 0x11950, 0x11C50, 0x11D50, 0x11DA0, 0x16A60, 0x16AC0, 0x16B50, 0x1D7CE,
    0x1D7D8, 0x1D7E2, 0x1D7EC, 0x1D7F6, 0x1E140, 0x1E2F0, 0x1E950, 0x1FBF0]

/-- The value of a decimal digit of any script. -/
def digitValue? (c : Char) : Option Nat :=
  (digitZeros.find? fun z => z ≤ c.toNat && c.toNat < z + 10).map fun z => c.toNat - z

/-- The value of a digit or letter in a base of up to thirty-six. -/
def digitInBase? (base : Nat) (c : Char) : Option Nat :=
  let value := match digitValue? c with
    | some d => some d
    | none =>
      if 'a' ≤ c ∧ c ≤ 'z' then some (c.toNat - 'a'.toNat + 10)
      else if 'A' ≤ c ∧ c ≤ 'Z' then some (c.toNat - 'A'.toNat + 10)
      else none
  value.filter fun d => d < base

/-- The number that digits stand for after those worth `value`; `bar` says whether an underscore may
stand here. There must be a digit at the end. -/
def readDigits? (base value : Nat) (bar : Bool) : List Char → Option Nat
  | [] => if bar then some value else none
  | c :: cs =>
    if c = '_' then if bar then readDigits? base value false cs else none
    else match digitInBase? base c with
      | some d => readDigits? base (value * base + d) true cs
      | none => none

/-- The mark that may stand before the digits of a base, such as `0x`. -/
def baseMark (base : Nat) (c : Char) : Bool :=
  (base = 2 && (c = 'b' || c = 'B')) || (base = 8 && (c = 'o' || c = 'O')) ||
    (base = 16 && (c = 'x' || c = 'X'))

/-- The natural number written in a base, with or without the mark of the base. -/
def readNat? (base : Nat) : List Char → Option Nat
  | '0' :: c :: cs =>
    if baseMark base c then
      match cs with
      | '_' :: ds => readDigits? base 0 false ds
      | ds => readDigits? base 0 false ds
    else readDigits? base 0 false ('0' :: c :: cs)
  | cs => readDigits? base 0 false cs

/-- The blanks that may stand around a number: all but the separators U+001C–001F. -/
def isPadding (c : Char) : Bool :=
  isBlank c && !(0x1C ≤ c.toNat && c.toNat ≤ 0x1F)

/-- The ASCII digit of the same value, for a digit of any script; other characters stay. -/
def asciiDigit (c : Char) : Char :=
  match digitValue? c with
  | some d => Nat.digitChar d
  | none => c

/-- The integer written in a base, with an optional sign and blanks around it. -/
def readInt? (base : Nat) (text : String) : Option Int :=
  match stripWhile isPadding text.toList with
  | '-' :: cs => (readNat? base cs).map fun n => -(n : Int)
  | '+' :: cs => (readNat? base cs).map fun n => (n : Int)
  | cs => (readNat? base cs).map fun n => (n : Int)

end Strata.Text
