import Strata.Decimal.Numeral
import Strata.Text.Digit
import Strata.Text.Lowercase
import Strata.Text.Search
import Strata.Value.Basic
import Strata.Yaml.Error

/-!
# Values of scalars

What the text of a scalar is worth under each of the scalar tags.
-/

namespace Strata.Yaml.Scalar

/-- The text without underscores. -/
def withoutBars (text : String) : List Char :=
  text.toList.filter fun c => c != '_'

/-- The sign at the start of a number: whether it is a minus, and what follows. -/
def splitSign : List Char → Bool × List Char
  | '-' :: cs => (true, cs)
  | '+' :: cs => (false, cs)
  | cs => (false, cs)

/-- The integer that a text writes in a base. -/
def readInt (base : Nat) (cs : List Char) : Except Error Int :=
  match Text.readInt? base (String.ofList cs) with
  | some n => .ok n
  | none => .error (.integer base (String.ofList cs))

/-- The number that places in base sixty write, from the highest place on. -/
def sixtiesInt (value : Int) : List (List Char) → Except Error Int
  | [] => .ok value
  | part :: rest => do
    let n ← readInt 10 part
    sixtiesInt (value * 60 + n) rest

/-- An integer: binary after `0b`, hexadecimal after `0x`, octal after another zero, otherwise decimal
or, with colons, in base sixty. -/
def int (text : String) : Except Error Value :=
  let cs := withoutBars text
  if cs.isEmpty then .error .emptyNumber
  else
    let (negative, cs) := splitSign cs
    let signed (n : Int) : Value := .int (if negative then -n else n)
    match cs with
    | ['0'] => .ok (.int 0)
    | '0' :: 'b' :: ds => signed <$> readInt 2 ds
    | '0' :: 'x' :: ds => signed <$> readInt 16 ds
    | [] => .error .emptyNumber
    | '0' :: ds => signed <$> readInt 8 ('0' :: ds)
    | ds => if ds.contains ':' then signed <$> sixtiesInt 0 (Text.splitAt ':' ds)
      else signed <$> readInt 10 ds

/-- The double that a text writes. -/
def readFloat (cs : List Char) : Except Error Float :=
  match Decimal.read? ((Text.stripWhile Text.isPadding cs).map Text.asciiDigit) with
  | some x => .ok x
  | none => .error (.float (String.ofList cs))

/-- The sum of places in base sixty, from the lowest place on. -/
def sixtiesFloat (value base : Float) : List Float → Float
  | [] => value
  | x :: rest => sixtiesFloat (value + x * base) (base * 60) rest

/-- A double: one of the names of infinity and not-a-number, a decimal or, with colons, a number in base
sixty. -/
def float (text : String) : Except Error Value :=
  let cs := (String.ofList (withoutBars text) |> Text.lower).toList
  if cs.isEmpty then .error .emptyNumber
  else do
    let (negative, cs) := splitSign cs
    let signed (x : Float) : Value := .float (if negative then -x else x)
    if String.ofList cs = ".inf" then return signed (Float.ofBits 0x7FF0000000000000)
    else if String.ofList cs = ".nan" then return .float (Float.ofBits 0x7FF8000000000000)
    else if cs.contains ':' then
      let parts ← (Text.splitAt ':' cs).mapM readFloat
      return signed (sixtiesFloat 0.0 1.0 parts.reverse)
    else signed <$> readFloat cs

/-- A truth value by one of its names, in any case. -/
def bool (text : String) : Except Error Value :=
  let name := Text.lower text
  if ["yes", "true", "on"].contains name then .ok (.bool true)
  else if ["no", "false", "off"].contains name then .ok (.bool false)
  else .error (.bool name)

/-! ## Binary data -/

/-- The value of a digit of base 64. -/
def base64? (c : Char) : Option Nat :=
  if 'A' ≤ c ∧ c ≤ 'Z' then some (c.toNat - 'A'.toNat)
  else if 'a' ≤ c ∧ c ≤ 'z' then some (c.toNat - 'a'.toNat + 26)
  else if '0' ≤ c ∧ c ≤ '9' then some (c.toNat - '0'.toNat + 52)
  else if c = '+' then some 62
  else if c = '/' then some 63
  else none

/-- The bytes that digits of base 64 write. `place` is the place in a group of four, `carry` what is left
of the digit before, `pads` how many pads follow each other. Other characters do not count. The group
that pads complete is the last. -/
def base64Bytes (place carry pads : Nat) : List Char → Option (List UInt8)
  | [] => if place = 0 then some [] else none
  | c :: cs =>
    if c = '=' then
      if 2 ≤ place ∧ 4 ≤ place + (pads + 1) then some []
      else base64Bytes place carry (if 2 ≤ place then pads + 1 else pads) cs
    else match base64? c with
      | none => base64Bytes place carry pads cs
      | some d =>
        if place = 0 then base64Bytes 1 d 0 cs
        else if place = 1 then (base64Bytes 2 (d % 16) 0 cs).map (UInt8.ofNat (carry * 4 + d / 16) :: ·)
        else if place = 2 then (base64Bytes 3 (d % 4) 0 cs).map (UInt8.ofNat (carry * 16 + d / 4) :: ·)
        else (base64Bytes 0 0 0 cs).map (UInt8.ofNat (carry * 64 + d) :: ·)

/-- Binary data in base 64. -/
def binary (text : String) : Except Error Value :=
  if text.toList.all fun c => c.toNat < 0x80 then
    match base64Bytes 0 0 0 text.toList with
    | some bytes => .ok (.bytes bytes)
    | none => .error .malformed
  else .error .malformed

/-! ## Dates and times -/

/-- The number that decimal digits write. -/
def number (ds : List Char) : Nat :=
  ds.foldl (fun n d => n * 10 + (d.toNat - '0'.toNat)) 0

/-- At least `least` and at most `most` decimal digits at the start: their number and the rest. -/
def digits? (least most : Nat) (cs : List Char) : Option (Nat × List Char) :=
  let ds := (cs.takeWhile Char.isDigit).take most
  if least ≤ ds.length then some (number ds, cs.drop ds.length) else none

/-- The rest behind a character that must stand here. -/
def expect? (c : Char) : List Char → Option (List Char)
  | d :: cs => if d = c then some cs else none
  | [] => none

/-- The offset of a time's clock, as it is written: none, universal time, or hours and minutes. -/
def zone? (cs : List Char) : Option (Option Int) :=
  match cs.dropWhile fun c => c = ' ' || c = '\t' with
  | [] => if cs.isEmpty then some none else none
  | ['Z'] => some (some 0)
  | c :: rest =>
    if c = '-' ∨ c = '+' then do
      let (hours, rest) ← digits? 1 2 rest
      let (minutes, rest) ← match rest with
        | [] => some (0, [])
        | _ => (expect? ':' rest).bind (digits? 2 2)
      if rest.isEmpty then
        let seconds : Int := (hours * 60 + minutes) * 60
        some (some (if c = '-' then -seconds else seconds))
      else none
    else none

/-- A fraction of a second in microseconds; further digits are cut off. -/
def microseconds (ds : List Char) : Nat :=
  number ((ds ++ List.replicate 6 '0').take 6)

/-- The numbers of a date, or of a date and a time. -/
structure Parts where
  year : Nat
  month : Nat
  day : Nat
  time : Option (Nat × Nat × Nat × Nat × Option Int)

/-- The parts of a time of day with its offset. -/
def timeParts? (cs : List Char) : Option (Nat × Nat × Nat × Nat × Option Int) := do
  let (hour, cs) ← digits? 1 2 cs
  let (minute, cs) ← (expect? ':' cs).bind (digits? 2 2)
  let (second, cs) ← (expect? ':' cs).bind (digits? 2 2)
  let (fraction, cs) := match cs with
    | '.' :: rest => (rest.takeWhile Char.isDigit, rest.dropWhile Char.isDigit)
    | rest => ([], rest)
  let zone ← zone? cs
  return (hour, minute, second, microseconds fraction, zone)

/-- The parts of a date with an optional time, which follows a `T` or blanks. -/
def parts? (cs : List Char) : Option Parts := do
  let (year, cs) ← digits? 4 4 cs
  let (month, cs) ← (expect? '-' cs).bind (digits? 1 2)
  let (day, cs) ← (expect? '-' cs).bind (digits? 1 2)
  match cs with
  | [] => return ⟨year, month, day, none⟩
  | c :: rest =>
    if c = 'T' ∨ c = 't' then return ⟨year, month, day, some (← timeParts? rest)⟩
    else if c = ' ' ∨ c = '\t' then
      return ⟨year, month, day, some (← timeParts? (rest.dropWhile fun c => c = ' ' || c = '\t'))⟩
    else none

/-- A date or a time. -/
def timestamp (text : String) : Except Error Value :=
  let cs := text.toList
  let cs := if cs.getLast? = some '\n' then cs.dropLast else cs
  match parts? cs with
  | none => .error .timestamp
  | some ⟨year, month, day, none⟩ =>
    match Calendar.date year month day with
    | .ok d => .ok (.date d)
    | .error e => .error (.calendar e)
  | some ⟨year, month, day, some (hour, minute, second, micro, offset)⟩ =>
    match offset.filter fun o => 86400 ≤ o.natAbs with
    | some o => .error (.calendar (.offset o))
    | none =>
      match Calendar.dateTime year month day hour minute second micro offset with
      | .ok t => .ok (.dateTime t)
      | .error e => .error (.calendar e)

end Strata.Yaml.Scalar
