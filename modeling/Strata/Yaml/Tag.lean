import Strata.Text.Shape

/-!
# Tags

A tag says what a node stands for. A plain scalar without a tag has the one that its shape implies.
-/

namespace Strata.Yaml

open Strata.Text (Shape)

/-- The tags of data documents, and all others. -/
inductive Tag where
  | null
  | bool
  | int
  | float
  | timestamp
  | string
  | binary
  | sequence
  | mapping
  | set
  | orderedMapping
  | pairs
  /-- The key that merges other mappings into a mapping. -/
  | merge
  /-- The key of a mapping's default value. -/
  | defaultValue
  | other
  deriving Repr, DecidableEq, Inhabited

/-- The stem of the tags of data documents. -/
def dataStem : String :=
  "tag:yaml.org,2002:"

/-- The names of the tags behind the stem. -/
def dataNames : List (String × Tag) :=
  [("null", .null), ("bool", .bool), ("int", .int), ("float", .float), ("timestamp", .timestamp),
    ("str", .string), ("binary", .binary), ("seq", .sequence), ("map", .mapping), ("set", .set),
    ("omap", .orderedMapping), ("pairs", .pairs), ("merge", .merge), ("value", .defaultValue)]

/-- The tag with that full name. -/
def Tag.ofText (text : String) : Tag :=
  match dataNames.find? fun e => dataStem ++ e.1 == text with
  | some e => e.2
  | none => .other

/-! ## Shapes of plain scalars -/

/-- One decimal digit. -/
def digit : Shape := .one Char.isDigit

/-- Digits and underscores, also none. -/
def digitsOrBars : Shape := .many (.one fun c => c.isDigit || c == '_')

/-- A sign or nothing. -/
def sign : Shape := .optional (.anyOf "-+")

/-- Further places of a number in base sixty. -/
def sixties : Shape := .some (.row [.char ':', .optional (.one fun c => '0' ≤ c && c ≤ '5'), digit])

/-- An exponent; its sign is not optional. -/
def exponent : Shape := .row [.anyOf "eE", .anyOf "-+", .some digit]

def boolShape : Shape :=
  .words ["yes", "Yes", "YES", "no", "No", "NO", "true", "True", "TRUE", "false", "False", "FALSE",
    "on", "On", "ON", "off", "Off", "OFF"]

def floatShape : Shape :=
  .oneOf [
    .row [sign, digit, digitsOrBars, .char '.', digitsOrBars, .optional exponent],
    .row [.char '.', digit, digitsOrBars, .optional exponent],
    .row [sign, digit, digitsOrBars, sixties, .char '.', digitsOrBars],
    .row [sign, .char '.', .words ["inf", "Inf", "INF"]],
    .row [.char '.', .words ["nan", "NaN", "NAN"]]]

def intShape : Shape :=
  .oneOf [
    .row [sign, .word "0b", .some (.anyOf "01_")],
    .row [sign, .char '0', .some (.anyOf "01234567_")],
    .row [sign, .char '0'],
    .row [sign, .one fun c => '1' ≤ c && c ≤ '9', digitsOrBars],
    .row [sign, .word "0x", .some (.anyOf "0123456789abcdefABCDEF_")],
    .row [sign, .one fun c => '1' ≤ c && c ≤ '9', digitsOrBars, sixties]]

def nullShape : Shape :=
  .words ["~", "null", "Null", "NULL"]

/-- Blanks between a date and its time. -/
def blanks : Shape := .many (.anyOf " \t")

/-- One digit or two. -/
def oneOrTwo : Shape := .row [digit, .optional digit]

def timestampShape : Shape :=
  .oneOf [
    .row [digit, digit, digit, digit, .char '-', digit, digit, .char '-', digit, digit],
    .row [digit, digit, digit, digit, .char '-', oneOrTwo, .char '-', oneOrTwo,
      .oneOf [.anyOf "Tt", .row [.anyOf " \t", blanks]],
      oneOrTwo, .char ':', digit, digit, .char ':', digit, digit,
      .optional (.row [.char '.', .many digit]),
      .optional (.row [blanks, .oneOf [.char 'Z',
        .row [.anyOf "-+", oneOrTwo, .optional (.row [.char ':', digit, digit])]]])]]

/-- The shapes that imply a tag, in the order in which they are tried. -/
def shapes : List (Shape × Tag) :=
  [(boolShape, .bool), (floatShape, .float), (intShape, .int), (.word "<<", .merge), (nullShape, .null),
    (timestampShape, .timestamp), (.word "=", .defaultValue)]

/-- The tag that the text of a plain scalar implies. A line feed at its end does not count. -/
def Tag.implied (text : String) : Tag :=
  let cs := text.toList
  let cs := if cs.getLast? = some '\n' then cs.dropLast else cs
  if text = "" then .null
  else match shapes.find? fun s => s.1.admits cs with
    | some s => s.2
    | none => .string

end Strata.Yaml
