/-!
# Shapes of texts

Regular shapes such as "digits, then a point, then digits", matched by taking the derivative of a shape
by one character after the other.
-/

namespace Strata.Text

/-- A regular set of texts. -/
inductive Shape where
  /-- No text. -/
  | never
  /-- The empty text. -/
  | nothing
  /-- One character of a class. -/
  | one (admits : Char → Bool)
  | seq (first second : Shape)
  | alt (left right : Shape)
  /-- Any number of times, also none. -/
  | many (body : Shape)

namespace Shape

/-- Is the empty text of the shape? -/
def nullable : Shape → Bool
  | .never => false
  | .nothing => true
  | .one _ => false
  | .seq a b => a.nullable && b.nullable
  | .alt a b => a.nullable || b.nullable
  | .many _ => true

/-- One shape after the other; a shape that nothing has is absorbed. -/
def andThen : Shape → Shape → Shape
  | .never, _ => .never
  | .nothing, b => b
  | a, b => .seq a b

/-- One shape or the other; a shape that nothing has is left out. -/
def or : Shape → Shape → Shape
  | .never, b => b
  | a, .never => a
  | a, b => .alt a b

/-- What may follow `c` in a text of the shape. -/
def after (c : Char) : Shape → Shape
  | .never => .never
  | .nothing => .never
  | .one admits => if admits c then .nothing else .never
  | .seq a b =>
    if a.nullable then ((a.after c).andThen b).or (b.after c) else (a.after c).andThen b
  | .alt a b => (a.after c).or (b.after c)
  | .many a => (a.after c).andThen (.many a)

/-- Is the text of the shape? -/
def admits (s : Shape) : List Char → Bool
  | [] => s.nullable
  | c :: cs => (s.after c).admits cs

/-- This character. -/
def char (c : Char) : Shape :=
  .one fun d => d == c

/-- One of these characters. -/
def anyOf (cs : String) : Shape :=
  .one fun d => cs.toList.contains d

/-- This text. -/
def word (s : String) : Shape :=
  s.toList.foldr (fun c rest => .seq (char c) rest) .nothing

/-- One of these texts. -/
def words (ss : List String) : Shape :=
  ss.foldr (fun s rest => .alt (word s) rest) .never

/-- Shapes one after the other. -/
def row (shapes : List Shape) : Shape :=
  shapes.foldr (fun s rest => .seq s rest) .nothing

/-- One of several shapes. -/
def oneOf (shapes : List Shape) : Shape :=
  shapes.foldr (fun s rest => .alt s rest) .never

/-- The shape or nothing. -/
def optional (s : Shape) : Shape :=
  .alt s .nothing

/-- At least once. -/
def some (s : Shape) : Shape :=
  .seq s (.many s)

end Shape

end Strata.Text
