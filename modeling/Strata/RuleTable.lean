import Strata.RuleSet
import Strata.Text.Wrap

/-!
# The table of rules

The rules and how they are set, in a table of 80 cells. A description that does not fit its column goes on in
the next line.
-/

namespace Strata.RuleTable

/-- The columns with the cells of their content. -/
def columns : List (String × Nat) :=
  [("Rule", 26), ("Active", 6), ("Severity", 8), ("Description", 27)]

/-- The cells of the whole table: each column has a blank on both sides, and lines stand around them. -/
def width : Nat :=
  columns.foldr (fun c cells => c.2 + 3 + cells) 1

/-- The characters with which a line of the table is drawn. -/
structure Border where
  left : String
  fill : String
  between : String
  right : String

/-- A line that separates rows. -/
def separator (b : Border) : String :=
  let parts := columns.map fun c => String.join (List.replicate (c.2 + 2) b.fill)
  b.left ++ String.intercalate b.between parts ++ b.right

/-- A text with blanks up to `size` cells. -/
def pad (size : Nat) (s : String) : String :=
  s ++ String.ofList (List.replicate (size - Text.cells s.toList) ' ')

/-- One line of a row, drawn with the given upright line. -/
def rowLine (upright : String) (cells : List String) : String :=
  let parts := (columns.zip cells).map fun c => " " ++ pad c.1.2 c.2 ++ " "
  upright ++ String.intercalate upright parts ++ upright

/-- The lines of a row. -/
def row (upright : String) (cells : List String) : List String :=
  let wrapped := (columns.zip cells).map fun c => Text.wrap c.1.2 c.2
  let height := (wrapped.map List.length).foldl max 0
  (List.range height).map fun k => rowLine upright (wrapped.map fun lines => lines.getD k "")

/-- The cells of a rule. -/
def cellsOf (r : Rule) : List String :=
  [r.name, if r.settings.active then "yes" else "no", r.settings.severity.name, r.check.description]

/-- The title in the middle of a line. -/
def title : String :=
  let free := width - Text.cells Settings.ruleSetName.toList
  pad width (String.ofList (List.replicate (free / 2) ' ') ++ Settings.ruleSetName)

/-- The lines of the table. -/
def lines (rules : List Rule) : List String :=
  [title, separator ⟨"┏", "━", "┳", "┓"⟩] ++ row "┃" (columns.map Prod.fst) ++
    [separator ⟨"┡", "━", "╇", "┩"⟩] ++ rules.flatMap (fun r => row "│" (cellsOf r)) ++
    [separator ⟨"└", "─", "┴", "┘"⟩]

/-- The table. -/
def text (rules : List Rule) : String :=
  String.join ((lines rules).map fun line => line ++ "\n")

end Strata.RuleTable
