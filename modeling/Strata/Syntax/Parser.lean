import Strata.Syntax.Node

/-!
# Parsers

A parser gives every text a tree. The tree is legible: the text of each of its nodes is UTF-8, as pieces of a text
are. Nothing else is asked of a parser here.
-/

namespace Strata

namespace Syntax.Node

mutual

/-- The text of every node of the tree is UTF-8. -/
def Legible : Node → Prop
  | mk _ _ text _ children => text.IsValidUTF8 ∧ AllLegible children

/-- The text of every node of the trees is UTF-8. -/
def AllLegible : List Node → Prop
  | [] => True
  | n :: rest => n.Legible ∧ AllLegible rest

end

theorem allLegible_iff {ns : List Node} : AllLegible ns ↔ ∀ n ∈ ns, n.Legible := by
  induction ns with
  | nil => simp [AllLegible]
  | cons n rest ih => rw [AllLegible, ih, List.forall_mem_cons]

theorem legible_iff {n : Node} : n.Legible ↔ n.text.IsValidUTF8 ∧ ∀ c ∈ n.children, c.Legible := by
  cases n
  rw [Legible, allLegible_iff]
  rfl

end Syntax.Node

/-- A parser of sources. -/
class Parser where
  tree : String → Syntax.Node
  legible : ∀ text, (tree text).Legible

end Strata
