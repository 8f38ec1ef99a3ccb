import Strata.Proofs.Traversal
import Strata.Syntax.Parser

/-!
# Legible trees are read to their end

A tree is legible if the text of each of its nodes is UTF-8. A walk over a legible tree comes to its end, since it
meets no path that cannot be read.
-/

namespace Strata.Syntax.Node

theorem Legible.hasReadablePath {n : Node} (h : n.Legible) : n.HasReadablePath := by
  intro c hc
  have hchild : c ∈ n.children := List.mem_of_find?_eq_some hc
  exact (legible_iff.1 ((legible_iff.1 h).2 c hchild)).1

mutual

/-- A walk over a legible tree comes to legible nodes only. -/
theorem Legible.of_mem_visits : ∀ {n : Node}, n.Legible → ∀ m ∈ n.visits, m.Legible
  | mk kind named text span children, h, m, hm => by
    rw [visits_eq, List.mem_cons] at hm
    rcases hm with rfl | hm
    · exact h
    · split at hm
      · cases hm
      · exact AllLegible.of_mem_visits h.2 m hm

/-- The same for several trees. -/
theorem AllLegible.of_mem_visits : ∀ {ns : List Node}, AllLegible ns → ∀ m ∈ visitsOfAll ns, m.Legible
  | [], _, m, hm => by cases hm
  | n :: rest, h, m, hm => by
    rcases List.mem_append.1 hm with hm | hm
    · exact Legible.of_mem_visits h.1 m hm
    · exact AllLegible.of_mem_visits h.2 m hm

end

/-- A walk over a legible tree is not ended by a fault. -/
theorem Legible.walk_fault {root : Node} (h : root.Legible) : (walk root).fault = none := by
  obtain ⟨events, -, hwalk⟩ := walk_eq_of_readable fun n hn _ => (h.of_mem_visits n hn).hasReadablePath
  rw [hwalk]

end Strata.Syntax.Node
