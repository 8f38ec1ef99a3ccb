import Strata.Kotlin.Outline
import Strata.Syntax.Parser

/-!
# The parser of Kotlin sources

The parser gives a source its outline. The nodes of an outline have no text but for the paths, and a path has a piece
of the source, so outlines are legible.
-/

namespace Strata.Kotlin

open Syntax (Node)

theorem isValidUTF8_empty : ByteArray.empty.IsValidUTF8 :=
  "".isValidUTF8

theorem legible_pathNode (source : List Char) (path : List Token) : ∀ n ∈ pathNode source path, n.Legible := by
  intro n hn
  unfold pathNode at hn
  split at hn
  · rw [List.mem_singleton.1 hn]
    exact ⟨String.isValidUTF8 _, trivial⟩
  · cases hn

theorem legible_header (kind : String) (source : List Char) (keyword : Token) (path tail : List Token) :
    (header kind source keyword path tail).1.Legible :=
  Node.legible_iff.2 ⟨isValidUTF8_empty, legible_pathNode source path⟩

theorem legible_importHeader (source : List Char) (keyword : Token) (ts : List Token) :
    (importHeader source keyword ts).1.Legible := by
  simp only [importHeader]
  split
  · exact legible_header ..
  · exact legible_header ..

theorem legible_entriesFrom (source : List Char) (skip : Nat) (p : Place) (ts : List Token) :
    ∀ n ∈ entriesFrom source skip p ts, n.Legible := by
  fun_induction entriesFrom source skip p ts with
  | case1 => simp
  | case2 p t ts skip ih => exact ih
  | case3 p t ts hpackage node length hheader ih =>
    refine List.forall_mem_cons.2 ⟨?_, ih⟩
    have hlegible : (packageHeader source t ts).1.Legible := legible_header ..
    rwa [hheader] at hlegible
  | case4 p t ts hpackage himport node length hheader ih =>
    refine List.forall_mem_cons.2 ⟨?_, ih⟩
    have hlegible := legible_importHeader source t ts
    rwa [hheader] at hlegible
  | case5 p t ts hpackage himport hthrow ih =>
    refine List.forall_mem_cons.2 ⟨?_, ih⟩
    exact ⟨isValidUTF8_empty, trivial⟩
  | case6 p t ts hpackage himport hthrow ih => exact ih

theorem legible_nest {n : Node} (hn : n.Legible) {following : List Node} (h : ∀ m ∈ following, m.Legible) :
    ∀ m ∈ nest n following, m.Legible := by
  refine List.forall_mem_cons.2 ⟨?_, fun m hm => h m ((List.dropWhile_sublist _).mem hm)⟩
  refine Node.legible_iff.2 ⟨(Node.legible_iff.1 hn).1, fun m hm => ?_⟩
  rcases List.mem_append.1 hm with hm | hm
  · exact (Node.legible_iff.1 hn).2 m hm
  · exact h m ((List.takeWhile_sublist _).mem hm)

/-- The texts of an outline are UTF-8. -/
theorem legible_outline (source : String) : (outline source).Legible := by
  have hnested : ∀ entries : List Node, (∀ n ∈ entries, n.Legible) →
      ∀ n ∈ entries.foldr nest [], n.Legible := by
    intro entries
    induction entries with
    | nil => simp
    | cons n rest ih =>
      intro h
      rw [List.foldr_cons]
      exact legible_nest (h n List.mem_cons_self) (ih fun m hm => h m (List.mem_cons_of_mem n hm))
  exact Node.legible_iff.2 ⟨isValidUTF8_empty, hnested _ (legible_entriesFrom _ _ _ _)⟩

instance : Parser where
  tree := outline
  legible := legible_outline

end Strata.Kotlin
