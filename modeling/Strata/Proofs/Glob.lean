import Mathlib.Tactic
import Strata.Glob

/-!
# Globs: the matcher accepts exactly what the pattern stands for

`Glob.Matches` says part by part which texts a pattern stands for. The matcher sweeps over the text from the last
part to the first; after each part its list holds the verdict on every end of the text (`sweep_verdicts`).
-/

namespace Strata

/-- The parts stand for the text: a star for any characters, every other part for one that it admits. -/
inductive Glob.Matches : List GlobPart → List Char → Prop
  | nil : Matches [] []
  | star {parts : List GlobPart} {rest : List Char} (skipped : List Char) (h : Matches parts rest) :
      Matches (.star :: parts) (skipped ++ rest)
  | one {part : GlobPart} {parts : List GlobPart} {c : Char} {cs : List Char} (hpart : part ≠ .star)
      (hc : part.admits c = true) (h : Matches parts cs) : Matches (part :: parts) (c :: cs)

namespace Glob

theorem matches_nil_iff {cs : List Char} : Matches [] cs ↔ cs = [] := by
  constructor
  · intro h
    cases h
    rfl
  · rintro rfl
    exact .nil

/-- A star stands for nothing at all, or for one more character than before. -/
theorem matches_star_cons_iff {parts : List GlobPart} {c : Char} {cs : List Char} :
    Matches (.star :: parts) (c :: cs) ↔ Matches parts (c :: cs) ∨ Matches (.star :: parts) cs := by
  constructor
  · intro h
    generalize hcs : c :: cs = text at h
    cases h with
    | one hpart => exact absurd rfl hpart
    | star skipped h =>
      cases skipped with
      | nil => exact Or.inl h
      | cons d skipped =>
        rw [List.cons_append, List.cons.injEq] at hcs
        rw [hcs.2]
        exact Or.inr (.star skipped h)
  · rintro (h | h)
    · exact .star [] h
    · cases h with
      | one hpart => exact absurd rfl hpart
      | star skipped h => exact .star (c :: skipped) h

theorem matches_star_nil_iff {parts : List GlobPart} : Matches (.star :: parts) [] ↔ Matches parts [] := by
  constructor
  · intro h
    generalize hcs : ([] : List Char) = text at h
    cases h with
    | star skipped h =>
      obtain ⟨rfl, rfl⟩ := List.append_eq_nil_iff.1 hcs.symm
      exact h
    | one => cases hcs
  · exact .star []

theorem matches_one_cons_iff {part : GlobPart} {parts : List GlobPart} {c : Char} {cs : List Char}
    (hpart : part ≠ .star) :
    Matches (part :: parts) (c :: cs) ↔ part.admits c = true ∧ Matches parts cs := by
  constructor
  · intro h
    generalize hcs : c :: cs = text at h
    cases h with
    | star => exact absurd rfl hpart
    | one _ hc h =>
      cases hcs
      exact ⟨hc, h⟩
  · rintro ⟨hc, h⟩
    exact .one hpart hc h

theorem not_matches_one_nil {part : GlobPart} {parts : List GlobPart} (hpart : part ≠ .star) :
    ¬ Matches (part :: parts) [] := by
  intro h
  generalize hcs : ([] : List Char) = text at h
  cases h with
  | star => exact hpart rfl
  | one => cases hcs

/-! ## The sweeps -/

section Verdicts

open Classical

/-- For each end of the text, from the longest to the empty one, whether the parts stand for it. -/
noncomputable def verdicts (parts : List GlobPart) (text : List Char) : List Bool :=
  text.tails.map fun rest => decide (Matches parts rest)

theorem verdicts_nil (parts : List GlobPart) : verdicts parts [] = [decide (Matches parts [])] := by
  simp [verdicts]

theorem verdicts_cons (parts : List GlobPart) (c : Char) (cs : List Char) :
    verdicts parts (c :: cs) = decide (Matches parts (c :: cs)) :: verdicts parts cs := by
  simp [verdicts]

/-- The first verdict is the one on the whole text. -/
theorem verdicts_eq_cons (parts : List GlobPart) (text : List Char) :
    verdicts parts text = decide (Matches parts text) :: (verdicts parts text).tail := by
  cases text with
  | nil => rw [verdicts_nil, List.tail_cons]
  | cons c cs => rw [verdicts_cons, List.tail_cons]

/-- Before any part is looked at, only the empty end matches. -/
theorem verdicts_of_no_parts (text : List Char) :
    verdicts [] text = List.replicate text.length false ++ [true] := by
  induction text with
  | nil => simp [verdicts_nil, matches_nil_iff]
  | cons c cs ih => simp [verdicts_cons, matches_nil_iff, ih, List.replicate_succ]

/-- Some end of the text matches iff the whole text matches with a star in front. -/
theorem foldr_verdicts (parts : List GlobPart) (text : List Char) :
    (verdicts parts text).foldr (· || ·) false = true ↔ Matches (.star :: parts) text := by
  induction text with
  | nil => simp [verdicts_nil, matches_star_nil_iff]
  | cons c cs ih =>
    rw [verdicts_cons, List.foldr_cons, Bool.or_eq_true, ih, matches_star_cons_iff, decide_eq_true_eq]

theorem scanr_verdicts (parts : List GlobPart) (text : List Char) :
    (verdicts parts text).scanr (· || ·) false = verdicts (.star :: parts) text ++ [false] := by
  induction text with
  | nil => simp [verdicts_nil, matches_star_nil_iff]
  | cons c cs ih =>
    have hhead := foldr_verdicts parts (c :: cs)
    rw [verdicts_cons] at hhead ⊢
    rw [List.scanr_cons, ih, verdicts_cons, List.cons_append]
    congr 1
    rw [Bool.eq_iff_iff, hhead, decide_eq_true_eq]

/-- With a part for one character in front, the verdict on an end depends on its first character and on the
verdict on the next shorter end. -/
theorem zipWith_verdicts {part : GlobPart} (hpart : part ≠ .star) (parts : List GlobPart) (text : List Char) :
    text.zipWith (fun c rest => part.admits c && rest) (verdicts parts text).tail ++ [false] =
      verdicts (part :: parts) text := by
  induction text with
  | nil => simp [verdicts_nil, not_matches_one_nil hpart]
  | cons c cs ih =>
    rw [verdicts_cons, verdicts_cons, ← ih, List.tail_cons]
    nth_rewrite 1 [verdicts_eq_cons parts cs]
    rw [List.zipWith_cons_cons, List.cons_append]
    congr 1
    rw [Bool.eq_iff_iff, Bool.and_eq_true, decide_eq_true_eq, decide_eq_true_eq, matches_one_cons_iff hpart]

/-- A sweep over the verdicts of some parts gives the verdicts with one more part in front. -/
theorem sweep_verdicts (part : GlobPart) (parts : List GlobPart) (text : List Char) :
    part.sweep text (verdicts parts text) = verdicts (part :: parts) text := by
  cases part with
  | star => rw [GlobPart.sweep, scanr_verdicts, List.dropLast_concat]
  | any => exact zipWith_verdicts (by simp) parts text
  | exactly d => exact zipWith_verdicts (by simp) parts text
  | oneOf negated ranges => exact zipWith_verdicts (by simp) parts text

/-- The matcher accepts a text iff the pattern stands for it. -/
theorem accepts_iff {g : Glob} {text : String} : g.accepts text = true ↔ Matches g.parts text.toList := by
  have hsweeps : ∀ parts : List GlobPart,
      parts.foldr (fun part ends => part.sweep text.toList ends)
        (List.replicate text.toList.length false ++ [true]) = verdicts parts text.toList := by
    intro parts
    induction parts with
    | nil => rw [List.foldr_nil, verdicts_of_no_parts]
    | cons part parts ih => rw [List.foldr_cons, ih, sweep_verdicts]
  simp only [accepts]
  rw [hsweeps]
  cases text.toList with
  | nil => simp [verdicts_nil]
  | cons c cs => simp [verdicts_cons]

end Verdicts

theorem anyAccepts_iff {patterns : List String} {path : String} :
    anyAccepts patterns path = true ↔ ∃ p ∈ patterns, Matches (parse p).parts path.toList := by
  simp only [anyAccepts, List.any_eq_true, accepts_iff]

end Glob

end Strata
