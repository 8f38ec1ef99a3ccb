import Mathlib.Tactic
import Strata.Proofs.Trimming
import Strata.Text.Escape

/-!
# Texts without escape sequences

An escape sequence is an escape character, a bracket, parameters and a letter (`IsEscape`). Sequences are deleted from
left to right: where one begins it is left out, and else a character is kept (`WithoutEscapes`). The deletion leaves
exactly that (`withoutEscapes_iff`), and it leaves a text as it is iff the text holds no sequence
(`deleteEscapes_eq_self_iff`).

Deleting a sequence may put a new one together from what stands around it, and that one stays.
-/

namespace Strata.Text

/-- An escape sequence. -/
inductive IsEscape : List Char → Prop where
  | mk {parameters : List Char} {letter : Char} (hparameters : ∀ c ∈ parameters, isParameter c = true)
      (hletter : letter.isAlpha = true) : IsEscape ('\x1b' :: '[' :: (parameters ++ [letter]))

/-- The second text is the first one without its escape sequences. -/
inductive WithoutEscapes : List Char → List Char → Prop where
  | nil : WithoutEscapes [] []
  | escape {e cs kept : List Char} (he : IsEscape e) (h : WithoutEscapes cs kept) : WithoutEscapes (e ++ cs) kept
  | keep {c : Char} {cs kept : List Char} (hnone : ∀ e, IsEscape e → ¬ e <+: c :: cs) (h : WithoutEscapes cs kept) :
      WithoutEscapes (c :: cs) (c :: kept)

/-- There is an escape sequence in the text. -/
def HoldsEscape (s : String) : Prop :=
  ∃ e, IsEscape e ∧ e <:+: s.toList

/-! ## Escape sequences at the start of a text -/

theorem IsEscape.ne_nil {e : List Char} (h : IsEscape e) : e ≠ [] := by
  cases h
  exact List.cons_ne_nil _ _

theorem IsEscape.escape_mem {e : List Char} (h : IsEscape e) : '\x1b' ∈ e := by
  cases h
  exact List.mem_cons_self

theorem IsEscape.newline_notMem {e : List Char} (h : IsEscape e) : '\n' ∉ e := by
  cases h with
  | @mk parameters letter hparameters hletter =>
    have hparameter : '\n' ∉ parameters := fun hmem => nomatch hparameters '\n' hmem
    have hne : '\n' ≠ letter := by
      rintro rfl
      cases hletter
    simp [hparameter, hne]

theorem toNat_of_isAlpha {c : Char} (h : c.isAlpha = true) : 65 ≤ c.toNat := by
  have hcases : c.isUpper = true ∨ c.isLower = true := Bool.or_eq_true_iff.mp h
  rcases hcases with hupper | hlower
  · exact (of_decide_eq_true hupper).1
  · have hlow : 97 ≤ c.toNat := of_decide_eq_true (Bool.and_eq_true_iff.mp hlower).1
    omega

/-- A letter ends the parameters. -/
theorem isParameter_of_isAlpha {c : Char} (h : c.isAlpha = true) : isParameter c = false := by
  rw [← Bool.not_eq_true]
  intro hparameter
  simp only [isParameter, Bool.or_eq_true, decide_eq_true_eq] at hparameter
  rcases hparameter with (hdigit | rfl) | rfl
  · have hlow := toNat_of_isAlpha h
    have hhigh : c.toNat ≤ 57 := of_decide_eq_true (Bool.and_eq_true_iff.mp hdigit).2
    omega
  · cases h
  · cases h

theorem escapeLength_append {e : List Char} (h : IsEscape e) (rest : List Char) :
    escapeLength (e ++ rest) = e.length := by
  cases h with
  | @mk parameters letter hparameters hletter =>
    have hend : ∀ c ∈ (letter :: rest).head?, isParameter c = false := by
      rintro c ⟨⟩
      exact isParameter_of_isAlpha hletter
    have hdrop : (parameters ++ letter :: rest).dropWhile isParameter = letter :: rest :=
      dropWhile_append_of_head? hparameters hend
    have htake : (parameters ++ letter :: rest).takeWhile isParameter = parameters := by
      rw [List.takeWhile_append_of_pos hparameters, List.takeWhile_cons_of_neg (by simpa using hend letter rfl),
        List.append_nil]
    have hcons : '\x1b' :: '[' :: (parameters ++ [letter]) ++ rest =
        '\x1b' :: '[' :: (parameters ++ letter :: rest) := by simp
    rw [hcons, escapeLength, hdrop, htake]
    simp [hletter]

theorem exists_of_escapeLength {cs : List Char} (h : escapeLength cs ≠ 0) : ∃ e rest, IsEscape e ∧ cs = e ++ rest := by
  unfold escapeLength at h
  split at h
  · next cs =>
    have hparts := List.takeWhile_append_dropWhile (p := isParameter) (l := cs)
    split at h
    · next letter rest hrest =>
      split at h
      · next hletter =>
        have hescape : IsEscape ('\x1b' :: '[' :: (cs.takeWhile isParameter ++ [letter])) :=
          .mk (fun c hc => List.mem_takeWhile_imp hc) hletter
        rw [hrest] at hparts
        exact ⟨_, rest, hescape, by simpa using hparts.symm⟩
      · exact absurd rfl h
    · exact absurd rfl h
  · exact absurd rfl h

theorem escapeLength_eq_zero {cs : List Char} (h : ∀ e, IsEscape e → ¬ e <+: cs) : escapeLength cs = 0 := by
  by_contra hlength
  obtain ⟨e, rest, he, rfl⟩ := exists_of_escapeLength hlength
  exact h e he (List.prefix_append e rest)

theorem HoldsEscape.ne_empty {s : String} (h : HoldsEscape s) : s ≠ "" := by
  rintro rfl
  obtain ⟨e, he, hpart⟩ := h
  exact he.ne_nil (List.infix_nil.mp hpart)

/-! ## Deletion -/

theorem deleteEscapesFrom_eq_drop (skip : Nat) (cs : List Char) :
    deleteEscapesFrom skip cs = deleteEscapesFrom 0 (cs.drop skip) := by
  induction cs generalizing skip with
  | nil => simp [deleteEscapesFrom]
  | cons c cs ih =>
    cases skip with
    | zero => rfl
    | succ skip => rw [deleteEscapesFrom, ih, List.drop_succ_cons]

theorem deleteEscapesFrom_append {e : List Char} (h : IsEscape e) (rest : List Char) :
    deleteEscapesFrom 0 (e ++ rest) = deleteEscapesFrom 0 rest := by
  have hlength := escapeLength_append h rest
  obtain ⟨c, tail, rfl⟩ := List.exists_cons_of_ne_nil h.ne_nil
  rw [List.cons_append] at hlength ⊢
  rw [deleteEscapesFrom, hlength, List.length_cons]
  simp only
  rw [deleteEscapesFrom_eq_drop, List.drop_left]

theorem deleteEscapesFrom_cons {c : Char} {cs : List Char} (h : ∀ e, IsEscape e → ¬ e <+: c :: cs) :
    deleteEscapesFrom 0 (c :: cs) = c :: deleteEscapesFrom 0 cs := by
  rw [deleteEscapesFrom, escapeLength_eq_zero h]

theorem withoutEscapes_deleteEscapesFrom (cs : List Char) : WithoutEscapes cs (deleteEscapesFrom 0 cs) := by
  -- a sequence is left out at once, so the induction is on the length
  induction hlength : cs.length using Nat.strong_induction_on generalizing cs with
  | h length ih =>
    by_cases hescape : ∃ e, IsEscape e ∧ e <+: cs
    · obtain ⟨e, he, rest, rfl⟩ := hescape
      rw [deleteEscapesFrom_append he]
      have hpos := List.length_pos_iff.mpr he.ne_nil
      rw [List.length_append] at hlength
      exact .escape he (ih _ (by omega) rest rfl)
    · cases cs with
      | nil => exact .nil
      | cons c cs =>
        have hnone : ∀ e, IsEscape e → ¬ e <+: c :: cs := fun e he hprefix => hescape ⟨e, he, hprefix⟩
        rw [deleteEscapesFrom_cons hnone]
        rw [List.length_cons] at hlength
        exact .keep hnone (ih _ (by omega) cs rfl)

/-- What is left after the deletion is the only text without the escape sequences. -/
theorem withoutEscapes_iff {s t : String} : WithoutEscapes s.toList t.toList ↔ deleteEscapes s = t := by
  have hunique : ∀ {cs kept : List Char}, WithoutEscapes cs kept → deleteEscapesFrom 0 cs = kept := by
    intro cs kept h
    induction h with
    | nil => rfl
    | escape he _ ih => rw [deleteEscapesFrom_append he, ih]
    | keep hnone _ ih => rw [deleteEscapesFrom_cons hnone, ih]
  constructor
  · intro h
    rw [deleteEscapes, hunique h, String.ofList_toList]
  · rintro rfl
    rw [deleteEscapes, String.toList_ofList]
    exact withoutEscapes_deleteEscapesFrom s.toList

theorem WithoutEscapes.length_le {cs kept : List Char} (h : WithoutEscapes cs kept) : kept.length ≤ cs.length := by
  induction h with
  | nil => exact le_rfl
  | escape _ _ ih =>
    rw [List.length_append]
    omega
  | keep _ _ ih =>
    rw [List.length_cons, List.length_cons]
    omega

theorem WithoutEscapes.length_lt {cs kept : List Char} (h : WithoutEscapes cs kept)
    (hholds : ∃ e, IsEscape e ∧ e <:+: cs) : kept.length < cs.length := by
  induction h with
  | nil =>
    obtain ⟨e, he, hpart⟩ := hholds
    exact absurd (List.infix_nil.mp hpart) he.ne_nil
  | @escape e cs kept he h ih =>
    have hpos := List.length_pos_iff.mpr he.ne_nil
    have hle := h.length_le
    rw [List.length_append]
    omega
  | keep hnone _ ih =>
    obtain ⟨e, he, hpart⟩ := hholds
    have hrest := ih ⟨e, he, (List.infix_cons_iff.mp hpart).resolve_left (hnone e he)⟩
    rw [List.length_cons, List.length_cons]
    omega

theorem deleteEscapes_eq_self_iff {s : String} : deleteEscapes s = s ↔ ¬ HoldsEscape s := by
  constructor
  · intro h hholds
    exact absurd ((withoutEscapes_iff.mpr h).length_lt hholds) (lt_irrefl _)
  · intro h
    have hself : ∀ cs : List Char, (∀ e, IsEscape e → ¬ e <:+: cs) → WithoutEscapes cs cs := by
      intro cs
      induction cs with
      | nil => exact fun _ => .nil
      | cons c cs ih =>
        intro hnone
        refine .keep (fun e he hprefix => hnone e he hprefix.isInfix) (ih fun e he hpart => ?_)
        exact hnone e he (hpart.trans (List.suffix_cons c cs).isInfix)
    exact withoutEscapes_iff.mp (hself s.toList fun e he hpart => h ⟨e, he, hpart⟩)

/-- A line end behind a text does not end an escape sequence that the text leaves open. -/
theorem WithoutEscapes.append_newline {cs kept : List Char} (h : WithoutEscapes cs kept) :
    WithoutEscapes (cs ++ ['\n']) (kept ++ ['\n']) := by
  have hopen : ∀ {cs : List Char}, (∀ e, IsEscape e → ¬ e <+: cs) → ∀ e, IsEscape e → ¬ e <+: cs ++ ['\n'] := by
    intro cs hnone e he hprefix
    rcases List.prefix_concat_iff.mp hprefix with rfl | hprefix
    · exact he.newline_notMem (by simp)
    · exact hnone e he hprefix
  induction h with
  | nil => exact .keep (hopen fun e he hprefix => he.ne_nil (List.prefix_nil.mp hprefix)) .nil
  | escape he _ ih =>
    rw [List.append_assoc]
    exact .escape he ih
  | keep hnone _ ih => exact .keep (hopen hnone) ih

theorem deleteEscapes_append_newline (s : String) : deleteEscapes (s ++ "\n") = deleteEscapes s ++ "\n" := by
  have h : WithoutEscapes s.toList (deleteEscapes s).toList := withoutEscapes_iff.mpr rfl
  refine withoutEscapes_iff.mp ?_
  rw [String.toList_append, String.toList_append]
  exact h.append_newline

/-- A sequence is put together from the characters around another one. -/
example : deleteEscapes "\x1b[3\x1b[0m1mB" = "\x1b[31mB" := by
  decide

end Strata.Text
