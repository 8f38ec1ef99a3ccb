import Mathlib.Data.List.TakeWhile
import Mathlib.Tactic
import Strata.Text.Blank

/-!
# Trimmed texts

What is taken off the end of a text are characters of one kind, and what is left does not end with one
(`dropEndWhile_append_of_getLast?`). The text that is left of a text without the blanks around it is `IsTrimOf`.
-/

namespace Strata.Text

variable {p : Char → Bool}

/-! ## The end of a text -/

theorem exists_dropEndWhile (p : Char → Bool) (cs : List Char) :
    ∃ back, cs = dropEndWhile p cs ++ back ∧ ∀ c ∈ back, p c = true := by
  refine ⟨(cs.reverse.takeWhile p).reverse, ?_, ?_⟩
  · rw [dropEndWhile, ← List.reverse_append, List.takeWhile_append_dropWhile, List.reverse_reverse]
  · intro c hc
    exact List.mem_takeWhile_imp (List.mem_reverse.mp hc)

theorem head?_dropWhile (p : Char → Bool) (cs : List Char) : ∀ c ∈ (cs.dropWhile p).head?, p c = false := by
  intro c hc
  have hhead := List.head?_dropWhile_not p cs
  rw [hc] at hhead
  simpa using hhead

theorem getLast?_dropEndWhile (p : Char → Bool) (cs : List Char) : ∀ c ∈ (dropEndWhile p cs).getLast?, p c = false := by
  rw [dropEndWhile, List.getLast?_reverse]
  exact head?_dropWhile p cs.reverse

theorem dropEndWhile_append (p : Char → Bool) (cs ds : List Char) :
    dropEndWhile p (cs ++ ds) = if ds.all p then dropEndWhile p cs else cs ++ dropEndWhile p ds := by
  have hempty : (ds.reverse.dropWhile p).isEmpty = ds.all p := by
    rw [Bool.eq_iff_iff, List.isEmpty_iff, List.dropWhile_eq_nil_iff, List.all_eq_true]
    simp only [List.mem_reverse]
  rw [dropEndWhile, List.reverse_append, List.dropWhile_append, hempty]
  split
  · rfl
  · rw [List.reverse_append, List.reverse_reverse, dropEndWhile]

theorem dropWhile_append_of_head? {front rest : List Char} (hfront : ∀ c ∈ front, p c = true)
    (hrest : ∀ c ∈ rest.head?, p c = false) : (front ++ rest).dropWhile p = rest := by
  rw [List.dropWhile_append_of_pos hfront]
  cases rest with
  | nil => rfl
  | cons c rest => exact List.dropWhile_cons_of_neg (by simpa using hrest c rfl)

theorem dropEndWhile_append_of_getLast? {front back : List Char} (hback : ∀ c ∈ back, p c = true)
    (hends : ∀ c ∈ front.getLast?, p c = false) : dropEndWhile p (front ++ back) = front := by
  rw [dropEndWhile, List.reverse_append, dropWhile_append_of_head?, List.reverse_reverse]
  · exact fun c hc => hback c (List.mem_reverse.mp hc)
  · rwa [List.head?_reverse]

/-! ## Both ends -/

theorem stripWhile_eq {front middle back : List Char} (hfront : ∀ c ∈ front, p c = true)
    (hback : ∀ c ∈ back, p c = true) (hbegins : ∀ c ∈ middle.head?, p c = false)
    (hends : ∀ c ∈ middle.getLast?, p c = false) : stripWhile p (front ++ middle ++ back) = middle := by
  rw [stripWhile]
  cases middle with
  | nil =>
    have hall : ∀ c ∈ front ++ [] ++ back, p c = true := by
      intro c hc
      rw [List.append_nil] at hc
      rcases List.mem_append.mp hc with hc | hc
      · exact hfront c hc
      · exact hback c hc
    rw [List.dropWhile_eq_nil_iff.mpr hall]
    rfl
  | cons c cs =>
    have hfirst : ((front ++ (c :: cs)) ++ back).dropWhile p = (c :: cs) ++ back := by
      rw [List.append_assoc]
      exact dropWhile_append_of_head? hfront fun d hd => hbegins d hd
    rw [hfirst, dropEndWhile_append_of_getLast? hback hends]

/-- `trimmed` is what is left of `s` without the blanks around it: it neither begins nor ends with a blank. -/
structure IsTrimOf (s trimmed : String) : Prop where
  parts : ∃ front back, s.toList = front ++ trimmed.toList ++ back ∧ (∀ c ∈ front, isBlank c = true) ∧
    ∀ c ∈ back, isBlank c = true
  begins : ∀ c ∈ trimmed.toList.head?, isBlank c = false
  ends : ∀ c ∈ trimmed.toList.getLast?, isBlank c = false

/-- Trimming leaves the only text that is left of a text without the blanks around it. -/
theorem isTrimOf_iff {s trimmed : String} : IsTrimOf s trimmed ↔ trim s = trimmed := by
  constructor
  · rintro ⟨⟨front, back, hs, hfront, hback⟩, hbegins, hends⟩
    rw [trim, hs, stripWhile_eq hfront hback hbegins hends, String.ofList_toList]
  · rintro rfl
    obtain ⟨back, hparts, hback⟩ := exists_dropEndWhile isBlank (s.toList.dropWhile isBlank)
    have hrest : s.toList.dropWhile isBlank = stripWhile isBlank s.toList ++ back := hparts
    refine ⟨⟨s.toList.takeWhile isBlank, back, ?_, ?_, hback⟩, ?_, ?_⟩
    · rw [trim, String.toList_ofList, List.append_assoc, ← hrest, List.takeWhile_append_dropWhile]
    · intro c hc
      exact List.mem_takeWhile_imp hc
    · intro c hc
      rw [trim, String.toList_ofList] at hc
      refine head?_dropWhile isBlank s.toList c ?_
      rw [hrest, List.head?_append, hc]
      rfl
    · rw [trim, String.toList_ofList]
      exact getLast?_dropEndWhile isBlank _

/-- Nothing is left of a text iff it is all blank. -/
theorem trim_eq_empty_iff {s : String} : trim s = "" ↔ ∀ c ∈ s.toList, isBlank c = true := by
  rw [← isTrimOf_iff]
  constructor
  · rintro ⟨⟨front, back, hs, hfront, hback⟩, -, -⟩ c hc
    rw [hs, String.toList_empty, List.append_nil] at hc
    rcases List.mem_append.mp hc with hc | hc
    · exact hfront c hc
    · exact hback c hc
  · intro hall
    exact ⟨⟨s.toList, [], by simp, hall, by simp⟩, by simp, by simp⟩

end Strata.Text
