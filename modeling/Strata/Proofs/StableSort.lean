import Mathlib.Data.List.Lex
import Mathlib.Data.String.Basic
import Strata.Text.Search

/-!
# Sorting by a key

Merge sort is stable: the elements with one key keep their order. Two consequences carry the proofs about the
order of findings. A sorted list is determined by what it holds of each key, and a list made of blocks, each with
a key of its own, is sorted by sorting the blocks.
-/

namespace Strata

theorem Text.lexLE_iff {a b : String} : Text.lexLE a b = true ↔ a ≤ b := by
  rw [Text.lexLE, Bool.not_eq_true', decide_eq_false_iff_not, not_lt]

namespace StableSort

variable {α κ : Type} [LinearOrder κ] {key : α → κ} {le : α → α → Bool}

/-- A test that compares keys is transitive. -/
theorem test_trans (hle : ∀ a b, le a b = true ↔ key a ≤ key b) (a b c : α) (hab : le a b = true)
    (hbc : le b c = true) : le a c = true :=
  (hle a c).2 (le_trans ((hle a b).1 hab) ((hle b c).1 hbc))

/-- A test that compares keys is total. -/
theorem test_total (hle : ∀ a b, le a b = true ↔ key a ≤ key b) (a b : α) : (le a b || le b a) = true := by
  rw [Bool.or_eq_true, hle, hle]
  exact le_total (key a) (key b)

/-- What comes out of sorting by a key is in the order of the keys. -/
theorem pairwise_mergeSort (hle : ∀ a b, le a b = true ↔ key a ≤ key b) (l : List α) :
    (l.mergeSort le).Pairwise fun a b => key a ≤ key b := by
  have hsorted := List.pairwise_mergeSort (test_trans hle) (test_total hle) l
  exact hsorted.imp fun {a b} hab => (hle a b).1 hab

/-- Sorting by a key keeps the elements with one key in their order. -/
theorem filter_mergeSort (hle : ∀ a b, le a b = true ↔ key a ≤ key b) (l : List α) (k : κ) :
    (l.mergeSort le).filter (fun a => key a = k) = l.filter fun a => key a = k := by
  -- the elements with one key are sorted already, so they are left as a sublist, and none is missing
  have hsorted : (l.filter fun a => key a = k).Pairwise fun a b => le a b = true := by
    refine List.pairwise_of_forall_mem_list fun a ha b hb => ?_
    have hka : key a = k := by simpa using (List.mem_filter.1 ha).2
    have hkb : key b = k := by simpa using (List.mem_filter.1 hb).2
    rw [hle, hka, hkb]
  have hsub := List.sublist_mergeSort (test_trans hle) (test_total hle) hsorted List.filter_sublist
  have hsub := hsub.filter fun a => key a = k
  rw [List.filter_filter] at hsub
  simp only [Bool.and_self] at hsub
  have hperm := (List.mergeSort_perm l le).filter fun a => key a = k
  exact (hsub.eq_of_length hperm.length_eq.symm).symm

/-- The first key of a sorted list is the least one. -/
theorem head_key_le {a : α} {l : List α} (h : (a :: l).Pairwise fun a b => key a ≤ key b) {b : α}
    (hb : b ∈ a :: l) : key a ≤ key b := by
  cases hb with
  | head => exact le_refl (key a)
  | tail _ hb => exact List.rel_of_pairwise_cons h hb

/-- Lists that hold the same of each key have the same members. -/
theorem mem_iff_of_filter_eq {l₁ l₂ : List α}
    (hfilter : ∀ k, l₁.filter (fun a => key a = k) = l₂.filter fun a => key a = k) (a : α) : a ∈ l₁ ↔ a ∈ l₂ := by
  have ha : a ∈ l₁.filter (fun b => key b = key a) ↔ a ∈ l₂.filter fun b => key b = key a := by
    rw [hfilter]
  simpa using ha

/-- A sorted list is determined by what it holds of each key. -/
theorem eq_of_filter_eq {l₁ l₂ : List α} (h₁ : l₁.Pairwise fun a b => key a ≤ key b)
    (h₂ : l₂.Pairwise fun a b => key a ≤ key b)
    (hfilter : ∀ k, l₁.filter (fun a => key a = k) = l₂.filter fun a => key a = k) : l₁ = l₂ := by
  have hmem := mem_iff_of_filter_eq hfilter
  induction l₁ generalizing l₂ with
  | nil =>
    symm
    rw [List.eq_nil_iff_forall_not_mem]
    intro a ha
    exact List.not_mem_nil ((hmem a).2 ha)
  | cons a t₁ ih =>
    obtain ⟨b, t₂, rfl⟩ : ∃ b t₂, l₂ = b :: t₂ :=
      List.exists_cons_of_ne_nil (List.ne_nil_of_mem ((hmem a).1 List.mem_cons_self))
    -- both heads have the least key, and are the first with it
    have hba : key b ≤ key a := head_key_le h₂ ((hmem a).1 List.mem_cons_self)
    have hab : key a ≤ key b := head_key_le h₁ ((hmem b).2 List.mem_cons_self)
    have hkey : key b = key a := le_antisymm hba hab
    have hheads := hfilter (key a)
    simp only [List.filter_cons, hkey, decide_true, if_true, List.cons.injEq] at hheads
    obtain ⟨rfl, -⟩ := hheads
    have htails : ∀ k, t₁.filter (fun c => key c = k) = t₂.filter fun c => key c = k := by
      intro k
      have hk := hfilter k
      by_cases ha : key a = k <;> simpa [List.filter_cons, ha] using hk
    rw [ih h₁.of_cons h₂.of_cons htails (mem_iff_of_filter_eq htails)]

/-- Leaving elements out and sorting by a key can be done in either order. -/
theorem filter_mergeSort_comm (hle : ∀ a b, le a b = true ↔ key a ≤ key b) (l : List α) (p : α → Bool) :
    (l.mergeSort le).filter p = (l.filter p).mergeSort le := by
  refine eq_of_filter_eq ((pairwise_mergeSort hle l).filter p) (pairwise_mergeSort hle _) fun k => ?_
  rw [filter_mergeSort hle, List.filter_comm, filter_mergeSort hle, List.filter_comm]

section Blocks

variable {γ : Type} {label : γ → κ} {leLabel : γ → γ → Bool} {block : γ → List α}

/-- Of a list of blocks, each with a key of its own, the elements with one key are the blocks of that key. -/
theorem filter_flatMap {l : List γ} (hblock : ∀ c ∈ l, ∀ a ∈ block c, key a = label c) (k : κ) :
    (l.flatMap block).filter (fun a => key a = k) = (l.filter fun c => label c = k).flatMap block := by
  induction l with
  | nil => rfl
  | cons c rest ih =>
    have hrest := ih fun d hd => hblock d (List.mem_cons_of_mem c hd)
    have hc := hblock c List.mem_cons_self
    rw [List.flatMap_cons, List.filter_append, hrest]
    by_cases hk : label c = k
    · have hall : (block c).filter (fun a => key a = k) = block c :=
        List.filter_eq_self.2 fun a ha => by simpa [hk] using hc a ha
      rw [hall, List.filter_cons_of_pos (by simpa using hk), List.flatMap_cons]
    · have hnone : (block c).filter (fun a => key a = k) = [] :=
        List.filter_eq_nil_iff.2 fun a ha => by simpa [hc a ha] using hk
      rw [hnone, List.filter_cons_of_neg (by simpa using hk), List.nil_append]

/-- A list of blocks, each with a key of its own, is sorted by sorting the blocks. -/
theorem mergeSort_flatMap (hle : ∀ a b, le a b = true ↔ key a ≤ key b)
    (hleLabel : ∀ c d, leLabel c d = true ↔ label c ≤ label d) {l : List γ}
    (hblock : ∀ c ∈ l, ∀ a ∈ block c, key a = label c) :
    (l.flatMap block).mergeSort le = (l.mergeSort leLabel).flatMap block := by
  have hblock' : ∀ c ∈ l.mergeSort leLabel, ∀ a ∈ block c, key a = label c :=
    fun c hc => hblock c (List.mem_mergeSort.1 hc)
  refine eq_of_filter_eq (pairwise_mergeSort hle _) (List.pairwise_flatMap.2 ⟨?_, ?_⟩) fun k => ?_
  · intro c hc
    refine List.pairwise_of_forall_mem_list fun a ha b hb => ?_
    rw [hblock' c hc a ha, hblock' c hc b hb]
  · refine (pairwise_mergeSort hleLabel l).imp_of_mem fun {c d} hc hd hcd a ha b hb => ?_
    rw [hblock' c hc a ha, hblock' d hd b hb]
    exact hcd
  · rw [filter_mergeSort hle, filter_flatMap hblock, filter_flatMap hblock', filter_mergeSort hleLabel]

end Blocks

end StableSort

end Strata
