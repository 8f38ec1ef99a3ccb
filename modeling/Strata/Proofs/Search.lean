import Mathlib.Data.List.Infix
import Mathlib.Data.List.TakeWhile
import Mathlib.Tactic
import Strata.Text.Search

/-!
# Searching in texts: what the searches find

The searches of the library in the words of lists: a text begins with another one iff its characters have the
other's as a prefix, and contains it iff they have them as an infix. Splitting a text at a separator finds the pieces
that were put together with separators between them.
-/

namespace Strata.Text

theorem beginsWith_iff {s start : String} : beginsWith s start = true ↔ start.toList <+: s.toList := by
  rw [beginsWith, List.isPrefixOf_iff_prefix]

theorem occursIn_iff {word cs : List Char} : occursIn word cs = true ↔ word <:+: cs := by
  induction cs with
  | nil => simp [occursIn]
  | cons c cs ih =>
    rw [occursIn, Bool.or_eq_true, ih, List.isPrefixOf_iff_prefix, List.infix_cons_iff]

theorem contains_iff {s word : String} : contains s word = true ↔ word.toList <:+: s.toList := by
  rw [contains, occursIn_iff]

theorem afterPrefix?_append (start rest : List Char) : afterPrefix? start (start ++ rest) = some rest := by
  induction start with
  | nil => rfl
  | cons c start ih => rw [List.cons_append, afterPrefix?, if_pos rfl, ih]

theorem afterPrefix?_eq_none {start cs : List Char} (h : ¬ start <+: cs) : afterPrefix? start cs = none := by
  fun_induction afterPrefix? start cs with
  | case1 cs => exact absurd List.nil_prefix h
  | case2 => rfl
  | case3 start c cs ih => exact ih fun hstart => h ((List.prefix_cons_inj c).2 hstart)
  | case4 => rfl

/-- What follows a separator does not change what stands before the first one. -/
theorem takeWhile_append_of_mem {sep : Char} {cs : List Char} (h : sep ∈ cs) (rest : List Char) :
    (cs ++ rest).takeWhile (fun c => c != sep) = cs.takeWhile fun c => c != sep := by
  rw [List.takeWhile_append, if_neg]
  intro hlength
  have hall := List.IsPrefix.eq_of_length (List.takeWhile_prefix fun c => c != sep) hlength
  simpa using List.takeWhile_eq_self_iff.1 hall sep h

/-- The runs hold all characters but those at which the text is split. -/
theorem flatten_splitWhere (p : Char → Bool) (cs : List Char) :
    (splitWhere p cs).flatten = cs.filter fun c => !p c := by
  induction cs with
  | nil => rfl
  | cons c cs ih =>
    by_cases hc : p c = true
    · rw [splitWhere, if_pos hc, List.flatten_cons, List.nil_append, ih, List.filter_cons_of_neg (by simp [hc])]
    · rw [List.filter_cons_of_pos (by simpa using hc), ← ih, splitWhere, if_neg hc]
      cases splitWhere p cs <;> rfl

theorem mem_of_mem_splitAt {sep c : Char} {cs run : List Char} (hrun : run ∈ splitAt sep cs) (hc : c ∈ run) :
    c ∈ cs ∧ c ≠ sep := by
  have hflatten : c ∈ (splitAt sep cs).flatten := List.mem_flatten_of_mem hrun hc
  rw [splitAt, flatten_splitWhere, List.mem_filter] at hflatten
  simpa using hflatten

@[simp]
theorem splitAt_nil (sep : Char) : splitAt sep [] = [[]] :=
  rfl

theorem splitAt_cons_sep (sep : Char) (cs : List Char) : splitAt sep (sep :: cs) = [] :: splitAt sep cs := by
  rw [splitAt, splitWhere, if_pos (decide_eq_true rfl)]
  rfl

theorem splitAt_cons_of_ne {sep c : Char} (hc : c ≠ sep) {cs run : List Char} {runs : List (List Char)}
    (h : splitAt sep cs = run :: runs) : splitAt sep (c :: cs) = (c :: run) :: runs := by
  rw [splitAt] at h
  rw [splitAt, splitWhere, if_neg (by simpa using hc), h]

/-- The first run of a text is what stands before the first separator. -/
theorem splitAt_eq_cons (sep : Char) (cs : List Char) :
    ∃ runs, splitAt sep cs = cs.takeWhile (fun c => c != sep) :: runs := by
  induction cs with
  | nil => exact ⟨[], rfl⟩
  | cons c cs ih =>
    obtain ⟨runs, hruns⟩ := ih
    by_cases hc : c = sep
    · exact ⟨splitAt sep cs, by simp [splitAt_cons_sep, hc]⟩
    · exact ⟨runs, by simp [splitAt_cons_of_ne hc hruns, hc]⟩

theorem splitAt_append_cons (sep : Char) (before rest : List Char) :
    splitAt sep (before ++ sep :: rest) = splitAt sep before ++ splitAt sep rest := by
  induction before with
  | nil => exact splitAt_cons_sep sep rest
  | cons c before ih =>
    obtain ⟨runs, hruns⟩ := splitAt_eq_cons sep before
    by_cases hc : c = sep
    · rw [hc, List.cons_append, splitAt_cons_sep, splitAt_cons_sep, ih, List.cons_append]
    · rw [hruns, List.cons_append] at ih
      rw [List.cons_append, splitAt_cons_of_ne hc ih, splitAt_cons_of_ne hc hruns, List.cons_append]

theorem map_toList_split (sep : Char) (s : String) : (split sep s).map String.toList = splitAt sep s.toList := by
  simp [split, Function.comp_def]

theorem splitAt_of_not_mem {sep : Char} {cs : List Char} (h : sep ∉ cs) : splitAt sep cs = [cs] := by
  induction cs with
  | nil => rfl
  | cons c cs ih =>
    obtain ⟨hc, hcs⟩ : sep ≠ c ∧ sep ∉ cs := by simpa using h
    exact splitAt_cons_of_ne hc.symm (ih hcs)

theorem split_of_notMem {sep : Char} {s : String} (h : sep ∉ s.toList) : split sep s = [s] := by
  rw [split, splitAt_of_not_mem h, List.map_singleton, String.ofList_toList]

theorem toList_intercalate_cons_cons (sep : Char) (s t : String) (rest : List String) :
    (String.intercalate (String.singleton sep) (s :: t :: rest)).toList =
      s.toList ++ sep :: (String.intercalate (String.singleton sep) (t :: rest)).toList := by
  simp [String.intercalate_cons_cons, String.toList_append]

theorem mem_intercalate {sep c : Char} {pieces : List String}
    (h : c ∈ (String.intercalate (String.singleton sep) pieces).toList) : c = sep ∨ ∃ s ∈ pieces, c ∈ s.toList := by
  induction pieces with
  | nil => simp at h
  | cons s rest ih =>
    cases rest with
    | nil => exact Or.inr ⟨s, List.mem_cons_self, by simpa using h⟩
    | cons t rest =>
      rw [toList_intercalate_cons_cons, List.mem_append, List.mem_cons] at h
      rcases h with hs | rfl | hrest
      · exact Or.inr ⟨s, List.mem_cons_self, hs⟩
      · exact Or.inl rfl
      · rcases ih hrest with hsep | ⟨u, hu, hc⟩
        · exact Or.inl hsep
        · exact Or.inr ⟨u, List.mem_cons_of_mem s hu, hc⟩

theorem infix_intercalate {sep : Char} {s : String} {pieces : List String} (h : s ∈ pieces) :
    s.toList <:+: (String.intercalate (String.singleton sep) pieces).toList := by
  induction pieces with
  | nil => cases h
  | cons t rest ih =>
    cases rest with
    | nil =>
      rw [List.mem_singleton.mp h, String.intercalate_singleton]
    | cons u rest =>
      rw [toList_intercalate_cons_cons]
      rcases List.mem_cons.mp h with rfl | h
      · exact (List.prefix_append _ _).isInfix
      · exact (ih h).trans ((List.suffix_cons _ _).trans (List.suffix_append _ _)).isInfix

theorem map_replace_of_notMem {old new : Char} {cs : List Char} (h : old ∉ cs) :
    (cs.map fun c => if c = old then new else c) = cs := by
  have hkept : ∀ c ∈ cs, (if c = old then new else c) = id c := by
    intro c hc
    have hne : c ≠ old := by
      rintro rfl
      exact h hc
    rw [if_neg hne, id_eq]
  rw [List.map_congr_left hkept, List.map_id]

/-- Pieces without separators that are put together with separators between them are found again. -/
theorem split_intercalate {sep : Char} {pieces : List String} (hne : pieces ≠ [])
    (h : ∀ s ∈ pieces, sep ∉ s.toList) :
    split sep (String.intercalate (String.singleton sep) pieces) = pieces := by
  induction pieces with
  | nil => exact absurd rfl hne
  | cons s rest ih =>
    have hs := h s List.mem_cons_self
    cases rest with
    | nil => simp [split_of_notMem hs]
    | cons t rest =>
      have hrest := ih (List.cons_ne_nil t rest) fun u hu => h u (List.mem_cons_of_mem s hu)
      rw [split, toList_intercalate_cons_cons, splitAt_append_cons, splitAt_of_not_mem hs, List.singleton_append,
        List.map_cons, String.ofList_toList]
      exact congrArg (s :: ·) hrest

/-! ## Runs of a text that begins with another one -/

theorem exists_of_splitAt_eq_append {sep : Char} {base : List Char} {runs : List (List Char)} (hruns : runs ≠ []) :
    ∀ {cs : List Char}, splitAt sep cs = splitAt sep base ++ runs →
      ∃ rest, cs = base ++ sep :: rest ∧ splitAt sep rest = runs := by
  induction base with
  | nil =>
    intro cs h
    have h : splitAt sep cs = [] :: runs := h
    cases cs with
    | nil =>
      have hnil : [] = runs := (List.cons.inj h).2
      exact absurd hnil.symm hruns
    | cons c cs =>
      by_cases hc : c = sep
      · subst hc
        rw [splitAt_cons_sep] at h
        exact ⟨cs, rfl, (List.cons.inj h).2⟩
      · -- the first run is empty, so the text does not begin with anything but a separator
        obtain ⟨more, hmore⟩ := splitAt_eq_cons sep cs
        rw [splitAt_cons_of_ne hc hmore] at h
        cases (List.cons.inj h).1
  | cons b base ih =>
    intro cs h
    obtain ⟨more, hmore⟩ := splitAt_eq_cons sep base
    cases cs with
    | nil =>
      have hlength := congrArg List.length h
      have hbase : (splitAt sep (b :: base)).length ≠ 0 := by
        obtain ⟨others, hothers⟩ := splitAt_eq_cons sep (b :: base)
        simp [hothers]
      have hpositive : 0 < runs.length := List.length_pos_iff.mpr hruns
      have hsingle : (splitAt sep []).length = 1 := rfl
      rw [hsingle, List.length_append] at hlength
      omega
    | cons c cs =>
      obtain ⟨others, hothers⟩ := splitAt_eq_cons sep cs
      by_cases hb : b = sep
      · subst hb
        rw [splitAt_cons_sep, List.cons_append] at h
        by_cases hc : c = b
        · subst hc
          rw [splitAt_cons_sep] at h
          obtain ⟨rest, hcs, hrest⟩ := ih (List.cons.inj h).2
          exact ⟨rest, congrArg (c :: ·) hcs, hrest⟩
        · rw [splitAt_cons_of_ne hc hothers] at h
          cases (List.cons.inj h).1
      · rw [splitAt_cons_of_ne hb hmore, List.cons_append] at h
        by_cases hc : c = sep
        · subst hc
          rw [splitAt_cons_sep] at h
          cases (List.cons.inj h).1
        · rw [splitAt_cons_of_ne hc hothers] at h
          obtain ⟨hfirst, htail⟩ := List.cons.inj h
          obtain ⟨rfl, hrun⟩ := List.cons.inj hfirst
          have hsplit : splitAt sep cs = splitAt sep base ++ runs := by
            rw [hothers, hmore, hrun, htail, List.cons_append]
          obtain ⟨rest, hcs, hrest⟩ := ih hsplit
          exact ⟨rest, congrArg (c :: ·) hcs, hrest⟩

/-- The runs of a text begin with those of another one and go on iff the text begins with the other one and a
separator. -/
theorem splitAt_eq_append_iff {sep : Char} {base cs : List Char} {runs : List (List Char)} :
    splitAt sep cs = splitAt sep base ++ runs ∧ runs ≠ [] ↔
      ∃ rest, cs = base ++ sep :: rest ∧ splitAt sep rest = runs := by
  constructor
  · rintro ⟨h, hruns⟩
    exact exists_of_splitAt_eq_append hruns h
  · rintro ⟨rest, rfl, rfl⟩
    obtain ⟨more, hmore⟩ := splitAt_eq_cons sep rest
    refine ⟨splitAt_append_cons sep base rest, ?_⟩
    rw [hmore]
    exact List.cons_ne_nil _ _

/-- The runs of a text begin with those of another one and then `run` iff `run` stands between the other one with a
separator and the next separator. -/
theorem prefix_splitAt_iff {sep : Char} {base run cs : List Char} :
    splitAt sep base ++ [run] <+: splitAt sep cs ↔
      ∃ rest, cs = base ++ sep :: rest ∧ rest.takeWhile (fun c => c != sep) = run := by
  constructor
  · rintro ⟨more, hmore⟩
    have hsplit : splitAt sep cs = splitAt sep base ++ run :: more := by
      rw [← hmore, List.append_assoc, List.singleton_append]
    obtain ⟨rest, hcs, hrest⟩ := splitAt_eq_append_iff.mp ⟨hsplit, List.cons_ne_nil run more⟩
    obtain ⟨runs, hruns⟩ := splitAt_eq_cons sep rest
    rw [hruns] at hrest
    exact ⟨rest, hcs, (List.cons.inj hrest).1⟩
  · rintro ⟨rest, rfl, rfl⟩
    obtain ⟨runs, hruns⟩ := splitAt_eq_cons sep rest
    refine ⟨runs, ?_⟩
    rw [splitAt_append_cons, hruns, List.append_assoc, List.singleton_append]

theorem map_ofList_prefix_iff {as bs : List (List Char)} :
    as.map String.ofList <+: bs.map String.ofList ↔ as <+: bs := by
  constructor
  · intro h
    have hlists := h.map String.toList
    simpa [Function.comp_def] using hlists
  · intro h
    exact h.map String.ofList

theorem split_append_dot (s more : String) :
    split '.' (s ++ "." ++ more) = split '.' s ++ split '.' more := by
  have hlist : (s ++ "." ++ more).toList = s.toList ++ '.' :: more.toList := by
    rw [String.toList_append, String.toList_append, List.append_assoc]
    rfl
  rw [split, hlist, splitAt_append_cons, List.map_append]
  rfl

end Strata.Text
