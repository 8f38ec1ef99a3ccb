import Mathlib.Tactic
import Strata.Proofs.Search
import Strata.Proofs.Trimming
import Strata.Text.Wrap

/-!
# Wrapping loses nothing that is seen

Wrapped text has line ends where the text has blanks or none, and fewer blanks at the ends of lines. The characters
that are seen, `visible`, stay the same and in the same order (`visible_wrap`).

Laying words out keeps every character. What is cut off a line afterwards are blanks, since each line `Fits`: without
the blanks at its end it has room in the width. What is left has room in the width as it is (`cells_le_of_mem_wrap`).
-/

namespace Strata.Text

/-- The characters that are seen, of those given. -/
def visible (cs : List Char) : List Char :=
  cs.filter fun c => !isBlank c && !isDropped c

theorem visible_append (cs ds : List Char) : visible (cs ++ ds) = visible cs ++ visible ds :=
  List.filter_append cs ds

theorem visible_flatten (lines : List (List Char)) : visible lines.flatten = (lines.map visible).flatten :=
  List.filter_flatten

theorem visible_of_blank {cs : List Char} (h : ∀ c ∈ cs, isBlank c = true) : visible cs = [] := by
  rw [visible, List.filter_eq_nil_iff]
  intro c hc
  simp [h c hc]

theorem visible_cons_of_blank {c : Char} (h : isBlank c = true) (cs : List Char) : visible (c :: cs) = visible cs := by
  simp [visible, h]

theorem visible_cons_congr (c : Char) {cs ds : List Char} (h : visible cs = visible ds) :
    visible (c :: cs) = visible (c :: ds) := by
  rw [visible, visible, List.filter_cons, List.filter_cons]
  split
  · rw [← visible, ← visible, h]
  · exact h

/-! ## Cells -/

theorem cell_le_two (c : Char) : cell c ≤ 2 := by
  unfold cell
  dsimp only
  split_ifs <;> omega

theorem cells_append (cs ds : List Char) : cells (cs ++ ds) = cells cs + cells ds := by
  induction cs with
  | nil => simp [cells]
  | cons c cs ih =>
    rw [List.cons_append, cells, cells, ih]
    omega

theorem cells_reverse (cs : List Char) : cells cs.reverse = cells cs := by
  induction cs with
  | nil => rfl
  | cons c cs ih =>
    rw [List.reverse_cons, cells_append, ih, cells, cells, cells]
    omega

/-! ## Ends of lines -/

theorem exists_trimEnd (cs : List Char) : ∃ back, cs = trimEnd cs ++ back ∧ ∀ c ∈ back, isBlank c = true :=
  exists_dropEndWhile isBlank cs

theorem cells_trimEnd_le (cs : List Char) : cells (trimEnd cs) ≤ cells cs := by
  obtain ⟨back, hback, -⟩ := exists_trimEnd cs
  have hcells := congrArg cells hback
  rw [cells_append] at hcells
  omega

theorem trimEnd_append (cs ds : List Char) :
    trimEnd (cs ++ ds) = trimEnd cs ∨ trimEnd (cs ++ ds) = cs ++ trimEnd ds := by
  rw [trimEnd, dropEndWhile_append]
  split
  · exact .inl rfl
  · exact .inr rfl

theorem trimEnd_of_blank {cs : List Char} (h : ∀ c ∈ cs, isBlank c = true) : trimEnd cs = [] := by
  have hnil : dropEndWhile isBlank ([] ++ cs) = [] := dropEndWhile_append_of_getLast? h (by simp)
  exact hnil

/-- Without the blanks at its end the line has room in the width. -/
def Fits (width : Nat) (line : List Char) : Prop :=
  cells (trimEnd line) ≤ width

theorem Fits.append {width : Nat} {line w : List Char} (hline : Fits width line)
    (hroom : cells line + cells (trimEnd w) ≤ width) : Fits width (line ++ w) := by
  unfold Fits
  rcases trimEnd_append line w with h | h
  · rw [h]
    exact hline
  · rw [h, cells_append]
    exact hroom

theorem fits_of_cells {width : Nat} {line : List Char} (h : cells line ≤ width) : Fits width line :=
  (cells_trimEnd_le line).trans h

/-! ## Layout -/

theorem flatten_wordsFrom (word cs : List Char) : (words.wordsFrom word cs).flatten = word.reverse ++ cs := by
  induction cs generalizing word with
  | nil =>
    rw [words.wordsFrom]
    cases word <;> simp
  | cons c cs ih =>
    rw [words.wordsFrom]
    split
    · rw [List.flatten_cons, ih, List.reverse_singleton, List.singleton_append]
    · rw [ih, List.reverse_cons, List.append_assoc, List.singleton_append]

/-- A text is made of its words, unless it is blank and has none. -/
theorem words_spec (cs : List Char) :
    words cs = [] ∧ (∀ c ∈ cs, isBlank c = true) ∨ words cs ≠ [] ∧ (words cs).flatten = cs := by
  have hcs : cs.takeWhile isBlank ++ cs.drop (cs.takeWhile isBlank).length = cs :=
    List.prefix_iff_eq_append.mp (List.takeWhile_prefix isBlank)
  have hflatten := flatten_wordsFrom [] (cs.drop (cs.takeWhile isBlank).length)
  rw [List.reverse_nil, List.nil_append] at hflatten
  rw [words]
  cases hwords : words.wordsFrom [] (cs.drop (cs.takeWhile isBlank).length) with
  | nil =>
    refine .inl ⟨rfl, ?_⟩
    intro c hc
    rw [hwords, List.flatten_nil] at hflatten
    rw [← hcs, ← hflatten, List.append_nil] at hc
    exact List.mem_takeWhile_imp hc
  | cons w ws =>
    refine .inr ⟨List.cons_ne_nil _ _, ?_⟩
    rw [hwords, List.flatten_cons] at hflatten
    rw [List.flatten_cons, List.append_assoc, hflatten, hcs]

theorem flatten_chopFrom (width : Nat) (piece : List Char) (used : Nat) (cs : List Char) :
    (chopFrom width piece used cs).flatten = piece.reverse ++ cs := by
  induction cs generalizing piece used with
  | nil => simp [chopFrom]
  | cons c cs ih =>
    rw [chopFrom]
    split
    · rw [List.flatten_cons, ih, List.reverse_singleton, List.singleton_append]
    · rw [ih, List.reverse_cons, List.append_assoc, List.singleton_append]

/-- A piece ends before the character that has no room in it, and every character has room in an empty one. -/
theorem cells_of_mem_chopFrom {width : Nat} (hwidth : 2 ≤ width) {piece : List Char} {used : Nat} {cs p : List Char}
    (hused : cells piece = used) (hpiece : used ≤ width) (hp : p ∈ chopFrom width piece used cs) :
    cells p ≤ width := by
  induction cs generalizing piece used with
  | nil =>
    rw [chopFrom, List.mem_singleton] at hp
    rw [hp, cells_reverse]
    omega
  | cons c cs ih =>
    rw [chopFrom] at hp
    have hc := cell_le_two c
    split at hp
    · rcases List.mem_cons.mp hp with rfl | hp
      · rw [cells_reverse]
        omega
      · exact ih (by simp [cells]) (by omega) hp
    · next hroom =>
      refine ih ?_ (by omega) hp
      rw [cells]
      omega

theorem chopFrom_ne_nil (width : Nat) (piece : List Char) (used : Nat) (cs : List Char) :
    chopFrom width piece used cs ≠ [] := by
  induction cs generalizing piece used with
  | nil => simp [chopFrom]
  | cons c cs ih =>
    rw [chopFrom]
    split
    · simp
    · exact ih _ _

/-- The pieces of a word but the last one, which begins the next line, and that last one. -/
theorem exists_chopFrom (width : Nat) (w : List Char) :
    ∃ pieces last, chopFrom width [] 0 w = pieces ++ [last] ∧ (chopFrom width [] 0 w).dropLast = pieces ∧
      (chopFrom width [] 0 w).getLast?.getD [] = last ∧ pieces.flatten ++ last = w := by
  have hne := chopFrom_ne_nil width [] 0 w
  have hchop := (List.dropLast_append_getLast hne).symm
  refine ⟨_, (chopFrom width [] 0 w).getLast hne, hchop, rfl, ?_, ?_⟩
  · rw [List.getLast?_eq_some_getLast hne, Option.getD_some]
  · have hflatten := flatten_chopFrom width [] 0 w
    rw [hchop] at hflatten
    simpa using hflatten

theorem flatten_layOut (width : Nat) (line : List Char) (used : Nat) (ws : List (List Char)) :
    (layOut width line used ws).flatten = line ++ ws.flatten := by
  induction ws generalizing line used with
  | nil => simp [layOut]
  | cons w ws ih =>
    rw [layOut, List.flatten_cons]
    dsimp only
    split
    · rw [ih, List.append_assoc]
    · split
      · obtain ⟨pieces, last, -, hpieces, hlast, hw⟩ := exists_chopFrom width w
        have hline : (if line.isEmpty then [] else [line]).flatten = line := by cases line <;> simp
        rw [hpieces, hlast, List.flatten_append, List.flatten_append, ih, hline, ← hw]
        simp
      · rw [List.flatten_cons, ih]

/-- Every line that is laid out fits: a word is only added to a line that has room for it. -/
theorem fits_of_mem_layOut {width : Nat} (hwidth : 2 ≤ width) {line : List Char} {used : Nat}
    {ws : List (List Char)} (hline : Fits width line) (hused : cells line = used) {l : List Char}
    (hl : l ∈ layOut width line used ws) : Fits width l := by
  induction ws generalizing line used with
  | nil =>
    rw [layOut, List.mem_singleton] at hl
    rw [hl]
    exact hline
  | cons w ws ih =>
    rw [layOut] at hl
    dsimp only at hl
    by_cases hroom : used + cells (trimEnd w) ≤ width
    · rw [if_pos hroom] at hl
      have happend : cells (line ++ w) = used + cells w := by rw [cells_append, hused]
      exact ih (hline.append (by omega)) happend hl
    · rw [if_neg hroom] at hl
      by_cases hlong : width < cells (trimEnd w)
      · rw [if_pos hlong] at hl
        obtain ⟨pieces, last, hchop, hpieces, hlast, -⟩ := exists_chopFrom width w
        have hcells : ∀ p ∈ pieces ++ [last], cells p ≤ width := by
          intro p hp
          rw [← hchop] at hp
          exact cells_of_mem_chopFrom hwidth rfl (Nat.zero_le _) hp
        rw [hpieces, hlast, List.mem_append, List.mem_append] at hl
        rcases hl with (hl | hl) | hl
        · split at hl
          · cases hl
          · rw [List.mem_singleton] at hl
            rw [hl]
            exact hline
        · exact fits_of_cells (hcells l (List.mem_append_left _ hl))
        · exact ih (fits_of_cells (hcells last (by simp))) rfl hl
      · rw [if_neg hlong] at hl
        rcases List.mem_cons.mp hl with rfl | hl
        · exact hline
        · exact ih (Nat.le_of_not_lt hlong) rfl hl

/-! ## Cutting off -/

theorem exists_dropExcess (width : Nat) (line : List Char) :
    ∃ back, dropExcess width line = trimEnd line ++ back ∧ ∀ c ∈ back, isBlank c = true := by
  obtain ⟨back, hback, hblank⟩ := exists_trimEnd line
  have hlength := congrArg List.length hback
  rw [List.length_append] at hlength
  unfold dropExcess
  dsimp only
  generalize hkept : line.length - min (line.length - (trimEnd line).length) (line.length - width) = kept
  refine ⟨back.take (kept - (trimEnd line).length), ?_, fun c hc => hblank c (List.mem_of_mem_take hc)⟩
  conv_lhs => rw [hback]
  rw [List.take_append, List.take_of_length_le (by omega)]

theorem crop_append {width : Nat} {front : List Char} (h : cells front ≤ width) (back : List Char) :
    crop width (front ++ back) = front ++ crop (width - cells front) back := by
  induction front generalizing width with
  | nil => simp [cells]
  | cons c front ih =>
    rw [cells] at h
    rw [List.cons_append, crop, if_pos (by omega), ih (by omega), cells, List.cons_append, Nat.sub_sub]

theorem isBlank_of_mem_crop {width : Nat} {cs : List Char} (h : ∀ c ∈ cs, isBlank c = true) :
    ∀ c ∈ crop width cs, isBlank c = true := by
  induction cs generalizing width with
  | nil =>
    intro c hc
    cases hc
  | cons d cs ih =>
    rw [List.forall_mem_cons] at h
    intro c hc
    rw [crop] at hc
    split at hc
    · rcases List.mem_cons.mp hc with rfl | hc
      · exact h.1
      · exact ih h.2 c hc
    · rw [List.eq_of_mem_replicate hc]
      decide

theorem visible_trimEnd_append (line : List Char) {back : List Char} (h : ∀ c ∈ back, isBlank c = true) :
    visible (trimEnd line ++ back) = visible line := by
  obtain ⟨rest, hrest, hblank⟩ := exists_trimEnd line
  have hline := congrArg visible hrest
  rw [visible_append, visible_of_blank hblank] at hline
  rw [visible_append, visible_of_blank h, hline]

theorem visible_crop {width : Nat} {line : List Char} (h : Fits width line) :
    visible (crop width (dropExcess width line)) = visible line := by
  obtain ⟨back, hback, hblank⟩ := exists_dropExcess width line
  rw [hback, crop_append h]
  exact visible_trimEnd_append line (isBlank_of_mem_crop hblank)

theorem visible_dropExcess (width : Nat) (line : List Char) : visible (dropExcess width line) = visible line := by
  obtain ⟨back, hback, hblank⟩ := exists_dropExcess width line
  rw [hback]
  exact visible_trimEnd_append line hblank

/-! ## Lines of a text -/

/-- The lines of a text are pieces of it that fit, with what is beyond the width cut off. -/
theorem exists_wrapLine {width : Nat} (hwidth : 2 ≤ width) (cs : List Char) :
    ∃ lines : List (List Char), lines.flatten = cs ∧ (∀ l ∈ lines, Fits width l) ∧
      wrapLine width cs = lines.map fun line =>
        if width < cells (dropExcess width line) then crop width (dropExcess width line)
        else dropExcess width line := by
  rcases words_spec cs with ⟨hwords, hblank⟩ | ⟨hwords, hflatten⟩
  · refine ⟨[cs], by simp, ?_, ?_⟩
    · intro l hl
      rw [List.mem_singleton] at hl
      rw [hl, Fits, trimEnd_of_blank hblank, cells]
      omega
    · rw [wrapLine, hwords]
  · refine ⟨layOut width [] 0 (words cs), ?_, ?_, ?_⟩
    · rw [flatten_layOut, List.nil_append, hflatten]
    · intro l hl
      exact fits_of_mem_layOut hwidth (fits_of_cells (Nat.zero_le _)) rfl hl
    · rw [wrapLine]
      cases hcs : words cs with
      | nil => exact absurd hcs hwords
      | cons w ws => rfl

theorem visible_wrapLine {width : Nat} (hwidth : 2 ≤ width) (cs : List Char) :
    visible (wrapLine width cs).flatten = visible cs := by
  obtain ⟨lines, hflatten, hfits, hwrap⟩ := exists_wrapLine hwidth cs
  rw [hwrap, ← hflatten, visible_flatten, visible_flatten, List.map_map]
  congr 1
  refine List.map_congr_left fun line hline => ?_
  rw [Function.comp_apply]
  split
  · exact visible_crop (hfits line hline)
  · exact visible_dropExcess width line

theorem visible_expandTabs (used : Nat) (cs : List Char) : visible (expandTabs used cs) = visible cs := by
  induction cs generalizing used with
  | nil => rfl
  | cons c cs ih =>
    by_cases hc : c = '\t'
    · subst hc
      have hspaces : ∀ d ∈ List.replicate (tabSize - used % tabSize) ' ', isBlank d = true := by
        intro d hd
        rw [List.eq_of_mem_replicate hd]
        decide
      rw [expandTabs, visible_append, visible_of_blank hspaces, ih, List.nil_append,
        visible_cons_of_blank (by decide)]
    · rw [expandTabs]
      · exact visible_cons_congr c (ih _)
      · exact hc

theorem visible_splitAt {sep : Char} (hsep : isBlank sep = true) (cs : List Char) :
    visible (splitAt sep cs).flatten = visible cs := by
  rw [splitAt, flatten_splitWhere, visible, visible, List.filter_filter]
  refine List.filter_congr fun c _ => ?_
  by_cases hc : c = sep
  · simp [hc, hsep]
  · simp [hc]

theorem flatMap_toList_ofList (lines : List (List Char)) :
    (lines.map String.ofList).flatMap String.toList = lines.flatten := by
  induction lines with
  | nil => rfl
  | cons line lines ih =>
    rw [List.map_cons, List.flatMap_cons, ih, String.toList_ofList, List.flatten_cons]

/-- The lines in which a text is shown have the characters of the text that are seen, in their order. -/
theorem visible_wrap {width : Nat} (hwidth : 2 ≤ width) (s : String) :
    visible ((wrap width s).flatMap String.toList) = visible s.toList := by
  have hshown : visible (s.toList.filter fun c => !isDropped c) = visible s.toList := by
    rw [visible, visible, List.filter_filter]
    refine List.filter_congr fun c _ => ?_
    cases isDropped c <;> simp
  have hlines : (wrap width s).flatMap String.toList =
      (splitAt '\n' (s.toList.filter fun c => !isDropped c)).flatMap fun line =>
        (wrapLine width (expandTabs 0 line)).flatten := by
    rw [wrap, List.flatMap_assoc, split, List.flatMap_map, String.toList_ofList]
    simp only [flatMap_toList_ofList, String.toList_ofList]
  have hline : ∀ line, visible (wrapLine width (expandTabs 0 line)).flatten = visible line := by
    intro line
    rw [visible_wrapLine hwidth, visible_expandTabs]
  calc visible ((wrap width s).flatMap String.toList)
      = (splitAt '\n' (s.toList.filter fun c => !isDropped c)).flatMap visible := by
        rw [hlines, visible, List.filter_flatMap]
        exact List.flatMap_congr fun line _ => hline line
    _ = visible (splitAt '\n' (s.toList.filter fun c => !isDropped c)).flatten := by
        rw [visible_flatten, List.flatMap_def]
    _ = visible s.toList := by
        rw [visible_splitAt (by decide), hshown]

/-! ## Width of the lines -/

theorem cells_replicate_space (n : Nat) : cells (List.replicate n ' ') = n := by
  induction n with
  | zero => rfl
  | succ n ih =>
    have hspace : cell ' ' = 1 := by decide
    rw [List.replicate_succ, cells, ih, hspace]
    omega

theorem cells_crop_le (width : Nat) (cs : List Char) : cells (crop width cs) ≤ width := by
  induction cs generalizing width with
  | nil => exact Nat.zero_le width
  | cons c cs ih =>
    rw [crop]
    split
    · have hrest := ih (width - cell c)
      rw [cells]
      omega
    · exact (cells_replicate_space width).le

theorem cells_le_of_mem_wrapLine {width : Nat} {cs line : List Char} (h : line ∈ wrapLine width cs) :
    cells line ≤ width := by
  obtain ⟨l, -, rfl⟩ := List.mem_map.mp h
  dsimp only
  split
  · exact cells_crop_le width _
  · next hroom => exact Nat.le_of_not_lt hroom

theorem exists_of_mem_wrap {width : Nat} {s line : String} (h : line ∈ wrap width s) :
    ∃ run ∈ splitAt '\n' (s.toList.filter fun c => !isDropped c), line.toList ∈ wrapLine width (expandTabs 0 run) := by
  rw [wrap, split, String.toList_ofList, List.flatMap_map] at h
  obtain ⟨run, hrun, h⟩ := List.mem_flatMap.mp h
  obtain ⟨l, hl, rfl⟩ := List.mem_map.mp h
  rw [String.toList_ofList] at hl
  exact ⟨run, hrun, by rwa [String.toList_ofList]⟩

/-- No line has more cells than the width. -/
theorem cells_le_of_mem_wrap {width : Nat} {s line : String} (h : line ∈ wrap width s) :
    cells line.toList ≤ width := by
  obtain ⟨run, -, hline⟩ := exists_of_mem_wrap h
  exact cells_le_of_mem_wrapLine hline

/-! ## Characters of the lines -/

theorem mem_of_mem_crop {width : Nat} {c : Char} {cs : List Char} (h : c ∈ crop width cs) : c = ' ' ∨ c ∈ cs := by
  induction cs generalizing width with
  | nil => cases h
  | cons d cs ih =>
    rw [crop] at h
    split at h
    · rcases List.mem_cons.mp h with rfl | h
      · exact Or.inr List.mem_cons_self
      · exact (ih h).imp_right (List.mem_cons_of_mem d)
    · exact Or.inl (List.eq_of_mem_replicate h)

theorem mem_of_mem_wrapLine {width : Nat} (hwidth : 2 ≤ width) {cs line : List Char} {c : Char}
    (hline : line ∈ wrapLine width cs) (hc : c ∈ line) : c = ' ' ∨ c ∈ cs := by
  obtain ⟨lines, hflatten, -, hwrap⟩ := exists_wrapLine hwidth cs
  rw [hwrap] at hline
  obtain ⟨l, hl, rfl⟩ := List.mem_map.mp hline
  have hkept : c ∈ dropExcess width l → c ∈ cs := by
    intro hc
    rw [← hflatten]
    exact List.mem_flatten.mpr ⟨l, hl, List.mem_of_mem_take hc⟩
  split at hc
  · exact (mem_of_mem_crop hc).imp_right hkept
  · exact Or.inr (hkept hc)

theorem mem_of_mem_expandTabs {used : Nat} {c : Char} {cs : List Char} (h : c ∈ expandTabs used cs) :
    c = ' ' ∨ c ∈ cs := by
  induction cs generalizing used with
  | nil => cases h
  | cons d cs ih =>
    by_cases hd : d = '\t'
    · subst hd
      rw [expandTabs] at h
      rcases List.mem_append.mp h with h | h
      · exact Or.inl (List.eq_of_mem_replicate h)
      · exact (ih h).imp_right (List.mem_cons_of_mem _)
    · rw [expandTabs] at h
      · rcases List.mem_cons.mp h with rfl | h
        · exact Or.inr List.mem_cons_self
        · exact (ih h).imp_right (List.mem_cons_of_mem d)
      · exact hd

/-- The lines hold nothing but spaces and what the text holds. -/
theorem mem_of_mem_wrap {width : Nat} (hwidth : 2 ≤ width) {s line : String} {c : Char} (hline : line ∈ wrap width s)
    (hc : c ∈ line.toList) : c = ' ' ∨ c ∈ s.toList := by
  obtain ⟨run, hrun, hwrap⟩ := exists_of_mem_wrap hline
  rcases mem_of_mem_wrapLine hwidth hwrap hc with hspace | hc
  · exact Or.inl hspace
  · exact (mem_of_mem_expandTabs hc).imp_right fun hc =>
      List.mem_of_mem_filter (mem_of_mem_splitAt hrun hc).1

theorem newline_notMem_of_mem_wrap {width : Nat} (hwidth : 2 ≤ width) {s line : String} (hline : line ∈ wrap width s) :
    '\n' ∉ line.toList := by
  obtain ⟨run, hrun, hwrap⟩ := exists_of_mem_wrap hline
  intro hfeed
  have hspace : '\n' ≠ ' ' := by decide
  have htabs := (mem_of_mem_wrapLine hwidth hwrap hfeed).resolve_left hspace
  have hmem := (mem_of_mem_expandTabs htabs).resolve_left hspace
  exact (mem_of_mem_splitAt hrun hmem).2 rfl

/-! ## The last line

No line is added at the end: the last line of a text that is not empty is not empty either. -/

theorem ne_nil_of_mem_wordsFrom {word cs w : List Char} (h : w ∈ words.wordsFrom word cs) : w ≠ [] := by
  induction cs generalizing word with
  | nil =>
    rw [words.wordsFrom] at h
    split at h
    · cases h
    · next hword =>
      rw [List.mem_singleton.mp h]
      simpa using hword
  | cons c cs ih =>
    rw [words.wordsFrom] at h
    split at h
    · next hblank =>
      rcases List.mem_cons.mp h with rfl | h
      · rintro hnil
        rw [List.reverse_eq_nil_iff.mp hnil] at hblank
        simp at hblank
      · exact ih h
    · exact ih h

theorem ne_nil_of_mem_words {cs w : List Char} (h : w ∈ words cs) : w ≠ [] := by
  rw [words] at h
  cases hwords : words.wordsFrom [] (cs.drop (cs.takeWhile isBlank).length) with
  | nil =>
    rw [hwords] at h
    cases h
  | cons first rest =>
    rw [hwords] at h
    have hne : ∀ v ∈ first :: rest, v ≠ [] := fun v hv => ne_nil_of_mem_wordsFrom (hwords ▸ hv)
    rcases List.mem_cons.mp h with rfl | h
    · exact List.append_ne_nil_of_right_ne_nil _ (hne first List.mem_cons_self)
    · exact hne w (List.mem_cons_of_mem first h)

theorem getLast?_chopFrom {width used : Nat} {piece cs : List Char} (h : piece ≠ [] ∨ cs ≠ []) :
    ∀ l ∈ (chopFrom width piece used cs).getLast?, l ≠ [] := by
  induction cs generalizing piece used with
  | nil => simpa [chopFrom] using h
  | cons c cs ih =>
    rw [chopFrom]
    split
    · rw [List.getLast?_cons_of_ne_nil (chopFrom_ne_nil _ _ _ _)]
      exact ih (.inl (List.cons_ne_nil c []))
    · exact ih (.inl (List.cons_ne_nil c piece))

theorem layOut_ne_nil (width : Nat) (line : List Char) (used : Nat) (ws : List (List Char)) :
    layOut width line used ws ≠ [] := by
  induction ws generalizing line used with
  | nil => simp [layOut]
  | cons w ws ih =>
    rw [layOut]
    dsimp only
    split
    · exact ih _ _
    · split
      · exact List.append_ne_nil_of_right_ne_nil _ (ih _ _)
      · exact List.cons_ne_nil _ _

/-- The line that is written at the end holds the last word, or its last piece. -/
theorem getLast?_layOut {width used : Nat} {line : List Char} {ws : List (List Char)} (hws : ∀ w ∈ ws, w ≠ [])
    (h : line ≠ [] ∨ ws ≠ []) : ∀ l ∈ (layOut width line used ws).getLast?, l ≠ [] := by
  induction ws generalizing line used with
  | nil => simpa [layOut] using h
  | cons w ws ih =>
    rw [List.forall_mem_cons] at hws
    rw [layOut]
    dsimp only
    split
    · exact ih hws.2 (.inl (List.append_ne_nil_of_right_ne_nil line hws.1))
    · split
      · obtain ⟨pieces, last, hchop, -, hlast, -⟩ := exists_chopFrom width w
        have hne : last ≠ [] := getLast?_chopFrom (.inr hws.1) last (by rw [hchop]; simp)
        rw [List.getLast?_append_of_ne_nil _ (layOut_ne_nil _ _ _ _), hlast]
        exact ih hws.2 (.inl hne)
      · rw [List.getLast?_cons_of_ne_nil (layOut_ne_nil _ _ _ _)]
        exact ih hws.2 (.inl hws.1)

theorem dropExcess_ne_nil {width : Nat} (hwidth : 0 < width) {line : List Char} (h : line ≠ []) :
    dropExcess width line ≠ [] := by
  have hlength := List.length_pos_iff.mpr h
  unfold dropExcess
  dsimp only
  rw [← List.length_pos_iff, List.length_take]
  omega

theorem crop_ne_nil {width : Nat} (hwidth : 0 < width) {line : List Char} (h : line ≠ []) : crop width line ≠ [] := by
  cases line with
  | nil => exact absurd rfl h
  | cons c line =>
    rw [crop]
    split
    · exact List.cons_ne_nil _ _
    · simpa using hwidth.ne'

theorem wrapLine_ne_nil (width : Nat) (cs : List Char) : wrapLine width cs ≠ [] := by
  rw [wrapLine]
  cases words cs with
  | nil => simp
  | cons w ws => simpa using layOut_ne_nil width [] 0 (w :: ws)

theorem getLast?_wrapLine {width : Nat} (hwidth : 0 < width) {cs : List Char} (h : cs ≠ []) :
    ∀ l ∈ (wrapLine width cs).getLast?, l ≠ [] := by
  -- the lines before what is beyond the width is cut off
  have hlines : ∀ lines : List (List Char), (∀ l ∈ lines.getLast?, l ≠ []) →
      ∀ l ∈ (lines.map fun line => if width < cells (dropExcess width line) then crop width (dropExcess width line)
        else dropExcess width line).getLast?, l ≠ [] := by
    intro lines hlast l hl
    rw [List.getLast?_map] at hl
    obtain ⟨line, hline, rfl⟩ := Option.mem_map.mp hl
    have hkept := dropExcess_ne_nil hwidth (hlast line hline)
    split
    · exact crop_ne_nil hwidth hkept
    · exact hkept
  rw [wrapLine]
  cases hwords : words cs with
  | nil => exact hlines [cs] (by simpa using h)
  | cons w ws =>
    refine hlines (layOut width [] 0 (w :: ws)) (getLast?_layOut ?_ (.inr (List.cons_ne_nil w ws)))
    exact fun v hv => ne_nil_of_mem_words (hwords ▸ hv)

/-! ## Simple characters -/

/-- A character that takes one cell and is no blank, unless it is the space. -/
def isSimple (c : Char) : Bool :=
  cell c == 1 && (!isBlank c || c == ' ')

theorem isSimple_iff {c : Char} : isSimple c = true ↔ cell c = 1 ∧ (isBlank c = true → c = ' ') := by
  rw [isSimple, Bool.and_eq_true, beq_iff_eq, Bool.or_eq_true, beq_iff_eq]
  cases isBlank c <;> simp

theorem isSimple_of_ascii {c : Char} (h : 0x20 ≤ c.toNat ∧ c.toNat ≤ 0x7E) : isSimple c = true := by
  rw [isSimple_iff]
  refine ⟨?_, ?_⟩
  · unfold cell
    dsimp only
    rw [if_pos (by simp; omega)]
  · intro hblank
    have hnat : c.toNat = ' '.toNat := by
      have hspace : ' '.toNat = 0x20 := rfl
      simp [isBlank] at hblank
      omega
    exact Char.toNat_inj.mp hnat

theorem isDropped_of_isSimple {c : Char} (h : isSimple c = true) : isDropped c = false := by
  have hzero : ∀ n ∈ [0x07, 0x08, 0x0B, 0x0C, 0x0D], n < 0x20 ∧ inRanges n zeroRanges = true := by decide
  have hcell := (isSimple_iff.mp h).1
  rw [← Bool.not_eq_true]
  intro hdropped
  obtain ⟨hcontrol, hrange⟩ := hzero c.toNat (List.contains_iff_mem.mp hdropped)
  unfold cell at hcell
  dsimp only at hcell
  rw [if_neg (by simp; omega), if_pos hrange] at hcell
  cases hcell

theorem cells_eq_length {cs : List Char} (h : ∀ c ∈ cs, isSimple c = true) : cells cs = cs.length := by
  induction cs with
  | nil => rfl
  | cons c cs ih =>
    rw [List.forall_mem_cons] at h
    rw [cells, ih h.2, (isSimple_iff.mp h.1).1, List.length_cons, Nat.add_comm]

theorem expandTabs_ne_nil {used : Nat} {cs : List Char} (h : cs ≠ []) : expandTabs used cs ≠ [] := by
  cases cs with
  | nil => exact absurd rfl h
  | cons c cs =>
    by_cases hc : c = '\t'
    · subst hc
      have hspaces : tabSize - used % tabSize ≠ 0 := Nat.sub_ne_zero_of_lt (Nat.mod_lt used (by decide))
      rw [expandTabs]
      exact List.append_ne_nil_of_left_ne_nil (by simpa using hspaces) _
    · rw [expandTabs]
      · exact List.cons_ne_nil _ _
      · exact hc

theorem exists_getLast?_wrap {width : Nat} (hwidth : 0 < width) {s : String} (hs : ∀ c ∈ s.toList, isSimple c = true)
    (hne : s ≠ "") : ∃ line ∈ (wrap width s).getLast?, line ≠ "" := by
  have hshown : s.toList.filter (fun c => !isDropped c) = s.toList :=
    List.filter_eq_self.mpr fun c hc => by simp [isDropped_of_isSimple (hs c hc)]
  have hfeed : '\n' ∉ s.toList := fun hmem => nomatch hs '\n' hmem
  have htabs : expandTabs 0 s.toList ≠ [] := expandTabs_ne_nil (by simpa using hne)
  obtain ⟨last, hlast⟩ := Option.ne_none_iff_exists'.mp (mt List.getLast?_eq_none_iff.mp (wrapLine_ne_nil width _))
  refine ⟨String.ofList last, ?_, by simpa using getLast?_wrapLine hwidth htabs last hlast⟩
  rw [wrap, hshown, String.ofList_toList, split_of_notMem hfeed, List.flatMap_singleton, List.getLast?_map, hlast]
  rfl

/-- The characters without spaces and line feeds. -/
def deleteSpaces (cs : List Char) : List Char :=
  cs.filter fun c => c != ' ' && c != '\n'

/-- Of simple characters and line feeds all are seen but the spaces and line feeds. -/
theorem visible_eq_deleteSpaces {cs : List Char} (h : ∀ c ∈ cs, isSimple c = true ∨ c = '\n') :
    visible cs = deleteSpaces cs := by
  refine List.filter_congr fun c hc => ?_
  rcases h c hc with hsimple | rfl
  · have hfeed : c ≠ '\n' := by
      rintro rfl
      cases hsimple
    rw [isDropped_of_isSimple hsimple]
    by_cases hspace : c = ' '
    · subst hspace
      rfl
    · have hblank : isBlank c = false := Bool.eq_false_iff.mpr fun hblank => hspace ((isSimple_iff.mp hsimple).2 hblank)
      simp [hblank, hspace, hfeed]
  · decide

end Strata.Text
