import Mathlib.Tactic
import Strata.Association

/-!
# Tables in insertion order: what setting entries gives

Setting entries one after the other makes a table that has each key once, at the place where it was set first, with
the value that it was set to last (`IsTableOf`). The keys here are compared by equality.
-/

namespace Strata.Association

variable {α β : Type} [BEq α] [LawfulBEq α] {k k' : α} {v : β} {table : List (α × β)}

theorem get?_set_self (k : α) (v : β) (table : List (α × β)) :
    get? (fun a b => a == b) k (set (fun a b => a == b) k v table) = some v := by
  induction table with
  | nil => simp [set, get?]
  | cons e rest ih =>
    by_cases he : e.1 = k
    · simp [set, get?, he]
    · simp [set, get?, he, ih]

theorem get?_set_of_ne (hne : k' ≠ k) (v : β) (table : List (α × β)) :
    get? (fun a b => a == b) k' (set (fun a b => a == b) k v table) = get? (fun a b => a == b) k' table := by
  induction table with
  | nil => simp [set, get?, hne.symm]
  | cons e rest ih =>
    by_cases he : e.1 = k
    · simp [set, get?, he, hne.symm]
    · simp [set, get?, he, ih]

/-- A key that is set keeps its place, and a new one comes last. -/
theorem keys_set (k : α) (v : β) (table : List (α × β)) :
    (set (fun a b => a == b) k v table).map Prod.fst =
      if k ∈ table.map Prod.fst then table.map Prod.fst else table.map Prod.fst ++ [k] := by
  induction table with
  | nil => simp [set]
  | cons e rest ih =>
    by_cases he : e.1 = k
    · simp [set, he]
    · have hk : k ∈ e.1 :: rest.map Prod.fst ↔ k ∈ rest.map Prod.fst := by
        rw [List.mem_cons, or_iff_right fun h => he h.symm]
      simp only [set, beq_iff_eq, he, if_false, List.map_cons, ih]
      by_cases hrest : k ∈ rest.map Prod.fst
      · rw [if_pos hrest, if_pos (hk.mpr hrest)]
      · rw [if_neg hrest, if_neg fun h => hrest (hk.mp h), List.cons_append]

theorem nodup_keys_set (k : α) (v : β) (hnodup : (table.map Prod.fst).Nodup) :
    ((set (fun a b => a == b) k v table).map Prod.fst).Nodup := by
  rw [keys_set]
  split
  · exact hnodup
  · next hnew =>
    rw [← List.concat_eq_append]
    exact hnodup.concat hnew

/-- In a table with distinct keys, setting one changes no other entry. -/
theorem mem_set {e : α × β} (hnodup : (table.map Prod.fst).Nodup)
    (h : e ∈ set (fun a b => a == b) k v table) : e = (k, v) ∨ e ∈ table ∧ e.1 ≠ k := by
  induction table with
  | nil => exact Or.inl (List.mem_singleton.mp h)
  | cons d rest ih =>
    rw [List.map_cons, List.nodup_cons] at hnodup
    by_cases hd : d.1 = k
    · simp only [set, beq_iff_eq, hd, if_true, List.mem_cons] at h
      rcases h with rfl | h
      · exact Or.inl rfl
      · refine Or.inr ⟨List.mem_cons_of_mem d h, ?_⟩
        rintro rfl
        exact hnodup.1 (hd ▸ List.mem_map_of_mem h)
    · simp only [set, beq_iff_eq, hd, if_false, List.mem_cons] at h
      rcases h with rfl | h
      · exact Or.inr ⟨List.mem_cons_self, hd⟩
      · rcases ih hnodup.2 h with he | ⟨he, hne⟩
        · exact Or.inl he
        · exact Or.inr ⟨List.mem_cons_of_mem d he, hne⟩

theorem set_of_notMem (hnew : k ∉ table.map Prod.fst) (v : β) :
    set (fun a b => a == b) k v table = table ++ [(k, v)] := by
  induction table with
  | nil => rfl
  | cons e rest ih =>
    rw [List.map_cons, List.mem_cons, not_or] at hnew
    have he : ¬ (e.1 == k) = true := by
      intro heq
      exact hnew.1 (beq_iff_eq.mp heq).symm
    rw [set, if_neg he, ih hnew.2, List.cons_append]

/-- The table that the entries make: each key once, in the order in which the keys occur first, and with the value
of its last entry. -/
structure IsTableOf (entries table : List (α × β)) : Prop where
  keys_eq : table.map Prod.fst = (entries.map Prod.fst).eraseDups
  last : ∀ e ∈ table, ∃ before after, entries = before ++ e :: after ∧ ∀ d ∈ after, d.1 ≠ e.1

omit [LawfulBEq α] in
theorem ofEntries_append (entries : List (α × β)) (e : α × β) :
    ofEntries (fun a b => a == b) (entries ++ [e]) =
      set (fun a b => a == b) e.1 e.2 (ofEntries (fun a b => a == b) entries) := by
  rw [ofEntries, List.foldl_append]
  rfl

theorem nodup_keys_ofEntries (entries : List (α × β)) :
    ((ofEntries (fun a b => a == b) entries).map Prod.fst).Nodup := by
  induction entries using List.reverseRecOn with
  | nil => exact List.nodup_nil
  | append_singleton entries e ih =>
    rw [ofEntries_append]
    exact nodup_keys_set e.1 e.2 ih

theorem keys_ofEntries (entries : List (α × β)) :
    (ofEntries (fun a b => a == b) entries).map Prod.fst = (entries.map Prod.fst).eraseDups := by
  induction entries using List.reverseRecOn with
  | nil => rfl
  | append_singleton entries e ih =>
    have hnew : ([e.1].removeAll (entries.map Prod.fst)).eraseDups =
        if e.1 ∈ entries.map Prod.fst then [] else [e.1] := by
      by_cases h : e.1 ∈ entries.map Prod.fst
      · simp [List.removeAll, h]
      · simp [List.removeAll, h, List.eraseDups_cons]
    rw [ofEntries_append, keys_set, List.map_append, List.eraseDups_append, List.map_singleton, hnew]
    simp only [ih, List.mem_eraseDups]
    split <;> simp

/-- Setting entries one after the other makes the table of the entries. -/
theorem isTableOf_ofEntries (entries : List (α × β)) :
    IsTableOf entries (ofEntries (fun a b => a == b) entries) := by
  refine ⟨keys_ofEntries entries, ?_⟩
  induction entries using List.reverseRecOn with
  | nil =>
    intro e he
    cases he
  | append_singleton entries e ih =>
    intro d hd
    rw [ofEntries_append] at hd
    rcases mem_set (nodup_keys_ofEntries entries) hd with rfl | ⟨hd, hne⟩
    · exact ⟨entries, [], rfl, fun c hc => absurd hc List.not_mem_nil⟩
    · obtain ⟨before, after, hentries, hafter⟩ := ih d hd
      refine ⟨before, after ++ [e], by rw [hentries, List.append_assoc, List.cons_append], ?_⟩
      intro c hc
      rcases List.mem_append.mp hc with hc | hc
      · exact hafter c hc
      · rw [List.mem_singleton.mp hc]
        exact hne.symm

/-- Two entries that are each the last one of one key are the same. -/
theorem eq_of_last {entries before before' after after' : List (α × β)} {e e' : α × β}
    (h : entries = before ++ e :: after) (hafter : ∀ d ∈ after, d.1 ≠ e.1) (h' : entries = before' ++ e' :: after')
    (hafter' : ∀ d ∈ after', d.1 ≠ e'.1) (hkey : e.1 = e'.1) : e = e' := by
  have hlast : ∀ (c : α × β) (front back : List (α × β)), entries = front ++ c :: back → c.1 = e.1 →
      (∀ d ∈ back, d.1 ≠ e.1) → entries.reverse.find? (fun d => d.1 == e.1) = some c := by
    intro c front back hentries hc hback
    rw [List.find?_eq_some_iff_append]
    refine ⟨by simpa using hc, back.reverse, front.reverse, by simp [hentries], ?_⟩
    intro d hd
    simpa using hback d (List.mem_reverse.mp hd)
  have hfind := hlast e before after h rfl hafter
  rw [hlast e' before' after' h' hkey.symm (hkey ▸ hafter')] at hfind
  exact (Option.some.inj hfind).symm

/-- Entries make only one table. -/
theorem IsTableOf.unique {entries table table' : List (α × β)} (h : IsTableOf entries table)
    (h' : IsTableOf entries table') : table = table' := by
  have hvalues : ∀ e ∈ table, ∀ e' ∈ table', e.1 = e'.1 → e = e' := by
    intro e he e' he' hkey
    obtain ⟨before, after, hentries, hafter⟩ := h.last e he
    obtain ⟨before', after', hentries', hafter'⟩ := h'.last e' he'
    exact eq_of_last hentries hafter hentries' hafter' hkey
  have hkeys := h.keys_eq.trans h'.keys_eq.symm
  clear h h'
  induction table generalizing table' with
  | nil => exact (List.map_eq_nil_iff.mp hkeys.symm).symm
  | cons e rest ih =>
    cases table' with
    | nil => cases hkeys
    | cons e' rest' =>
      rw [List.map_cons, List.map_cons, List.cons.injEq] at hkeys
      rw [hvalues e List.mem_cons_self e' List.mem_cons_self hkeys.1]
      congr 1
      exact ih (fun d hd d' hd' => hvalues d (List.mem_cons_of_mem e hd) d' (List.mem_cons_of_mem e' hd')) hkeys.2

/-- Entries with distinct keys are a table as they are. -/
theorem ofEntries_of_nodup {entries : List (α × β)} (hnodup : (entries.map Prod.fst).Nodup) :
    ofEntries (fun a b => a == b) entries = entries := by
  induction entries using List.reverseRecOn with
  | nil => rfl
  | append_singleton entries e ih =>
    rw [List.map_append, List.map_singleton, List.nodup_append] at hnodup
    have hnew : e.1 ∉ entries.map Prod.fst := by
      intro hmem
      exact hnodup.2.2 e.1 hmem e.1 (List.mem_singleton.mpr rfl) rfl
    rw [ofEntries_append, ih hnodup.1, set_of_notMem hnew]

theorem isTableOf_iff {entries table : List (α × β)} :
    IsTableOf entries table ↔ ofEntries (fun a b => a == b) entries = table := by
  constructor
  · exact (isTableOf_ofEntries entries).unique
  · rintro rfl
    exact isTableOf_ofEntries entries

/-! ## Looking up in another order -/

omit [BEq α] [LawfulBEq α] in
/-- If only one key is the same as `key`, a table with distinct keys has the same under it in every order. -/
theorem get?_perm {same : α → α → Bool} {key : α} (hkey : ∀ a b, same a key = true → same b key = true → a = b)
    {table table' : List (α × β)} (h : table.Perm table') (hnodup : (table.map Prod.fst).Nodup) :
    get? same key table' = get? same key table := by
  induction h with
  | nil => rfl
  | cons e _ ih =>
    rw [List.map_cons, List.nodup_cons] at hnodup
    rw [get?, get?, ih hnodup.2]
  | swap d e rest =>
    rw [List.map_cons, List.nodup_cons, List.map_cons, List.mem_cons, not_or] at hnodup
    -- not both of the entries that change places have the key
    by_cases hd : same d.1 key = true
    · have he : ¬ same e.1 key = true := fun he => hnodup.1.1 (hkey e.1 d.1 he hd)
      rw [get?, get?, get?, get?, if_pos hd, if_neg he, if_pos hd]
    · rw [get?, get?, get?, get?, if_neg hd, if_neg hd]
  | trans h _ ih ih' =>
    have hnodup' := (h.map Prod.fst).nodup_iff.mp hnodup
    rw [ih' hnodup', ih hnodup]

end Strata.Association
