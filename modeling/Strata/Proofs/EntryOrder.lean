import Mathlib.Data.List.Forall2
import Mathlib.Data.List.Perm.Basic
import Mathlib.Tactic
import Strata.Proofs.Schema

/-!
# The order of entries in settings documents

A document is read key by key, so neither the order of its entries nor entries with unknown keys change what is read
(`Rearranged`). The rules are read block by block: in another order the same rules are set, though a document with
several faulty blocks may be refused for another one of them. The settings of a rule are looked up key by key again, but
those that only the rule itself knows are kept in their order.

All of this needs keys that are texts and differ from each other. Without that an entry can hide another one.
-/

namespace Strata

namespace Value

/-- The keys of the entries are texts, and no two are the same. -/
structure DistinctNames (entries : List (Value × Value)) : Prop where
  isText : ∀ e ∈ entries, ∃ name, e.1 = .string name
  nodup : (entries.map Prod.fst).Nodup

theorem distinctNames_of_keys {entries : List (Value × Value)} {names : List String}
    (hkeys : entries.map Prod.fst = names.map .string) (hnodup : names.Nodup) : DistinctNames entries where
  isText e he := by
    have hkey : e.1 ∈ names.map Value.string := hkeys ▸ List.mem_map_of_mem he
    obtain ⟨name, -, hname⟩ := List.mem_map.mp hkey
    exact ⟨name, hname.symm⟩
  nodup := by
    rw [hkeys]
    exact hnodup.map fun a b heq => Value.string.inj heq

theorem DistinctNames.perm {entries entries' : List (Value × Value)} (h : DistinctNames entries)
    (hperm : entries.Perm entries') : DistinctNames entries' where
  isText e he := h.isText e (hperm.mem_iff.mpr he)
  nodup := (hperm.map Prod.fst).nodup_iff.mp h.nodup

/-- Keys that are texts differ in what they are displayed as. -/
theorem DistinctNames.nodup_display {entries : List (Value × Value)} (h : DistinctNames entries) :
    (entries.map fun e => e.1.display).Nodup := by
  have hdisplay : (entries.map fun e => e.1.display) = (entries.map Prod.fst).map display := by
    rw [List.map_map]
    rfl
  rw [hdisplay]
  refine List.Nodup.map_on ?_ h.nodup
  intro k hk k' hk' heq
  obtain ⟨e, he, rfl⟩ := List.mem_map.mp hk
  obtain ⟨e', he', rfl⟩ := List.mem_map.mp hk'
  obtain ⟨name, hname⟩ := h.isText e he
  obtain ⟨name', hname'⟩ := h.isText e' he'
  rw [hname, hname'] at heq ⊢
  exact congrArg Value.string heq

theorem get?_cons (key : String) (e : Value × Value) (rest : List (Value × Value)) :
    get? key (e :: rest) = if e.1 = .string key then some e.2 else get? key rest := by
  by_cases he : e.1 = .string key
  · rw [if_pos he]
    exact if_pos (sameKey_string_iff.mpr he)
  · rw [if_neg he]
    exact if_neg fun hsame => he (sameKey_string_iff.mp hsame)

theorem get?_perm {entries entries' : List (Value × Value)} (hnodup : (entries.map Prod.fst).Nodup)
    (h : entries.Perm entries') (key : String) : get? key entries' = get? key entries := by
  refine Association.get?_perm ?_ h hnodup
  intro a b ha hb
  rw [sameKey_string_iff.mp ha, sameKey_string_iff.mp hb]

/-- Entries with other keys can be left out. -/
theorem get?_filter {p : Value → Bool} {key : String} (hkey : p (.string key) = true)
    (entries : List (Value × Value)) : get? key (entries.filter fun e => p e.1) = get? key entries := by
  induction entries with
  | nil => rfl
  | cons e rest ih =>
    rw [List.filter_cons, get?_cons]
    by_cases he : e.1 = .string key
    · have hkept : p e.1 = true := by rw [he, hkey]
      rw [if_pos hkept, get?_cons, if_pos he, if_pos he]
    · rw [if_neg he]
      split
      · rw [get?_cons, if_neg he, ih]
      · exact ih

/-- Another value in one place is seen under the key of that place only, if at all. -/
theorem get?_replace (before after : List (Value × Value)) (name key : String) (v v' : Value) :
    get? key (before ++ (.string name, v') :: after) = get? key (before ++ (.string name, v) :: after) ∨
      key = name ∧ get? key (before ++ (.string name, v) :: after) = some v ∧
        get? key (before ++ (.string name, v') :: after) = some v' := by
  induction before with
  | nil =>
    rw [List.nil_append, List.nil_append, get?_cons, get?_cons]
    by_cases hname : Value.string name = .string key
    · rw [if_pos hname, if_pos hname]
      exact Or.inr ⟨(Value.string.inj hname).symm, rfl, rfl⟩
    · rw [if_neg hname, if_neg hname]
      exact Or.inl rfl
  | cons e before ih =>
    rw [List.cons_append, List.cons_append, get?_cons, get?_cons]
    by_cases he : e.1 = .string key
    · rw [if_pos he, if_pos he]
      exact Or.inl rfl
    · rw [if_neg he, if_neg he]
      exact ih

end Value

namespace Settings

variable {known : Option (List String)}

/-! ## Entries of a document -/

/-- The entries can be made into the other ones by putting them in another order, and by putting in and leaving out
entries whose keys mean nothing. -/
inductive Rearranged : List (Value × Value) → List (Value × Value) → Prop
  | order {entries entries' : List (Value × Value)} (h : entries.Perm entries') : Rearranged entries entries'
  | insert {before after : List (Value × Value)} {e : Value × Value} (he : isNamed knownKeys e.1 = false) :
      Rearranged (before ++ after) (before ++ e :: after)
  | delete {before after : List (Value × Value)} {e : Value × Value} (he : isNamed knownKeys e.1 = false) :
      Rearranged (before ++ e :: after) (before ++ after)
  | trans {first second third : List (Value × Value)} (h : Rearranged first second) (h' : Rearranged second third) :
      Rearranged first third

theorem filter_known_insert {e : Value × Value} (he : isNamed knownKeys e.1 = false)
    (before after : List (Value × Value)) :
    (before ++ e :: after).filter (fun e => isNamed knownKeys e.1) =
      (before ++ after).filter fun e => isNamed knownKeys e.1 := by
  have hskip : ¬ isNamed knownKeys e.1 = true := by
    rw [he]
    decide
  rw [List.filter_append, List.filter_append, List.filter_cons, if_neg hskip]

/-- However entries are rearranged, those with known keys stay. -/
theorem Rearranged.filter_perm {entries entries' : List (Value × Value)} (h : Rearranged entries entries') :
    (entries.filter fun e => isNamed knownKeys e.1).Perm (entries'.filter fun e => isNamed knownKeys e.1) := by
  induction h with
  | order h => exact h.filter _
  | insert he => rw [filter_known_insert he]
  | delete he => rw [filter_known_insert he]
  | trans _ _ ih ih' => exact ih.trans ih'

theorem checkVersion_congr {entries entries' : List (Value × Value)}
    (h : Value.get? "version" entries' = Value.get? "version" entries) :
    checkVersion entries' = checkVersion entries := by
  unfold checkVersion
  rw [h]

/-- Reading a document looks at nothing but what stands under the known keys. -/
theorem ofValue_congr {entries entries' : List (Value × Value)}
    (h : ∀ key ∈ knownKeys, Value.get? key entries' = Value.get? key entries) :
    ofValue known (.map entries') = ofValue known (.map entries) := by
  have hcheck := checkVersion_congr (h "version" (by decide))
  have hbase := h "project_base" (by decide)
  have hmarker := h "test_marker" (by decide)
  have hexcludes := h "excludes" (by decide)
  have hrules := h ruleSetName (by decide)
  have hread : ofEntries known entries' = ofEntries known entries := by
    unfold ofEntries
    rw [hbase, hmarker, hexcludes, hrules]
  rw [ofValue, ofValue, hcheck, hread]

theorem ofValue_of_rearranged {entries entries' : List (Value × Value)}
    (hnodup : (entries.map Prod.fst).Nodup) (h : Rearranged entries entries') :
    ofValue known (.map entries') = ofValue known (.map entries) := by
  apply ofValue_congr
  intro key hkey
  have hknown : isNamed knownKeys (.string key) = true := List.contains_iff_mem.mpr hkey
  have hkept : ((entries.filter fun e => isNamed knownKeys e.1).map Prod.fst).Nodup :=
    hnodup.sublist (List.filter_sublist.map Prod.fst)
  calc Value.get? key entries'
      = Value.get? key (entries'.filter fun e => isNamed knownKeys e.1) := (Value.get?_filter hknown entries').symm
    _ = Value.get? key (entries.filter fun e => isNamed knownKeys e.1) := Value.get?_perm hkept h.filter_perm key
    _ = Value.get? key entries := Value.get?_filter hknown entries

theorem level_of_mem_logsOfValue {v : Value} {r : LogRecord} (h : r ∈ logsOfValue v) : r.level = .debug := by
  obtain ⟨key, -, rfl⟩ := List.mem_map.mp h
  rfl

/-! ## Readings that agree -/

/-- Both readings fail, with related errors, or both succeed, with related results. -/
inductive Agree {α : Type} (E : SettingsError → SettingsError → Prop) (R : α → α → Prop) :
    Except SettingsError α → Except SettingsError α → Prop
  | error {e e' : SettingsError} (h : E e e') : Agree E R (.error e) (.error e')
  | ok {a a' : α} (h : R a a') : Agree E R (.ok a) (.ok a')

section

variable {α β : Type} {E : SettingsError → SettingsError → Prop} {R S : α → α → Prop} {T : β → β → Prop}

theorem agree_refl (hE : ∀ e, E e e) (hR : ∀ a, R a a) (x : Except SettingsError α) : Agree E R x x := by
  cases x with
  | error e => exact .error (hE e)
  | ok a => exact .ok (hR a)

theorem Agree.imp {x x' : Except SettingsError α} (h : Agree E R x x') (himp : ∀ a a', R a a' → S a a') :
    Agree E S x x' := by
  cases h with
  | error h => exact .error h
  | ok h => exact .ok (himp _ _ h)

theorem Agree.bind {x x' : Except SettingsError α} {f f' : α → Except SettingsError β} (h : Agree E R x x')
    (hf : ∀ a a', R a a' → Agree E T (f a) (f' a')) : Agree E T (x >>= f) (x' >>= f') := by
  cases h with
  | error h => exact .error h
  | ok h => exact hf _ _ h

/-- What comes of one reading agrees, if what is made of it does. -/
theorem agree_bind_self (hE : ∀ e, E e e) (x : Except SettingsError α) {f f' : α → Except SettingsError β}
    (hf : ∀ a, Agree E T (f a) (f' a)) : Agree E T (x >>= f) (x >>= f') := by
  refine (agree_refl hE (fun a => (rfl : a = a)) x).bind ?_
  rintro a _ rfl
  exact hf a

end

/-- The settings say the same of the run as a whole. -/
structure SameRun (s s' : Settings) : Prop where
  projectBase_eq : s'.projectBase = s.projectBase
  testMarker_eq : s'.testMarker = s.testMarker
  excludes_eq : s'.excludes = s.excludes

/-- The settings say the same of the run, and their tables of rules are related. -/
structure SameButRules (T : List (String × RuleSettings) → List (String × RuleSettings) → Prop) (s s' : Settings) :
    Prop extends SameRun s s' where
  rules : T s.rules s'.rules

/-- Documents that differ in what they have for the rules are read alike, as far as that is read alike. -/
theorem ofValue_replace_agree {E : SettingsError → SettingsError → Prop}
    {T : List (String × RuleSettings) → List (String × RuleSettings) → Prop} (hE : ∀ e, E e e)
    (hT : ∀ table, T table table) (before after : List (Value × Value)) {v v' : Value}
    (h : Agree E T (ruleBlocks (some v) >>= rulesOfBlocks known []) (ruleBlocks (some v') >>= rulesOfBlocks known [])) :
    Agree E (SameButRules T) (ofValue known (.map (before ++ (.string ruleSetName, v) :: after)))
      (ofValue known (.map (before ++ (.string ruleSetName, v') :: after))) := by
  have hother : ∀ key, key ≠ ruleSetName →
      Value.get? key (before ++ (.string ruleSetName, v') :: after) =
        Value.get? key (before ++ (.string ruleSetName, v) :: after) := by
    intro key hkey
    rcases Value.get?_replace before after ruleSetName key v v' with hsame | ⟨hname, -⟩
    · exact hsame
    · exact absurd hname hkey
  rcases Value.get?_replace before after ruleSetName ruleSetName v v' with hsame | ⟨-, hv, hv'⟩
  · -- an entry before it hides the one that differs
    have hread : ofValue known (.map (before ++ (.string ruleSetName, v') :: after)) =
        ofValue known (.map (before ++ (.string ruleSetName, v) :: after)) := by
      apply ofValue_congr
      intro key _
      by_cases hkey : key = ruleSetName
      · rw [hkey]
        exact hsame
      · exact hother key hkey
    rw [hread]
    exact agree_refl hE (fun s => ⟨⟨rfl, rfl, rfl⟩, hT s.rules⟩) _
  · generalize before ++ (.string ruleSetName, v) :: after = entries at hother hv ⊢
    generalize before ++ (.string ruleSetName, v') :: after = entries' at hother hv' ⊢
    have hcheck := checkVersion_congr (hother "version" (by decide))
    rw [ofValue, ofValue, hcheck, ofEntries_eq, ofEntries_eq, hother "project_base" (by decide),
      hother "test_marker" (by decide), hother "excludes" (by decide)]
    have hv : Value.get? "architecture-layer-rules" entries = some v := hv
    have hv' : Value.get? "architecture-layer-rules" entries' = some v' := hv'
    rw [hv, hv']
    refine agree_bind_self hE _ fun _ => ?_
    refine agree_bind_self hE _ fun base => ?_
    refine agree_bind_self hE _ fun marker => ?_
    refine agree_bind_self hE _ fun excludes => ?_
    refine h.bind ?_
    intro table table' htable
    exact .ok ⟨⟨rfl, rfl, rfl⟩, htable⟩

/-! ## Blocks of rules in another order -/

/-- The settings say the same of the run and of every rule; they may name the rules in another order. -/
structure SameUpToOrder (s s' : Settings) : Prop extends SameRun s s' where
  rule_eq : ∀ name, s'.rule name = s.rule name

theorem map_fst_of_forall₂ {blocks : List (Value × Value)} {parsed : List (String × RuleSettings)}
    (h : List.Forall₂ (BlockIs known) blocks parsed) :
    parsed.map Prod.fst = blocks.map fun block => block.1.display := by
  induction h with
  | nil => rfl
  | cons hblock _ ih => rw [List.map_cons, List.map_cons, ih, hblock.name_eq]

/-- Blocks with distinct names set the same rules in every order. -/
theorem RulesAre.perm {blocks blocks' : List (Value × Value)} (hnames : Value.DistinctNames blocks)
    (hperm : blocks.Perm blocks') {table : List (String × RuleSettings)}
    (h : RulesAre known (some (.map blocks)) table) :
    ∃ table', RulesAre known (some (.map blocks')) table' ∧ table.Perm table' ∧ (table.map Prod.fst).Nodup := by
  cases h with
  | @blocks _ parsed _ hparsed htable =>
    have hkeys := map_fst_of_forall₂ hparsed
    have hnodup : (parsed.map Prod.fst).Nodup := by
      rw [hkeys]
      exact hnames.nodup_display
    obtain ⟨parsed', hparsed', hparsedPerm⟩ := List.perm_comp_forall₂ hperm.symm hparsed
    have hnodup' : (parsed'.map Prod.fst).Nodup := (hparsedPerm.map Prod.fst).nodup_iff.mpr hnodup
    -- no name occurs twice, so the rules are set as they are read
    have htable : parsed = table := by
      rw [← Association.ofEntries_of_nodup hnodup]
      exact Association.isTableOf_iff.mp htable
    subst htable
    refine ⟨parsed', .blocks hparsed' ?_, hparsedPerm.symm, hnodup⟩
    exact Association.isTableOf_iff.mpr (Association.ofEntries_of_nodup hnodup')

/-- The tables have the same under every name. -/
def SameTable (table table' : List (String × RuleSettings)) : Prop :=
  ∀ name, Association.get? (fun a b => a == b) name table' = Association.get? (fun a b => a == b) name table

theorem rulesOfBlocks_perm_agree (known : Option (List String)) {blocks blocks' : List (Value × Value)}
    (hnames : Value.DistinctNames blocks) (hperm : blocks.Perm blocks') :
    Agree (fun _ _ => True) SameTable (ruleBlocks (some (.map blocks)) >>= rulesOfBlocks known [])
      (ruleBlocks (some (.map blocks')) >>= rulesOfBlocks known []) := by
  cases hread : (ruleBlocks (some (.map blocks)) >>= rulesOfBlocks known []) with
  | ok table =>
    obtain ⟨table', htable', htables, hnodup⟩ := (rules_eq_ok_iff.mp hread).perm hnames hperm
    rw [rules_eq_ok_iff.mpr htable']
    refine .ok ?_
    intro name
    refine Association.get?_perm ?_ htables hnodup
    intro a b ha hb
    rw [beq_iff_eq.mp ha, beq_iff_eq.mp hb]
  | error e =>
    cases hread' : (ruleBlocks (some (.map blocks')) >>= rulesOfBlocks known []) with
    | error e' => exact .error trivial
    | ok table' =>
      -- the blocks in the one order would be read if those in the other are
      obtain ⟨table, htable, -⟩ := (rules_eq_ok_iff.mp hread').perm (hnames.perm hperm) hperm.symm
      rw [rules_eq_ok_iff.mpr htable] at hread
      cases hread

/-! ## Settings of one rule in another order -/

/-- The rule is set alike, but for the order of the settings that only the rule itself knows. -/
structure SameRuleUpToOrder (r r' : RuleSettings) : Prop where
  active_eq : r'.active = r.active
  severity_eq : r'.severity = r.severity
  excludes_eq : r'.excludes = r.excludes
  options_perm : r'.options.Perm r.options

theorem sameRuleUpToOrder_refl (r : RuleSettings) : SameRuleUpToOrder r r :=
  ⟨rfl, rfl, rfl, List.Perm.refl _⟩

theorem optionsOf_eq_map {entries : List (Value × Value)} (hnames : Value.DistinctNames entries) :
    optionsOf entries =
      (entries.filter fun e => !isNamed commonRuleKeys e.1).map fun e => (e.1.display, e.2) := by
  refine Association.ofEntries_of_nodup ?_
  rw [List.map_map]
  exact hnames.nodup_display.sublist (List.filter_sublist.map _)

theorem optionsOf_perm {entries entries' : List (Value × Value)} (hnames : Value.DistinctNames entries)
    (hperm : entries.Perm entries') : (optionsOf entries').Perm (optionsOf entries) := by
  rw [optionsOf_eq_map hnames, optionsOf_eq_map (hnames.perm hperm)]
  exact (hperm.symm.filter _).map _

theorem ruleOfValue_perm_agree (name : String) {entries entries' : List (Value × Value)}
    (hnames : Value.DistinctNames entries) (hperm : entries.Perm entries') :
    Agree Eq SameRuleUpToOrder (ruleOfValue name (.map entries)) (ruleOfValue name (.map entries')) := by
  have hget := Value.get?_perm hnames.nodup hperm
  rw [ruleOfValue, ruleOfValue, hget "active", hget "severity", hget "excludes"]
  refine agree_bind_self (fun _ => rfl) _ fun active => ?_
  refine agree_bind_self (fun _ => rfl) _ fun severity => ?_
  refine agree_bind_self (fun _ => rfl) _ fun excludes => ?_
  exact .ok ⟨rfl, rfl, rfl, optionsOf_perm hnames hperm⟩

/-- Entries of two tables that differ for the rule `rule` only, and there in the order of its own settings. -/
structure SameEntry (rule : String) (a b : String × RuleSettings) : Prop where
  name_eq : b.1 = a.1
  same : SameRuleUpToOrder a.2 b.2
  eq_of_ne : a.1 ≠ rule → b.2 = a.2

theorem sameEntry_refl (rule : String) (a : String × RuleSettings) : SameEntry rule a a :=
  ⟨rfl, sameRuleUpToOrder_refl a.2, fun _ => rfl⟩

theorem forall₂_sameEntry_refl (rule : String) (table : List (String × RuleSettings)) :
    List.Forall₂ (SameEntry rule) table table :=
  List.forall₂_same.mpr fun a _ => sameEntry_refl rule a

theorem set_forall₂ {rule name : String} {r r' : RuleSettings} (hr : SameEntry rule (name, r) (name, r'))
    {table table' : List (String × RuleSettings)} (h : List.Forall₂ (SameEntry rule) table table') :
    List.Forall₂ (SameEntry rule) (Association.set (fun a b => a == b) name r table)
      (Association.set (fun a b => a == b) name r' table') := by
  induction h with
  | nil => exact .cons hr .nil
  | @cons a b table table' hab htables ih =>
    rw [Association.set, Association.set, hab.name_eq]
    by_cases hname : (a.1 == name) = true
    · rw [if_pos hname, if_pos hname]
      have ha : a.1 = name := beq_iff_eq.mp hname
      refine .cons ⟨rfl, hr.same, ?_⟩ htables
      intro hne
      exact hr.eq_of_ne (ha ▸ hne)
    · rw [if_neg hname, if_neg hname]
      refine .cons ⟨rfl, hab.same, hab.eq_of_ne⟩ ih

/-- Blocks that stand for the same rule and set it alike, but for the order of its own settings. -/
structure SameBlock (rule : String) (block block' : Value × Value) : Prop where
  key_eq : block'.1 = block.1
  agree : Agree Eq (fun r r' => SameEntry rule (block.1.display, r) (block.1.display, r'))
    (ruleOfValue block.1.display block.2) (ruleOfValue block.1.display block'.2)

theorem rulesOfBlocks_agree {rule : String} {blocks blocks' : List (Value × Value)}
    (hblocks : List.Forall₂ (SameBlock rule) blocks blocks') {table table' : List (String × RuleSettings)}
    (htable : List.Forall₂ (SameEntry rule) table table') :
    Agree Eq (List.Forall₂ (SameEntry rule)) (rulesOfBlocks known table blocks)
      (rulesOfBlocks known table' blocks') := by
  induction hblocks generalizing table table' with
  | nil => exact .ok htable
  | @cons block block' rest rest' hblock _ ih =>
    obtain ⟨key, v⟩ := block
    obtain ⟨key', v'⟩ := block'
    obtain ⟨rfl, hagree⟩ := hblock
    have hrest : Agree Eq (List.Forall₂ (SameEntry rule))
        (ruleOfValue key'.display v >>= fun r =>
          rulesOfBlocks known (Association.set (fun a b => a == b) key'.display r table) rest)
        (ruleOfValue key'.display v' >>= fun r =>
          rulesOfBlocks known (Association.set (fun a b => a == b) key'.display r table') rest') := by
      refine hagree.bind ?_
      intro r r' hr
      exact ih (set_forall₂ hr htable)
    cases known with
    | none => exact hrest
    | some names =>
      rw [rulesOfBlocks, rulesOfBlocks]
      by_cases hname : names.contains key'.display = true
      · rw [if_pos hname, if_pos hname]
        exact hrest
      · rw [if_neg hname, if_neg hname]
        exact .error rfl

theorem sameBlock_refl (rule : String) (block : Value × Value) : SameBlock rule block block :=
  ⟨rfl, agree_refl (fun _ => rfl) (fun r => sameEntry_refl rule (block.1.display, r)) _⟩

theorem sameBlock_of_perm (key : Value) {entries entries' : List (Value × Value)}
    (hnames : Value.DistinctNames entries) (hperm : entries.Perm entries') :
    SameBlock key.display (key, .map entries) (key, .map entries') := by
  refine ⟨rfl, (ruleOfValue_perm_agree key.display hnames hperm).imp ?_⟩
  intro r r' hr
  exact ⟨rfl, hr, fun hne => absurd rfl hne⟩

theorem rulesOfBlocks_replace_agree (known : Option (List String)) (earlier later : List (Value × Value)) (key : Value)
    {entries entries' : List (Value × Value)} (hnames : Value.DistinctNames entries) (hperm : entries.Perm entries') :
    Agree Eq (List.Forall₂ (SameEntry key.display))
      (ruleBlocks (some (.map (earlier ++ (key, .map entries) :: later))) >>= rulesOfBlocks known [])
      (ruleBlocks (some (.map (earlier ++ (key, .map entries') :: later))) >>= rulesOfBlocks known []) := by
  have hearlier : List.Forall₂ (SameBlock key.display) earlier earlier :=
    List.forall₂_same.mpr fun block _ => sameBlock_refl _ block
  have hlater : List.Forall₂ (SameBlock key.display) later later :=
    List.forall₂_same.mpr fun block _ => sameBlock_refl _ block
  have hblocks := List.rel_append hearlier (List.Forall₂.cons (sameBlock_of_perm key hnames hperm) hlater)
  exact rulesOfBlocks_agree hblocks List.Forall₂.nil

/-- The settings name the same rules in the same order and set them alike, but for the order of the settings that only
the rule `rule` itself knows. -/
structure SameUpToOptions (rule : String) (s s' : Settings) : Prop extends SameRun s s' where
  names_eq : s'.rules.map Prod.fst = s.rules.map Prod.fst
  rule_same : SameRuleUpToOrder (s.rule rule) (s'.rule rule)
  others_eq : ∀ name, name ≠ rule → s'.rule name = s.rule name

theorem keys_of_forall₂ {rule : String} {table table' : List (String × RuleSettings)}
    (h : List.Forall₂ (SameEntry rule) table table') : table'.map Prod.fst = table.map Prod.fst := by
  induction h with
  | nil => rfl
  | cons hab _ ih => rw [List.map_cons, List.map_cons, ih, hab.name_eq]

theorem sameEntry_get? {rule : String} {table table' : List (String × RuleSettings)}
    (h : List.Forall₂ (SameEntry rule) table table') (name : String) :
    SameEntry rule (name, (Association.get? (fun a b => a == b) name table).getD {})
      (name, (Association.get? (fun a b => a == b) name table').getD {}) := by
  induction h with
  | nil => exact sameEntry_refl rule (name, {})
  | @cons a b table table' hab _ ih =>
    rw [Association.get?, Association.get?, hab.name_eq]
    by_cases hname : (a.1 == name) = true
    · rw [if_pos hname, if_pos hname]
      have ha : a.1 = name := beq_iff_eq.mp hname
      exact ⟨rfl, hab.same, fun hne => hab.eq_of_ne (ha ▸ hne)⟩
    · rw [if_neg hname, if_neg hname]
      exact ih

theorem sameUpToOptions_of_forall₂ {rule : String} {s s' : Settings}
    (h : SameButRules (List.Forall₂ (SameEntry rule)) s s') : SameUpToOptions rule s s' where
  toSameRun := h.toSameRun
  names_eq := keys_of_forall₂ h.rules
  rule_same := (sameEntry_get? h.rules rule).same
  others_eq name hne := (sameEntry_get? h.rules name).eq_of_ne hne

/-! ## What the order of entries changes -/

/-- Putting the entries of a document in another order, and putting in or leaving out entries with unknown keys, changes
nothing but what is told about unknown keys. With the blocks of the rules in another order the document is read iff it
was read before, and every rule is set as before. With the settings of one rule in another order the same error or the
same settings are read, up to the order of what only that rule knows. -/
theorem reading_ignores_entry_order (known : Option (List String)) :
    (∀ entries entries' : List (Value × Value), Value.DistinctNames entries → Rearranged entries entries' →
      ofValue known (.map entries') = ofValue known (.map entries) ∧
        ∀ r ∈ logsOfValue (.map entries) ++ logsOfValue (.map entries'), r.level = .debug) ∧
    (∀ before after blocks blocks' : List (Value × Value), Value.DistinctNames blocks → blocks.Perm blocks' →
      Agree (fun _ _ => True) SameUpToOrder
        (ofValue known (.map (before ++ (.string ruleSetName, .map blocks) :: after)))
        (ofValue known (.map (before ++ (.string ruleSetName, .map blocks') :: after)))) ∧
    ∀ (before after earlier later : List (Value × Value)) (key : Value) (entries entries' : List (Value × Value)),
      Value.DistinctNames entries → entries.Perm entries' →
      Agree Eq (SameUpToOptions key.display)
        (ofValue known (.map (before ++
          (.string ruleSetName, .map (earlier ++ (key, .map entries) :: later)) :: after)))
        (ofValue known (.map (before ++
          (.string ruleSetName, .map (earlier ++ (key, .map entries') :: later)) :: after))) := by
  refine ⟨?_, ?_, ?_⟩
  · intro entries entries' hnames hrearranged
    refine ⟨ofValue_of_rearranged hnames.nodup hrearranged, ?_⟩
    intro r hr
    rcases List.mem_append.mp hr with hr | hr
    · exact level_of_mem_logsOfValue hr
    · exact level_of_mem_logsOfValue hr
  · intro before after blocks blocks' hnames hperm
    have hrules := rulesOfBlocks_perm_agree known hnames hperm
    have hread := ofValue_replace_agree (fun _ => trivial) (fun _ _ => rfl) before after hrules
    refine hread.imp ?_
    intro s s' hs
    exact ⟨hs.toSameRun, fun name => congrArg (·.getD {}) (hs.rules name)⟩
  · intro before after earlier later key entries entries' hnames hperm
    have hrules := rulesOfBlocks_replace_agree known earlier later key hnames hperm
    have hread := ofValue_replace_agree (fun _ => rfl) (forall₂_sameEntry_refl key.display) before after hrules
    refine hread.imp ?_
    intro s s' hs
    exact sameUpToOptions_of_forall₂ hs

/-- Of two faulty blocks the first one is named. -/
example :
    ofValue none (.map [(.string "version", .int 1),
      (.string ruleSetName, .map [(.string "A", .int 0), (.string "B", .int 0)])]) = .error (.ruleNotMapping "A") ∧
    ofValue none (.map [(.string "version", .int 1),
      (.string ruleSetName, .map [(.string "B", .int 0), (.string "A", .int 0)])]) = .error (.ruleNotMapping "B") :=
  ⟨rfl, rfl⟩

namespace TwoRules

def version : Value × Value :=
  (.string "version", .int 1)

def marker : Value × Value :=
  (.string "test_marker", .string "/spec/")

/-- An entry that means nothing. -/
def note : Value × Value :=
  (.string "note", .list [])

def depth : Value × Value :=
  (.string "depth", .int 2)

def active : Value × Value :=
  (.string "active", .bool false)

def label : Value × Value :=
  (.string "label", .string "x")

/-- The first rule, with settings of its own besides the one that says whether it is on. -/
def first (entries : List (Value × Value)) : Value × Value :=
  (.string "A", .map entries)

def second : Value × Value :=
  (.string "B", .null)

def document (blocks : List (Value × Value)) : Value :=
  .map ([version] ++ (.string ruleSetName, .map blocks) :: [])

theorem rearranged : Rearranged [note, version, marker] [marker, version] := by
  have hdelete : Rearranged ([] ++ note :: [version, marker]) ([] ++ [version, marker]) := .delete rfl
  exact hdelete.trans (.order (List.Perm.swap marker version []))

theorem distinctNames_entries : Value.DistinctNames [note, version, marker] :=
  Value.distinctNames_of_keys (show _ = ["note", "version", "test_marker"].map Value.string from rfl) (by decide)

theorem distinctNames_settings : Value.DistinctNames [depth, active, label] :=
  Value.distinctNames_of_keys (show _ = ["depth", "active", "label"].map Value.string from rfl) (by decide)

theorem distinctNames_blocks : Value.DistinctNames [first [depth, active, label], second] :=
  Value.distinctNames_of_keys (show _ = ["A", "B"].map Value.string from rfl) (by decide)

end TwoRules

/-- A document without its note and in another order, one with its two rules in another order, and one with the settings
of a rule in another order. -/
theorem order_of_two_rules :
    (Value.DistinctNames [TwoRules.note, TwoRules.version, TwoRules.marker] ∧
      Rearranged [TwoRules.note, TwoRules.version, TwoRules.marker] [TwoRules.marker, TwoRules.version] ∧
      ofValue none (.map [TwoRules.marker, TwoRules.version]) =
        ofValue none (.map [TwoRules.note, TwoRules.version, TwoRules.marker])) ∧
    let settings := [TwoRules.depth, TwoRules.active, TwoRules.label]
    let first := TwoRules.first settings
    (∃ s, ofValue none (TwoRules.document [first, TwoRules.second]) = .ok s ∧
      (s.rule "A").options = [("depth", .int 2), ("label", .string "x")]) ∧
    (Value.DistinctNames [first, TwoRules.second] ∧
      Agree (fun _ _ => True) SameUpToOrder (ofValue none (TwoRules.document [first, TwoRules.second]))
        (ofValue none (TwoRules.document [TwoRules.second, first]))) ∧
    Value.DistinctNames settings ∧
      Agree Eq (SameUpToOptions "A") (ofValue none (TwoRules.document [first, TwoRules.second]))
        (ofValue none (TwoRules.document [TwoRules.first settings.reverse, TwoRules.second])) := by
  obtain ⟨hdocument, hblocks, hrule⟩ := reading_ignores_entry_order none
  have hentries := TwoRules.distinctNames_entries
  have hnames := TwoRules.distinctNames_blocks
  have hsettings := TwoRules.distinctNames_settings
  have hsame := (hdocument _ _ hentries TwoRules.rearranged).1
  refine ⟨⟨hentries, TwoRules.rearranged, hsame⟩, ⟨_, rfl, rfl⟩, ⟨hnames, ?_⟩, hsettings, ?_⟩
  · exact hblocks [TwoRules.version] [] _ _ hnames (List.Perm.swap _ _ _)
  · exact hrule [TwoRules.version] [] [] [TwoRules.second] (.string "A") _ _ hsettings (List.reverse_perm _).symm

end Settings

end Strata
