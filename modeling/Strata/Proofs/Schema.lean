import Mathlib.Data.List.Forall2
import Mathlib.Tactic
import Strata.Settings.Schema
import Strata.Proofs.Tables
import Strata.Proofs.Trimming
import Strata.Proofs.Values

/-!
# The documents that settings are read from

`Settings.Conforms` is the schema: the conditions that the entries of a document must meet, each in terms of what
stands under a key. `Settings.Describes` says of a document which settings it describes. Reading a document succeeds
iff it conforms, and then gives the settings that the document describes.

Each setting is read by a stage of its own. A stage has a relation between what stands under its key and what it reads
(`BaseIs`, `MarkerIs`, …), and it is shown once that the stage succeeds with exactly the related results.
-/

namespace Strata.Settings

open Value (Under exists_under_iff)

variable {known : Option (List String)} {entries : List (Value × Value)}

/-! ## What a setting reads as -/

/-- What stands for globs: nothing, one text, or a list whose items are taken as texts. -/
inductive GlobsAre : Option Value → List String → Prop
  | absent : GlobsAre none []
  | null : GlobsAre (some .null) []
  | text (s : String) : GlobsAre (some (.string s)) [s]
  | list (items : List Value) : GlobsAre (some (.list items)) (items.map Value.display)

inductive ActiveIs : Option Value → Bool → Prop
  | absent : ActiveIs none true
  | given (b : Bool) : ActiveIs (some (.bool b)) b

/-- Whatever kind of value names the severity, its text counts. -/
inductive SeverityIs : Option Value → Severity → Prop
  | absent : SeverityIs none .error
  | error {v : Value} (hv : v.display = "error") : SeverityIs (some v) .error
  | warn {v : Value} (hv : v.display = "warn") : SeverityIs (some v) .warn

inductive BaseIs : Option Value → String → Prop
  | absent : BaseIs none Layer.defaultBase
  | given {s base : String} (hs : ∃ c ∈ s.toList, Text.isBlank c = false) (hbase : Text.IsTrimOf s base) :
      BaseIs (some (.string s)) base

inductive MarkerIs : Option Value → String → Prop
  | absent : MarkerIs none defaultTestMarker
  | given {s : String} (hs : s ≠ "") : MarkerIs (some (.string s)) s

/-- The entries of a rule's settings that only the rule itself knows, each under the text of its key. -/
def ownEntries (entries : List (Value × Value)) : List (String × Value) :=
  (entries.filter fun e =>
    e.1 ≠ .string "active" ∧ e.1 ≠ .string "severity" ∧ e.1 ≠ .string "excludes").map fun e => (e.1.display, e.2)

/-- The settings of a rule that stand in a block. -/
inductive RuleIs : Value → RuleSettings → Prop
  | null : RuleIs .null {}
  | map {entries : List (Value × Value)} {r : RuleSettings}
      (hactive : ∃ o, Under entries "active" o ∧ ActiveIs o r.active)
      (hseverity : ∃ o, Under entries "severity" o ∧ SeverityIs o r.severity)
      (hexcludes : ∃ o, Under entries "excludes" o ∧ GlobsAre o r.excludes)
      (hoptions : Association.IsTableOf (ownEntries entries) r.options) : RuleIs (.map entries) r

/-- The block of a rule, with the name and the settings it gives the rule. Where the rules are known, it names one of
them. -/
structure BlockIs (known : Option (List String)) (block : Value × Value) (rule : String × RuleSettings) : Prop where
  name_eq : rule.1 = block.1.display
  mem_known : ∀ names ∈ known, rule.1 ∈ names
  settings : RuleIs block.2 rule.2

/-- What stands for the rules, and the table of their settings. -/
inductive RulesAre (known : Option (List String)) : Option Value → List (String × RuleSettings) → Prop
  | absent : RulesAre known none []
  | null : RulesAre known (some .null) []
  | blocks {blocks : List (Value × Value)} {parsed table : List (String × RuleSettings)}
      (hparsed : List.Forall₂ (BlockIs known) blocks parsed) (htable : Association.IsTableOf parsed table) :
      RulesAre known (some (.map blocks)) table

/-- The settings that a document with these entries describes. -/
structure Describes (known : Option (List String)) (entries : List (Value × Value)) (s : Settings) : Prop where
  version : ∃ v, Under entries "version" (some v) ∧ v.IsOne
  base : ∃ o, Under entries "project_base" o ∧ BaseIs o s.projectBase
  marker : ∃ o, Under entries "test_marker" o ∧ MarkerIs o s.testMarker
  excludes : ∃ o, Under entries "excludes" o ∧ GlobsAre o s.excludes
  rules : ∃ o, Under entries "architecture-layer-rules" o ∧ RulesAre known o s.rules

/-! ## The schema -/

/-- A value that may stand for globs. -/
inductive MayBeGlobs : Value → Prop
  | null : MayBeGlobs .null
  | text (s : String) : MayBeGlobs (.string s)
  | list (items : List Value) : MayBeGlobs (.list items)

/-- A block that may stand for the settings of a rule. -/
inductive RuleConforms : Value → Prop
  | null : RuleConforms .null
  | map {entries : List (Value × Value)}
      (hactive : ∀ v, Under entries "active" (some v) → ∃ b, v = .bool b)
      (hseverity : ∀ v, Under entries "severity" (some v) → v.display = "error" ∨ v.display = "warn")
      (hexcludes : ∀ v, Under entries "excludes" (some v) → MayBeGlobs v) : RuleConforms (.map entries)

/-- A value that may stand for the rules: a block for each of them. -/
inductive RulesConform (known : Option (List String)) : Value → Prop
  | null : RulesConform known .null
  | map {blocks : List (Value × Value)} (hnames : ∀ block ∈ blocks, ∀ names ∈ known, block.1.display ∈ names)
      (hblocks : ∀ block ∈ blocks, RuleConforms block.2) : RulesConform known (.map blocks)

/-- The entries of a document that is of the schema. -/
structure Conforms (known : Option (List String)) (entries : List (Value × Value)) : Prop where
  version : ∃ v, Under entries "version" (some v) ∧ v.IsOne
  base : ∀ v, Under entries "project_base" (some v) → ∃ s, v = .string s ∧ ∃ c ∈ s.toList, Text.isBlank c = false
  marker : ∀ v, Under entries "test_marker" (some v) → ∃ s, v = .string s ∧ s ≠ ""
  excludes : ∀ v, Under entries "excludes" (some v) → MayBeGlobs v
  rules : ∀ v, Under entries "architecture-layer-rules" (some v) → RulesConform known v

/-! ## The stages -/

theorem exists_under_of_forall {α : Type} {key : String} {P : Option Value → α → Prop} {Q : Value → Prop}
    (habsent : ∃ a, P none a) (hgiven : ∀ {v}, (∃ a, P (some v) a) ↔ Q v)
    (h : ∀ v, Under entries key (some v) → Q v) : ∃ a, ∃ o, Under entries key o ∧ P o a := by
  simp only [exists_under_iff]
  cases hget : Value.get? key entries with
  | none => exact habsent
  | some v => exact hgiven.mpr (h v (Value.under_iff.mpr hget))

theorem forall_under_of_exists {α : Type} {key : String} {P : Option Value → α → Prop} {Q : Value → Prop} {a : α}
    (hgiven : ∀ {v}, (∃ a, P (some v) a) ↔ Q v) (h : ∃ o, Under entries key o ∧ P o a) :
    ∀ v, Under entries key (some v) → Q v := by
  intro v hv
  rw [exists_under_iff, Value.under_iff.mp hv] at h
  exact hgiven.mp ⟨a, h⟩

theorem bind_eq_ok_iff {ε α β : Type} {x : Except ε α} {f : α → Except ε β} {b : β} :
    x >>= f = .ok b ↔ ∃ a, x = .ok a ∧ f a = .ok b := by
  cases x <;> simp [bind, Except.bind]

theorem globs_eq_ok_iff {rule : Option String} {o : Option Value} {globs : List String} :
    Settings.globs rule o = .ok globs ↔ GlobsAre o globs := by
  constructor
  · intro h
    unfold Settings.globs at h
    split at h <;> cases h
    · exact .absent
    · exact .null
    · exact .text _
    · exact .list _
  · rintro ⟨⟩ <;> rfl

theorem activeOf_eq_ok_iff {name : String} {o : Option Value} {active : Bool} :
    activeOf name o = .ok active ↔ ActiveIs o active := by
  constructor
  · intro h
    unfold activeOf at h
    split at h <;> cases h
    · exact .absent
    · exact .given _
  · rintro ⟨⟩ <;> rfl

theorem severityOf_eq_ok_iff {name : String} {o : Option Value} {severity : Severity} :
    severityOf name o = .ok severity ↔ SeverityIs o severity := by
  constructor
  · intro h
    unfold severityOf at h
    split at h
    · cases h
      exact .absent
    · next v =>
      unfold Severity.ofName? at h
      by_cases herror : v.display = "error"
      · rw [if_pos herror] at h
        cases h
        exact .error herror
      · rw [if_neg herror] at h
        by_cases hwarn : v.display = "warn"
        · rw [if_pos hwarn] at h
          cases h
          exact .warn hwarn
        · rw [if_neg hwarn] at h
          cases h
  · rintro (_ | hv | hv)
    · rfl
    · rw [severityOf, hv]
      rfl
    · rw [severityOf, hv]
      rfl

theorem projectBaseOf_eq_ok_iff {o : Option Value} {base : String} : projectBaseOf o = .ok base ↔ BaseIs o base := by
  have hdefault : Text.trim Layer.defaultBase = Layer.defaultBase := by decide
  constructor
  · intro h
    unfold projectBaseOf at h
    split at h
    · rw [hdefault] at h
      cases h
      exact .absent
    · next s =>
      by_cases hblank : Text.trim s = ""
      · rw [if_pos hblank] at h
        cases h
      · rw [if_neg hblank] at h
        cases h
        refine .given ?_ (Text.isTrimOf_iff.mpr rfl)
        rw [Text.trim_eq_empty_iff] at hblank
        push Not at hblank
        simpa using hblank
    · cases h
  · intro h
    cases h with
    | absent => rw [projectBaseOf, hdefault]
    | @given s base hs hbase =>
      obtain ⟨c, hc, hblank⟩ := hs
      have hne : ¬ Text.trim s = "" := by
        intro hempty
        rw [Text.trim_eq_empty_iff.mp hempty c hc] at hblank
        cases hblank
      rw [projectBaseOf, if_neg hne, Text.isTrimOf_iff.mp hbase]

theorem testMarkerOf_eq_ok_iff {o : Option Value} {marker : String} :
    testMarkerOf o = .ok marker ↔ MarkerIs o marker := by
  constructor
  · intro h
    unfold testMarkerOf at h
    split at h
    · cases h
      exact .absent
    · next s =>
      by_cases hs : s = ""
      · rw [if_pos hs] at h
        cases h
      · rw [if_neg hs] at h
        cases h
        exact .given hs
    · cases h
  · rintro (_ | hs)
    · rfl
    · rw [testMarkerOf, if_neg hs]

/-- A value that is the number one is no collection, so the version is compared and found right. -/
theorem checkVersion_eq_ok_iff :
    checkVersion entries = .ok () ↔ ∃ v, Under entries "version" (some v) ∧ v.IsOne := by
  simp only [Value.under_iff]
  unfold checkVersion
  constructor
  · intro h
    split at h
    · cases h
    · cases h
    · cases h
    · next v _ _ hv =>
      split at h
      · cases h
      · by_cases hone : v.sameKey (.int supportedVersion) = true
        · exact ⟨v, hv, Value.sameKey_one_iff.mp hone⟩
        · rw [if_neg hone] at h
          cases h
  · rintro ⟨v, hv, hone⟩
    rw [hv]
    have hsame : v.sameKey (.int supportedVersion) = true := Value.sameKey_one_iff.mpr hone
    cases hone with
    | int => rfl
    | bool => rfl
    | float hx => exact if_pos hsame

theorem isNamed_commonRuleKeys (v : Value) :
    (!isNamed commonRuleKeys v) =
      decide (v ≠ .string "active" ∧ v ≠ .string "severity" ∧ v ≠ .string "excludes") := by
  rw [Bool.eq_iff_iff, decide_eq_true_iff]
  cases v <;> simp [isNamed, commonRuleKeys]

theorem optionsOf_eq_iff {options : List (String × Value)} :
    optionsOf entries = options ↔ Association.IsTableOf (ownEntries entries) options := by
  rw [Association.isTableOf_iff, optionsOf, ownEntries]
  simp only [isNamed_commonRuleKeys]

theorem ruleOfValue_eq_ok_iff {name : String} {v : Value} {r : RuleSettings} :
    ruleOfValue name v = .ok r ↔ RuleIs v r := by
  constructor
  · intro h
    unfold ruleOfValue at h
    split at h
    · cases h
      exact .null
    · simp only [bind_eq_ok_iff, activeOf_eq_ok_iff, severityOf_eq_ok_iff, globs_eq_ok_iff] at h
      obtain ⟨active, hactive, severity, hseverity, excludes, hexcludes, h⟩ := h
      cases h
      exact .map (exists_under_iff.mpr hactive) (exists_under_iff.mpr hseverity) (exists_under_iff.mpr hexcludes)
        (optionsOf_eq_iff.mp rfl)
    · cases h
  · rintro (_ | ⟨hactive, hseverity, hexcludes, hoptions⟩)
    · rfl
    · rw [exists_under_iff] at hactive hseverity hexcludes
      rw [ruleOfValue, activeOf_eq_ok_iff.mpr hactive, severityOf_eq_ok_iff.mpr hseverity,
        globs_eq_ok_iff.mpr hexcludes, optionsOf_eq_iff.mpr hoptions]
      rfl

/-- Only known rules are read on, whether or not there is a list of them. -/
theorem rulesOfBlocks_cons (key block : Value) (rest : List (Value × Value)) (table result) :
    rulesOfBlocks known table ((key, block) :: rest) = .ok result ↔
      (∀ names ∈ known, key.display ∈ names) ∧ ∃ r, RuleIs block r ∧
        rulesOfBlocks known (Association.set (fun a b => a == b) key.display r table) rest = .ok result := by
  cases known with
  | none =>
    rw [rulesOfBlocks]
    simp [bind_eq_ok_iff, ruleOfValue_eq_ok_iff]
  | some names =>
    rw [rulesOfBlocks]
    by_cases hname : key.display ∈ names
    · simp [hname, bind_eq_ok_iff, ruleOfValue_eq_ok_iff]
    · simp [hname]

theorem rulesOfBlocks_eq_ok_iff {blocks : List (Value × Value)} {table result : List (String × RuleSettings)} :
    rulesOfBlocks known table blocks = .ok result ↔
      ∃ parsed, List.Forall₂ (BlockIs known) blocks parsed ∧
        parsed.foldl (fun table e => Association.set (fun a b => a == b) e.1 e.2 table) table = result := by
  induction blocks generalizing table with
  | nil => simp [rulesOfBlocks]
  | cons block blocks ih =>
    rw [rulesOfBlocks_cons]
    constructor
    · rintro ⟨hname, r, hr, hrest⟩
      obtain ⟨parsed, hparsed, hfold⟩ := ih.mp hrest
      exact ⟨(block.1.display, r) :: parsed, .cons ⟨rfl, hname, hr⟩ hparsed, hfold⟩
    · rintro ⟨_, hparsed, hfold⟩
      cases hparsed with
      | @cons _ rule _ parsed hblock hparsed =>
        obtain ⟨name, r⟩ := rule
        obtain ⟨rfl, hname, hr⟩ := hblock
        exact ⟨hname, r, hr, ih.mpr ⟨parsed, hparsed, hfold⟩⟩

theorem rules_eq_ok_iff {o : Option Value} {table : List (String × RuleSettings)} :
    (ruleBlocks o >>= rulesOfBlocks known []) = .ok table ↔ RulesAre known o table := by
  rw [bind_eq_ok_iff]
  constructor
  · rintro ⟨blocks, hblocks, hrules⟩
    obtain ⟨parsed, hparsed, htable⟩ := rulesOfBlocks_eq_ok_iff.mp hrules
    unfold ruleBlocks at hblocks
    split at hblocks <;> cases hblocks
    · cases hparsed
      cases htable
      exact .absent
    · cases hparsed
      cases htable
      exact .null
    · exact .blocks hparsed (Association.isTableOf_iff.mpr htable)
  · rintro (_ | _ | ⟨hparsed, htable⟩)
    · exact ⟨[], rfl, rfl⟩
    · exact ⟨[], rfl, rfl⟩
    · exact ⟨_, rfl, rulesOfBlocks_eq_ok_iff.mpr ⟨_, hparsed, Association.isTableOf_iff.mp htable⟩⟩

theorem ofEntries_eq (entries : List (Value × Value)) :
    ofEntries known entries = do
      let projectBase ← projectBaseOf (Value.get? "project_base" entries)
      let testMarker ← testMarkerOf (Value.get? "test_marker" entries)
      let excludes ← globs none (Value.get? "excludes" entries)
      let rules ← ruleBlocks (Value.get? "architecture-layer-rules" entries) >>= rulesOfBlocks known []
      return { projectBase, testMarker, excludes, rules } := by
  simp only [bind_assoc]
  rfl

theorem ofValue_map_eq_ok_iff {s : Settings} : ofValue known (.map entries) = .ok s ↔ Describes known entries s := by
  constructor
  · intro h
    rw [ofValue, bind_eq_ok_iff, ofEntries_eq] at h
    obtain ⟨_, hversion, h⟩ := h
    obtain ⟨base, hbase, h⟩ := bind_eq_ok_iff.mp h
    obtain ⟨marker, hmarker, h⟩ := bind_eq_ok_iff.mp h
    obtain ⟨excludes, hexcludes, h⟩ := bind_eq_ok_iff.mp h
    obtain ⟨rules, hrules, h⟩ := bind_eq_ok_iff.mp h
    cases h
    exact ⟨checkVersion_eq_ok_iff.mp hversion, exists_under_iff.mpr (projectBaseOf_eq_ok_iff.mp hbase),
      exists_under_iff.mpr (testMarkerOf_eq_ok_iff.mp hmarker), exists_under_iff.mpr (globs_eq_ok_iff.mp hexcludes),
      exists_under_iff.mpr (rules_eq_ok_iff.mp hrules)⟩
  · rintro ⟨hversion, hbase, hmarker, hexcludes, hrules⟩
    rw [exists_under_iff] at hbase hmarker hexcludes hrules
    rw [ofValue, checkVersion_eq_ok_iff.mpr hversion, ofEntries_eq, projectBaseOf_eq_ok_iff.mpr hbase,
      testMarkerOf_eq_ok_iff.mpr hmarker, globs_eq_ok_iff.mpr hexcludes, rules_eq_ok_iff.mpr hrules]
    rfl

theorem ofValue_eq_ok_iff {v : Value} {s : Settings} :
    ofValue known v = .ok s ↔ ∃ entries, v = .map entries ∧ Describes known entries s := by
  cases v with
  | map entries => simp [ofValue_map_eq_ok_iff]
  | _ => simp [ofValue]

/-! ## Which documents describe settings -/

theorem exists_globsAre_iff {v : Value} : (∃ globs, GlobsAre (some v) globs) ↔ MayBeGlobs v := by
  constructor
  · rintro ⟨_, _ | _ | s | items⟩
    · exact .null
    · exact .text s
    · exact .list items
  · rintro (_ | s | items)
    · exact ⟨_, .null⟩
    · exact ⟨_, .text s⟩
    · exact ⟨_, .list items⟩

theorem exists_activeIs_iff {v : Value} : (∃ active, ActiveIs (some v) active) ↔ ∃ b, v = .bool b := by
  constructor
  · rintro ⟨b, hb⟩
    cases hb
    exact ⟨b, rfl⟩
  · rintro ⟨b, rfl⟩
    exact ⟨b, .given b⟩

theorem exists_severityIs_iff {v : Value} :
    (∃ severity, SeverityIs (some v) severity) ↔ v.display = "error" ∨ v.display = "warn" := by
  constructor
  · rintro ⟨_, _ | herror | hwarn⟩
    · exact .inl herror
    · exact .inr hwarn
  · rintro (herror | hwarn)
    · exact ⟨_, .error herror⟩
    · exact ⟨_, .warn hwarn⟩

theorem exists_baseIs_iff {v : Value} :
    (∃ base, BaseIs (some v) base) ↔ ∃ s, v = .string s ∧ ∃ c ∈ s.toList, Text.isBlank c = false := by
  constructor
  · rintro ⟨_, _ | ⟨hs, -⟩⟩
    exact ⟨_, rfl, hs⟩
  · rintro ⟨s, rfl, hs⟩
    exact ⟨Text.trim s, .given hs (Text.isTrimOf_iff.mpr rfl)⟩

theorem exists_markerIs_iff {v : Value} : (∃ marker, MarkerIs (some v) marker) ↔ ∃ s, v = .string s ∧ s ≠ "" := by
  constructor
  · rintro ⟨_, _ | hs⟩
    exact ⟨_, rfl, hs⟩
  · rintro ⟨s, rfl, hs⟩
    exact ⟨s, .given hs⟩

theorem exists_ruleIs_iff {v : Value} : (∃ r, RuleIs v r) ↔ RuleConforms v := by
  constructor
  · rintro ⟨_, _ | ⟨hactive, hseverity, hexcludes, -⟩⟩
    · exact .null
    · exact .map (forall_under_of_exists exists_activeIs_iff hactive)
        (forall_under_of_exists exists_severityIs_iff hseverity)
        (forall_under_of_exists exists_globsAre_iff hexcludes)
  · rintro (_ | ⟨hactive, hseverity, hexcludes⟩)
    · exact ⟨{}, .null⟩
    · obtain ⟨active, hactive⟩ := exists_under_of_forall ⟨_, .absent⟩ exists_activeIs_iff hactive
      obtain ⟨severity, hseverity⟩ := exists_under_of_forall ⟨_, .absent⟩ exists_severityIs_iff hseverity
      obtain ⟨excludes, hexcludes⟩ := exists_under_of_forall ⟨_, .absent⟩ exists_globsAre_iff hexcludes
      exact ⟨⟨active, severity, excludes, _⟩, .map hactive hseverity hexcludes (optionsOf_eq_iff.mp rfl)⟩

theorem exists_forall₂_blockIs_iff {blocks : List (Value × Value)} :
    (∃ parsed, List.Forall₂ (BlockIs known) blocks parsed) ↔
      ∀ block ∈ blocks, (∀ names ∈ known, block.1.display ∈ names) ∧ RuleConforms block.2 := by
  constructor
  · rintro ⟨parsed, hparsed⟩
    induction hparsed with
    | nil => simp
    | cons hblock _ ih =>
      obtain ⟨hname, hknown, hr⟩ := hblock
      rw [hname] at hknown
      exact List.forall_mem_cons.mpr ⟨⟨hknown, exists_ruleIs_iff.mp ⟨_, hr⟩⟩, ih⟩
  · intro hall
    induction blocks with
    | nil => exact ⟨[], .nil⟩
    | cons block blocks ih =>
      rw [List.forall_mem_cons] at hall
      obtain ⟨⟨hknown, hblock⟩, hall⟩ := hall
      obtain ⟨parsed, hparsed⟩ := ih hall
      obtain ⟨r, hr⟩ := exists_ruleIs_iff.mpr hblock
      exact ⟨(block.1.display, r) :: parsed, .cons ⟨rfl, hknown, hr⟩ hparsed⟩

theorem exists_rulesAre_iff {v : Value} : (∃ table, RulesAre known (some v) table) ↔ RulesConform known v := by
  constructor
  · rintro ⟨_, _ | _ | ⟨hparsed, -⟩⟩
    · exact .null
    · have hall := exists_forall₂_blockIs_iff.mp ⟨_, hparsed⟩
      exact .map (fun block hblock => (hall block hblock).1) fun block hblock => (hall block hblock).2
  · rintro (_ | ⟨hnames, hblocks⟩)
    · exact ⟨[], .null⟩
    · obtain ⟨parsed, hparsed⟩ :=
        exists_forall₂_blockIs_iff.mpr fun block hblock => ⟨hnames block hblock, hblocks block hblock⟩
      exact ⟨_, .blocks hparsed (Association.isTableOf_iff.mpr rfl)⟩

theorem exists_describes_iff : (∃ s, Describes known entries s) ↔ Conforms known entries := by
  constructor
  · rintro ⟨s, hversion, hbase, hmarker, hexcludes, hrules⟩
    exact ⟨hversion, forall_under_of_exists exists_baseIs_iff hbase,
      forall_under_of_exists exists_markerIs_iff hmarker, forall_under_of_exists exists_globsAre_iff hexcludes,
      forall_under_of_exists exists_rulesAre_iff hrules⟩
  · rintro ⟨hversion, hbase, hmarker, hexcludes, hrules⟩
    obtain ⟨base, hbase⟩ := exists_under_of_forall ⟨_, .absent⟩ exists_baseIs_iff hbase
    obtain ⟨marker, hmarker⟩ := exists_under_of_forall ⟨_, .absent⟩ exists_markerIs_iff hmarker
    obtain ⟨excludes, hexcludes⟩ := exists_under_of_forall ⟨_, .absent⟩ exists_globsAre_iff hexcludes
    obtain ⟨rules, hrules⟩ := exists_under_of_forall ⟨_, .absent⟩ exists_rulesAre_iff hrules
    exact ⟨⟨base, marker, excludes, rules⟩, hversion, hbase, hmarker, hexcludes, hrules⟩

/-- Reading a document succeeds iff it is a mapping that is of the schema, and what is read are the settings that the
document describes. -/
theorem ofValue_accepts_exactly_schema (known : Option (List String)) (v : Value) :
    ((∃ s, ofValue known v = .ok s) ↔ ∃ entries, v = .map entries ∧ Conforms known entries) ∧
      ∀ s, ofValue known v = .ok s ↔ ∃ entries, v = .map entries ∧ Describes known entries s := by
  refine ⟨?_, fun s => ofValue_eq_ok_iff⟩
  simp only [ofValue_eq_ok_iff]
  constructor
  · rintro ⟨s, entries, rfl, hdescribes⟩
    exact ⟨entries, rfl, exists_describes_iff.mp ⟨s, hdescribes⟩⟩
  · rintro ⟨entries, rfl, hconforms⟩
    obtain ⟨s, hdescribes⟩ := exists_describes_iff.mpr hconforms
    exact ⟨s, entries, rfl, hdescribes⟩

end Strata.Settings
