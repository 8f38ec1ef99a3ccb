import Mathlib.Tactic
import Strata.Proofs.EntryOrder
import Strata.Proofs.Numerals

/-!
# The canonical document of settings

`Settings.document` writes settings out in full. Settings that were read from any document are read again from their
canonical one, with the options and all orders as they are. What makes this work is a normal form (`Settings.Normal`):
whatever is read is in it, and what is in it is read back.

Keys become texts when options are read, so an option might end up under a name that all rules share. It cannot: of all
values only a text is displayed as a word of small letters, apart from the names of some doubles.
-/

namespace Strata

/-! ## Values that are displayed as words -/

theorem isLower_eq_false_of_isDigit {c : Char} (h : c.isDigit = true) : c.isLower = false := by
  unfold Char.isDigit at h
  unfold Char.isLower
  simp only [Bool.and_eq_true, decide_eq_true_eq, ge_iff_le, Bool.and_eq_false_iff, decide_eq_false_iff_not,
    UInt32.le_iff_toNat_le] at h ⊢
  left
  have hdigit : c.val.toNat ≤ 57 := h.2
  show ¬ 97 ≤ c.val.toNat
  omega

theorem Json.IsReal.exists_not_lower {cs : List Char} (h : Json.IsReal cs) : ∃ c ∈ cs, c.isLower = false := by
  cases h with
  | @numeral sign whole fraction exponent _ hwhole _ _ _ =>
    obtain ⟨c, hc⟩ := List.exists_mem_of_ne_nil whole hwhole.ne_nil
    refine ⟨c, ?_, isLower_eq_false_of_isDigit (hwhole.isDigit c hc)⟩
    exact List.mem_append_left _ (List.mem_append_right sign hc)
  | name h =>
    simp only [List.mem_cons, List.not_mem_nil, or_false] at h
    rcases h with rfl | rfl | rfl
    · exact ⟨'N', by decide, by decide⟩
    · exact ⟨'I', by decide, by decide⟩
    · exact ⟨'-', by decide, by decide⟩

theorem Json.IsInteger.exists_not_lower {n : Int} {cs : List Char} (h : Json.IsInteger n cs) :
    ∃ c ∈ cs, c.isLower = false := by
  cases h with
  | plain hwhole =>
    obtain ⟨c, hc⟩ := List.exists_mem_of_ne_nil _ hwhole.ne_nil
    exact ⟨c, hc, isLower_eq_false_of_isDigit (hwhole.isDigit c hc)⟩
  | minus => exact ⟨'-', List.mem_cons_self, by decide⟩

theorem Text.isLower_quoteFor (cs : List Char) : (Text.quoteFor cs).isLower = false := by
  unfold Text.quoteFor
  split
  · decide
  · decide

namespace Value

/-- Of all values only a text is displayed as a word of small letters, apart from `nan` and `inf`. -/
theorem exists_string_of_display {v : Value} (hlower : ∀ c ∈ v.display.toList, c.isLower = true)
    (hnan : v.display ≠ "nan") (hinf : v.display ≠ "inf") : ∃ s, v = .string s := by
  -- a character that is no small letter shows that the value is not displayed as a word
  have hnone : ∀ c ∈ v.display.toList, c.isLower = false → ∃ s, v = .string s := by
    intro c hc hfalse
    rw [hlower c hc] at hfalse
    cases hfalse
  cases v with
  | string s => exact ⟨s, rfl⟩
  | null => exact hnone 'N' (by decide) (by decide)
  | bool b =>
    cases b with
    | true => exact hnone 'T' (by decide) (by decide)
    | false => exact hnone 'F' (by decide) (by decide)
  | int n =>
    obtain ⟨c, hc, hfalse⟩ := (Json.isInteger_toString n).exists_not_lower
    exact hnone c hc hfalse
  | float x =>
    have hdisplay : (Value.float x).display = Decimal.plain.render x := rfl
    rw [hdisplay] at hnone hnan hinf
    rcases Decimal.render_cases Decimal.plain x with hname | hreal
    · simp only [List.mem_cons, List.not_mem_nil, or_false] at hname
      rcases hname with hname | hname | hname
      · exact absurd (String.toList_inj.mp hname) hnan
      · exact absurd (String.toList_inj.mp hname) hinf
      · exact hnone '-' (hname ▸ List.mem_cons_self) (by decide)
    · obtain ⟨c, hc, hfalse⟩ := hreal.exists_not_lower
      exact hnone c hc hfalse
  | bytes bs =>
    have hdisplay : (Value.bytes bs).display = Text.quotedBytes bs := rfl
    rw [hdisplay, Text.quotedBytes, String.toList_ofList] at hnone
    exact hnone _ (List.mem_cons_of_mem _ List.mem_cons_self) (Text.isLower_quoteFor _)
  | date d =>
    have hdisplay : (Value.date d).display = d.iso := rfl
    rw [hdisplay, Date.iso] at hnone
    exact hnone '-' (by simp [String.toList_append]) (by decide)
  | dateTime t =>
    have hdisplay : (Value.dateTime t).display = t.iso " " := rfl
    rw [hdisplay, DateTime.iso] at hnone
    exact hnone ':' (by simp [String.toList_append]) (by decide)
  | list items =>
    have hdisplay : (Value.list items).display = "[" ++ String.intercalate ", " (literals items) ++ "]" := rfl
    rw [hdisplay] at hnone
    exact hnone '[' (by simp [String.toList_append]) (by decide)
  | pair key value =>
    have hdisplay : (Value.pair key value).display = "(" ++ key.literal ++ ", " ++ value.literal ++ ")" := rfl
    rw [hdisplay] at hnone
    exact hnone '(' (by simp [String.toList_append]) (by decide)
  | map entries =>
    have hdisplay : (Value.map entries).display =
        "\x7b" ++ String.intercalate ", " (entryLiterals entries) ++ "\x7d" := rfl
    rw [hdisplay] at hnone
    exact hnone '\x7b' (by simp [String.toList_append]) (by decide)
  | set items =>
    cases items with
    | nil => exact hnone '(' (by decide) (by decide)
    | cons item items =>
      have hdisplay : (Value.set (item :: items)).display =
          "\x7b" ++ String.intercalate ", " (inHashOrder (item :: items) (literals (item :: items))) ++ "\x7d" := rfl
      rw [hdisplay] at hnone
      exact hnone '\x7b' (by simp [String.toList_append]) (by decide)

end Value

/-! ## Canonical documents -/

/-- The settings of a rule in full: those that every rule has, and then its own. -/
def RuleSettings.entries (r : RuleSettings) : List (Value × Value) :=
  (.string "active", .bool r.active) :: (.string "severity", .string r.severity.name) ::
    (.string "excludes", .list (r.excludes.map .string)) :: r.options.map fun o => (.string o.1, o.2)

namespace Settings

/-- A block for each rule that the settings name. -/
def blocks (s : Settings) : List (Value × Value) :=
  s.rules.map fun rule => (.string rule.1, .map rule.2.entries)

def entries (s : Settings) : List (Value × Value) :=
  [(.string "version", .int 1), (.string "project_base", .string s.projectBase),
    (.string "test_marker", .string s.testMarker), (.string "excludes", .list (s.excludes.map .string)),
    (.string ruleSetName, .map s.blocks)]

/-- The document that has all settings in full. -/
def document (s : Settings) : Value :=
  .map s.entries

/-! ## The normal form of settings -/

/-- The own settings of a rule have distinct names, none of which all rules share. -/
structure NormalRule (r : RuleSettings) : Prop where
  nodup : (r.options.map Prod.fst).Nodup
  own : ∀ o ∈ r.options, o.1 ∉ commonRuleKeys

/-- Settings as they are once they are read. -/
structure Normal (known : Option (List String)) (s : Settings) : Prop where
  trimmed : Text.IsTrimOf s.projectBase s.projectBase
  base_ne : s.projectBase ≠ ""
  marker_ne : s.testMarker ≠ ""
  nodup : (s.rules.map Prod.fst).Nodup
  mem_known : ∀ rule ∈ s.rules, ∀ names ∈ known, rule.1 ∈ names
  rules : ∀ rule ∈ s.rules, NormalRule rule.2

variable {known : Option (List String)}

/-! ### What is read is normal -/

theorem display_notMem_commonRuleKeys {v : Value}
    (h : v ≠ .string "active" ∧ v ≠ .string "severity" ∧ v ≠ .string "excludes") : v.display ∉ commonRuleKeys := by
  intro hmem
  have hwords : ∀ name ∈ commonRuleKeys, (∀ c ∈ name.toList, c.isLower = true) ∧ name ≠ "nan" ∧ name ≠ "inf" := by
    have hall : commonRuleKeys.all (fun name => name.toList.all Char.isLower && name != "nan" && name != "inf") =
        true := by decide
    intro name hname
    simpa [List.all_eq_true, and_assoc] using List.all_eq_true.mp hall name hname
  obtain ⟨hlower, hnan, hinf⟩ := hwords _ hmem
  -- only a text is displayed as one of the names, and it is displayed as itself
  obtain ⟨s, rfl⟩ := Value.exists_string_of_display hlower hnan hinf
  have hname : s ∈ commonRuleKeys := hmem
  have hnames : s = "active" ∨ s = "severity" ∨ s = "excludes" := by simpa [commonRuleKeys] using hname
  rcases hnames with rfl | rfl | rfl
  · exact h.1 rfl
  · exact h.2.1 rfl
  · exact h.2.2 rfl

theorem normalRule_of_ruleIs {v : Value} {r : RuleSettings} (h : RuleIs v r) : NormalRule r := by
  cases h with
  | null => exact ⟨List.nodup_nil, by simp⟩
  | @map entries _ _ _ _ hoptions =>
    rw [Association.isTableOf_iff] at hoptions
    refine ⟨?_, ?_⟩
    · rw [← hoptions]
      exact Association.nodup_keys_ofEntries _
    · intro o ho
      obtain ⟨before, after, hentries, -⟩ := (Association.isTableOf_iff.mpr hoptions).last o ho
      have hown : o ∈ ownEntries entries := by
        rw [hentries]
        simp
      obtain ⟨e, he, rfl⟩ := List.mem_map.mp hown
      have hkey := (List.mem_filter.mp he).2
      exact display_notMem_commonRuleKeys (of_decide_eq_true hkey)

/-- What is left without the blanks around it has none around it. -/
theorem trimmed_of_baseIs {o : Option Value} {base : String} (h : BaseIs o base) :
    Text.IsTrimOf base base ∧ base ≠ "" := by
  cases h with
  | absent => exact ⟨Text.isTrimOf_iff.mpr (by decide), by decide⟩
  | @given s base hs hbase =>
    refine ⟨⟨⟨[], [], by simp, by simp, by simp⟩, hbase.begins, hbase.ends⟩, ?_⟩
    rintro rfl
    obtain ⟨c, hc, hblank⟩ := hs
    have hall := Text.trim_eq_empty_iff.mp (Text.isTrimOf_iff.mp hbase) c hc
    rw [hall] at hblank
    cases hblank

theorem ne_empty_of_markerIs {o : Option Value} {marker : String} (h : MarkerIs o marker) : marker ≠ "" := by
  cases h with
  | absent => decide
  | given hs => exact hs

theorem exists_block_of_mem {blocks : List (Value × Value)} {parsed : List (String × RuleSettings)}
    (h : List.Forall₂ (BlockIs known) blocks parsed) {rule : String × RuleSettings} (hrule : rule ∈ parsed) :
    ∃ block, BlockIs known block rule := by
  induction h with
  | nil => cases hrule
  | cons hblock _ ih =>
    rcases List.mem_cons.mp hrule with rfl | hrule
    · exact ⟨_, hblock⟩
    · exact ih hrule

theorem exists_block_of_rulesAre {o : Option Value} {table : List (String × RuleSettings)}
    (h : RulesAre known o table) :
    (table.map Prod.fst).Nodup ∧ ∀ rule ∈ table, ∃ block, BlockIs known block rule := by
  cases h with
  | absent => exact ⟨List.nodup_nil, by simp⟩
  | null => exact ⟨List.nodup_nil, by simp⟩
  | @blocks _ parsed _ hparsed htable =>
    have htable' := Association.isTableOf_iff.mp htable
    refine ⟨?_, ?_⟩
    · rw [← htable']
      exact Association.nodup_keys_ofEntries parsed
    · intro rule hrule
      obtain ⟨before, after, hentries, -⟩ := htable.last rule hrule
      have hmem : rule ∈ parsed := by
        rw [hentries]
        simp
      exact exists_block_of_mem hparsed hmem

theorem normal_of_describes {entries : List (Value × Value)} {s : Settings} (h : Describes known entries s) :
    Normal known s := by
  obtain ⟨-, ⟨_, -, hbase⟩, ⟨_, -, hmarker⟩, -, ⟨_, -, hrules⟩⟩ := h
  obtain ⟨htrimmed, hne⟩ := trimmed_of_baseIs hbase
  obtain ⟨hnodup, hblocks⟩ := exists_block_of_rulesAre hrules
  refine ⟨htrimmed, hne, ne_empty_of_markerIs hmarker, hnodup, ?_, ?_⟩
  · intro rule hrule
    obtain ⟨block, hblock⟩ := hblocks rule hrule
    exact hblock.mem_known
  · intro rule hrule
    obtain ⟨block, hblock⟩ := hblocks rule hrule
    exact normalRule_of_ruleIs hblock.settings

/-! ### What is normal is read back -/

theorem globsAre_texts (globs : List String) : GlobsAre (some (.list (globs.map .string))) globs := by
  have h := GlobsAre.list (globs.map Value.string)
  rw [List.map_map] at h
  have hdisplay : globs.map (Value.display ∘ Value.string) = globs := List.map_id globs
  rwa [hdisplay] at h

theorem severityIs_name (severity : Severity) : SeverityIs (some (.string severity.name)) severity := by
  cases severity with
  | error => exact .error rfl
  | warn => exact .warn rfl

theorem ownEntries_entries {r : RuleSettings} (h : NormalRule r) : ownEntries r.entries = r.options := by
  have hoptions : (r.options.map fun o => (Value.string o.1, o.2)).filter (fun e =>
      e.1 ≠ .string "active" ∧ e.1 ≠ .string "severity" ∧ e.1 ≠ .string "excludes") =
        r.options.map fun o => (Value.string o.1, o.2) := by
    rw [List.filter_eq_self]
    intro e he
    obtain ⟨o, ho, rfl⟩ := List.mem_map.mp he
    have hown := h.own o ho
    simpa [commonRuleKeys] using hown
  have hcommon : ownEntries r.entries =
      ((r.options.map fun o => (Value.string o.1, o.2)).filter (fun e =>
        e.1 ≠ .string "active" ∧ e.1 ≠ .string "severity" ∧ e.1 ≠ .string "excludes")).map
        fun e => (e.1.display, e.2) := by
    unfold ownEntries RuleSettings.entries
    simp
  rw [hcommon, hoptions, List.map_map]
  exact List.map_id r.options

theorem ruleIs_entries {r : RuleSettings} (h : NormalRule r) : RuleIs (.map r.entries) r := by
  refine .map ?_ ?_ ?_ ?_
  · rw [Value.exists_under_iff]
    exact .given r.active
  · rw [Value.exists_under_iff]
    exact severityIs_name r.severity
  · rw [Value.exists_under_iff]
    exact globsAre_texts r.excludes
  · rw [ownEntries_entries h, Association.isTableOf_iff]
    exact Association.ofEntries_of_nodup h.nodup

theorem rulesAre_blocks {s : Settings} (h : Normal known s) : RulesAre known (some (.map s.blocks)) s.rules := by
  have hparsed : List.Forall₂ (BlockIs known) s.blocks s.rules := by
    unfold blocks
    rw [List.forall₂_map_left_iff, List.forall₂_same]
    intro rule hrule
    exact ⟨rfl, h.mem_known rule hrule, ruleIs_entries (h.rules rule hrule)⟩
  exact .blocks hparsed (Association.isTableOf_iff.mpr (Association.ofEntries_of_nodup h.nodup))

theorem describes_entries {s : Settings} (h : Normal known s) : Describes known s.entries s := by
  have hbase : ∃ c ∈ s.projectBase.toList, Text.isBlank c = false := by
    have hne : s.projectBase.toList ≠ [] := by
      intro hnil
      exact h.base_ne (String.toList_eq_nil_iff.mp hnil)
    obtain ⟨c, rest, hcs⟩ := List.exists_cons_of_ne_nil hne
    exact ⟨c, by rw [hcs]; exact List.mem_cons_self, h.trimmed.begins c (by rw [hcs]; rfl)⟩
  refine ⟨⟨.int 1, Value.under_iff.mpr rfl, .int⟩, ?_, ?_, ?_, ?_⟩
  · rw [Value.exists_under_iff]
    exact .given hbase h.trimmed
  · rw [Value.exists_under_iff]
    exact .given h.marker_ne
  · rw [Value.exists_under_iff]
    exact globsAre_texts s.excludes
  · rw [Value.exists_under_iff]
    exact rulesAre_blocks h

/-! ## Settings are read again from their canonical document -/

theorem NormalRule.distinctNames {r : RuleSettings} (h : NormalRule r) : Value.DistinctNames r.entries := by
  have hkeys : r.entries.map Prod.fst = (commonRuleKeys ++ r.options.map Prod.fst).map .string := by
    simp [RuleSettings.entries, commonRuleKeys]
  refine Value.distinctNames_of_keys hkeys (List.nodup_append.mpr ⟨by decide, h.nodup, ?_⟩)
  intro name hname name' hname' heq
  obtain ⟨o, ho, rfl⟩ := List.mem_map.mp hname'
  exact h.own o ho (heq ▸ hname)

theorem Normal.distinctNames_blocks {s : Settings} (h : Normal known s) : Value.DistinctNames s.blocks := by
  have hkeys : s.blocks.map Prod.fst = (s.rules.map Prod.fst).map .string := by simp [blocks]
  exact Value.distinctNames_of_keys hkeys h.nodup

theorem distinctNames_entries (s : Settings) : Value.DistinctNames s.entries := by
  have hkeys : s.entries.map Prod.fst = knownKeys.map .string := rfl
  exact Value.distinctNames_of_keys hkeys (by decide)

/-- Settings that were read from some document are read again from their canonical one. No key in it stands twice: the
rules have distinct names, and so have the settings of each rule, since no option of a rule has one of the names that
all rules share. -/
theorem document_reads_as_itself (known : Option (List String)) (v : Value) (s : Settings)
    (h : ofValue known v = .ok s) :
    Value.DistinctNames s.entries ∧ Value.DistinctNames s.blocks ∧
      (∀ rule ∈ s.rules, Value.DistinctNames rule.2.entries ∧
        ∀ o ∈ rule.2.options, o.1 ≠ "active" ∧ o.1 ≠ "severity" ∧ o.1 ≠ "excludes") ∧
      ofValue known s.document = .ok s := by
  obtain ⟨entries, rfl, hdescribes⟩ := ofValue_eq_ok_iff.mp h
  have hnormal := normal_of_describes hdescribes
  refine ⟨distinctNames_entries s, hnormal.distinctNames_blocks, ?_, ?_⟩
  · intro rule hrule
    have hr := hnormal.rules rule hrule
    refine ⟨hr.distinctNames, ?_⟩
    intro o ho
    simpa [commonRuleKeys] using hr.own o ho
  · exact ofValue_map_eq_ok_iff.mpr (describes_entries hnormal)

namespace CollapsedKeys

/-- A block with an integer and a text as keys that are displayed alike, and with nothing as a key. -/
def block : Value :=
  .map [(.int 1, .string "x"), (.string "severity", .string "warn"), (.null, .list [.int 2]),
    (.string "1", .string "y"), (.string "excludes", .list [.null, .string "*.kt"])]

/-- A document that names a rule twice, with blanks around the base package. -/
def document : Value :=
  .map [(.string ruleSetName, .map [(.bool true, .null), (.string "B", .null), (.string "True", block)]),
    (.string "project_base", .string " a.b\n"), (.string "version", .bool true), (.int 7, .null)]

def settings : Settings where
  projectBase := "a.b"
  rules := [("True", ⟨true, .warn, ["None", "*.kt"], [("1", .string "y"), ("None", .list [.int 2])]⟩), ("B", {})]

theorem ofValue_document : ofValue none document = .ok settings :=
  rfl

end CollapsedKeys

theorem document_of_collapsed_keys :
    ofValue none CollapsedKeys.document = .ok CollapsedKeys.settings ∧
      Value.DistinctNames CollapsedKeys.settings.blocks ∧
      ofValue none CollapsedKeys.settings.document = .ok CollapsedKeys.settings := by
  obtain ⟨-, hblocks, -, hread⟩ := document_reads_as_itself none _ _ CollapsedKeys.ofValue_document
  exact ⟨CollapsedKeys.ofValue_document, hblocks, hread⟩

end Settings

end Strata
