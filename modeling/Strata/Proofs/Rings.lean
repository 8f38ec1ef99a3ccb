import Strata.Proofs.Violations

/-!
# Layers as rings

The layers lie around each other, the domain innermost. Two tests decide about an import: the classifier reads the
segment behind the base package, and the policy asks whether an allowed prefix begins the path. They agree: in the
standard policy an inner layer accepts nothing from a ring around it. The common prefixes could spoil this, since
the base package is free and may overlap them, but none of their segments names a layer; so they only do if one of
them begins the base package itself, and then they let everything below it pass.
-/

namespace Strata

open Syntax (Event)

namespace Layer

/-! ## The layer behind a base package -/

variable {base path : String}

theorem ofPackage_of_not_prefix (h : ¬ (base ++ ".").toList <+: path.toList) :
    ofPackage base path = .unclassified := by
  rw [ofPackage, Text.afterPrefix?_eq_none h]

theorem ofPackage_append {rest : List Char} (h : (base ++ ".").toList ++ rest = path.toList) :
    ofPackage base path = ofSegment (String.ofList (rest.takeWhile fun c => c != '.')) := by
  rw [ofPackage, ← h, Text.afterPrefix?_append]

/-- A package below the segment of a layer is in that layer. -/
theorem ofPackage_of_name_prefix (layer : Layer) (h : (base ++ "." ++ layer.name ++ ".").toList <+: path.toList) :
    ofPackage base path = layer := by
  have hname : '.' ∉ layer.name.toList ∧ ofSegment layer.name = layer := by cases layer <;> decide
  obtain ⟨rest, hrest⟩ := h
  have hpath : (base ++ ".").toList ++ ((layer.name.toList ++ ['.']) ++ rest) = path.toList := by
    rw [← hrest]
    simp [String.toList_append]
  have hsegment : (layer.name.toList ++ ['.']).takeWhile (fun c => c != '.') = layer.name.toList := by
    rw [List.takeWhile_append_of_pos]
    · simp
    · intro c hc
      simpa using fun heq : c = '.' => hname.1 (heq ▸ hc)
  rw [ofPackage_append hpath, Text.takeWhile_append_of_mem (by simp), hsegment, String.ofList_toList, hname.2]

/-- A prefix that ends with a segment of its own and has no segment that names a layer. -/
structure IsNeutral (q : String) : Prop where
  dot : q.toList.getLast? = some '.'
  segments : ∀ segment ∈ Text.splitAt '.' q.toList, ofSegment (String.ofList segment) = .unclassified

/-- A path that begins with a neutral prefix is in no layer, unless the prefix begins the base package itself. -/
theorem ofPackage_of_neutral_prefix {q : String} (hq : IsNeutral q) (hpath : q.toList <+: path.toList)
    (hbase : ¬ q.toList <+: (base ++ ".").toList) : ofPackage base path = .unclassified := by
  by_cases hbelow : (base ++ ".").toList <+: path.toList
  · -- both begin the path, so the base package begins the prefix and leaves at least a segment of it
    have hcover : (base ++ ".").toList <+: q.toList :=
      (List.prefix_or_prefix_of_prefix hpath hbelow).resolve_left hbase
    obtain ⟨rest, hrest⟩ := hcover
    obtain ⟨more, hmore⟩ := hpath
    have hne : rest ≠ [] := by
      rintro rfl
      exact hbase (by rw [← hrest, List.append_nil])
    have hdot : '.' ∈ rest := by
      have hlast := hq.dot
      rw [← hrest, List.getLast?_append_of_ne_nil _ hne] at hlast
      exact List.mem_of_getLast? hlast
    have hsegment : rest.takeWhile (fun c => c != '.') ∈ Text.splitAt '.' q.toList := by
      have hsplit : q.toList = base.toList ++ '.' :: rest := by
        rw [← hrest]
        simp [String.toList_append]
      obtain ⟨runs, hruns⟩ := Text.splitAt_eq_cons '.' rest
      rw [hsplit, Text.splitAt_append_cons, hruns]
      simp
    have hwhole : (base ++ ".").toList ++ (rest ++ more) = path.toList := by
      rw [← List.append_assoc, hrest, hmore]
    rw [ofPackage_append hwhole, Text.takeWhile_append_of_mem hdot, hq.segments _ hsegment]
  · exact ofPackage_of_not_prefix hbelow

/-! ## Rings -/

/-- The rings, counted from the innermost. What is unclassified lies in none. -/
def ring? : Layer → Option Nat
  | .domain => some 0
  | .application => some 1
  | .infrastructure => some 2
  | .presentation => some 3
  | .framework => some 4
  | .unclassified => none

/-- One layer lies in a ring around that of another. -/
def Surrounds (outer inner : Layer) : Prop :=
  ∃ m n, outer.ring? = some m ∧ inner.ring? = some n ∧ n < m

end Layer

namespace Policy

/-! ## What the standard policy accepts -/

/-- The layer is governed and may import the path. -/
def Accepts (p : Policy) (layer : Layer) (path : String) : Prop :=
  ∃ entry, p.lookup layer = some entry ∧ p.allowsImport entry path = true

theorem allowsImport_iff (p : Policy) {entry : LayerPolicy} {own : List String} (hown : entry.prefixes = some own)
    (path : String) : p.allowsImport entry path = true ↔ ∃ q ∈ p.common ++ own, q.toList <+: path.toList := by
  rw [← Bool.not_eq_false, allowsImport_eq_false_iff, hown]
  simp

theorem isNeutral_of_mem_defaultCommon {q : String} (h : q ∈ defaultCommon) : Layer.IsNeutral q := by
  have hall : ∀ q ∈ defaultCommon, q.toList.getLast? = some '.' ∧
      ∀ segment ∈ Text.splitAt '.' q.toList, Layer.ofSegment (String.ofList segment) = .unclassified := by
    decide
  exact ⟨(hall q h).1, (hall q h).2⟩

/-- If no common prefix begins the base package, then what begins with a common prefix, or with the prefix of one
of some layers, is in one of these layers or in none. -/
theorem layer_of_prefix {base path : String} (hclear : ∀ q ∈ defaultCommon, ¬ q.toList <+: (base ++ ".").toList)
    (layers : List Layer)
    (h : ∃ q ∈ defaultCommon ++ layers.map (fun l => base ++ "." ++ l.name ++ "."), q.toList <+: path.toList) :
    Layer.ofPackage base path ∈ layers ∨ Layer.ofPackage base path = .unclassified := by
  obtain ⟨q, hq, hpath⟩ := h
  rcases List.mem_append.1 hq with hcommon | hown
  · right
    exact Layer.ofPackage_of_neutral_prefix (isNeutral_of_mem_defaultCommon hcommon) hpath (hclear q hcommon)
  · left
    obtain ⟨layer, hlayer, rfl⟩ := List.mem_map.1 hown
    rw [Layer.ofPackage_of_name_prefix layer hpath]
    exact hlayer

/-- The layers whose packages an inner layer may import. -/
def importable : Layer → List Layer
  | .domain => [.domain]
  | .application => [.domain, .application]
  | _ => []

/-- The prefixes of an inner layer in the standard policy are the common ones and those of some layers. -/
theorem standard_accepts_iff {base : String} {layer : Layer} (h : layer = .domain ∨ layer = .application)
    (path : String) :
    (standard base).Accepts layer path ↔
      ∃ q ∈ defaultCommon ++ (importable layer).map (fun l => base ++ "." ++ l.name ++ "."),
        q.toList <+: path.toList := by
  have hassoc : ∀ l : Layer, base ++ "." ++ l.name ++ "." = base ++ ("." ++ l.name ++ ".") := by
    intro l
    rw [String.append_assoc, String.append_assoc, String.append_assoc]
  have hentry : ∃ entry, (standard base).lookup layer = some entry ∧
      entry.prefixes = some ((importable layer).map fun l => base ++ "." ++ l.name ++ ".") := by
    simp only [hassoc]
    rcases h with rfl | rfl
    · exact ⟨_, rfl, rfl⟩
    · exact ⟨_, rfl, rfl⟩
  obtain ⟨entry, hlookup, hown⟩ := hentry
  have hallows := allowsImport_iff (standard base) hown path
  constructor
  · rintro ⟨entry', hlookup', haccepted⟩
    rw [hlookup] at hlookup'
    cases hlookup'
    exact hallows.1 haccepted
  · intro hprefix
    exact ⟨entry, hlookup, hallows.2 hprefix⟩

/-- If no common prefix begins the base package, an inner layer accepts nothing from a ring around it. -/
theorem not_surrounds_of_accepts {base path : String}
    (hclear : ∀ q ∈ defaultCommon, ¬ q.toList <+: (base ++ ".").toList) {layer : Layer}
    (hinner : layer = .domain ∨ layer = .application) (h : (standard base).Accepts layer path) :
    ¬ (Layer.ofPackage base path).Surrounds layer := by
  rintro ⟨m, n, houter, hlayer, hlt⟩
  rcases layer_of_prefix hclear _ ((standard_accepts_iff hinner path).1 h) with himportable | hnone
  · -- the layers that an inner layer may import are in its own ring or inside it
    have hle : m ≤ n := by
      rcases hinner with rfl | rfl
      · rw [List.mem_singleton.1 himportable] at houter
        cases houter
        exact Nat.zero_le n
      · cases hlayer
        rcases List.mem_pair.1 himportable with h | h
        · rw [h] at houter
          cases houter
          exact Nat.zero_le 1
        · rw [h] at houter
          cases houter
          exact Nat.le_refl 1
    omega
  · rw [hnone] at houter
    cases houter

/-- If a common prefix begins the base package, every governed layer accepts all that is below it. -/
theorem standard_accepts_of_common_prefix {base : String}
    (h : ∃ q ∈ defaultCommon, q.toList <+: (base ++ ".").toList) {layer : Layer} {entry : LayerPolicy}
    (hentry : (standard base).lookup layer = some entry) {path : String}
    (hpath : (base ++ ".").toList <+: path.toList) : (standard base).Accepts layer path := by
  refine ⟨entry, hentry, ?_⟩
  cases hown : entry.prefixes with
  | none => simp [allowsImport, hown]
  | some own =>
    obtain ⟨q, hq, hbase⟩ := h
    exact (allowsImport_iff _ hown path).2 ⟨q, List.mem_append_left own hq, hbase.trans hpath⟩

end Policy

/-! ## Imports across rings are reported -/

/-- An import whose path the policy does not accept in the layer of the source is a violation of the rule about
imports. -/
theorem Rule.violated_of_not_accepts {r : Rule} {file : SourceFile} {path : String} {location : Location}
    (hcheck : r.check = .forbiddenImport) (hcovers : r.Covers file.path) {entry : LayerPolicy}
    (hentry : r.policy.lookup (Layer.ofPackage r.policy.base file.package) = some entry)
    (h : ¬ r.policy.Accepts (Layer.ofPackage r.policy.base file.package) path) :
    r.Violated file (.imported (some path) location) := by
  have hrefused : r.policy.allowsImport entry path = false := by
    rw [← Bool.not_eq_true]
    exact fun hallows => h ⟨entry, hentry, hallows⟩
  obtain ⟨own, hown, hnone⟩ := (Policy.allowsImport_eq_false_iff r.policy entry path).1 hrefused
  exact ⟨hcovers, hcheck, entry, own, hentry, hown, hnone⟩

/-- The analysis of a source that can be read finds every violation in it. -/
theorem Analysis.complaint_mem_of_violated {file : SourceFile} {rules : List Rule} {r : Rule} {events : List Event}
    {e : Event} (hr : r ∈ rules) (hevents : file.tree.events = .ok events) (he : e ∈ events)
    (h : r.Violated file e) : ∃ findings, analyse file rules = .ok findings ∧ r.complaint file e ∈ findings := by
  obtain ⟨hfault, hitems⟩ := Delivery.complete_eq_ok_iff.1 hevents
  refine ⟨(report file rules).items, Delivery.complete_eq_ok_iff.2 ⟨?_, rfl⟩, ?_⟩
  · rw [report_fault, hfault, ite_self]
  · rw [report_items, hitems, List.mem_flatMap]
    refine ⟨e, he, List.mem_map.2 ⟨r, List.mem_filter.2 ⟨hr, ?_⟩, rfl⟩⟩
    exact decide_eq_true h

/-- The direction of dependencies in the standard policy. If no common prefix begins the base package, an inner layer
accepts only what the classifier places in itself, in a layer inside it or nowhere, so that an import from a ring
around it is always found. If some common prefix does, every governed layer accepts all that is below the base
package. -/
theorem standard_keeps_rings (base : String) :
    ((∀ q ∈ Policy.defaultCommon, ¬ q.toList <+: (base ++ ".").toList) →
      (∀ path, (Policy.standard base).Accepts .domain path →
        Layer.ofPackage base path = .domain ∨ Layer.ofPackage base path = .unclassified) ∧
      (∀ path, (Policy.standard base).Accepts .application path →
        Layer.ofPackage base path = .domain ∨ Layer.ofPackage base path = .application ∨
          Layer.ofPackage base path = .unclassified) ∧
      ∀ (r : Rule) (rules : List Rule) (file : SourceFile) (events : List Event) (path : String)
        (location : Location),
        r ∈ rules → r.check = .forbiddenImport → r.policy = Policy.standard base → r.Covers file.path →
        (Layer.ofPackage base file.package = .domain ∨ Layer.ofPackage base file.package = .application) →
        file.tree.events = .ok events → .imported (some path) location ∈ events →
        (Layer.ofPackage base path).Surrounds (Layer.ofPackage base file.package) →
        ∃ findings, Analysis.analyse file rules = .ok findings ∧
          r.complaint file (.imported (some path) location) ∈ findings) ∧
    ((∃ q ∈ Policy.defaultCommon, q.toList <+: (base ++ ".").toList) →
      ∀ layer entry, (Policy.standard base).lookup layer = some entry →
        ∀ path : String, (base ++ ".").toList <+: path.toList → (Policy.standard base).Accepts layer path) := by
  refine ⟨fun hclear => ?_, fun hcovered layer entry hentry path hpath =>
    Policy.standard_accepts_of_common_prefix hcovered hentry hpath⟩
  have hdomain : ∀ path, (Policy.standard base).Accepts .domain path →
      Layer.ofPackage base path = .domain ∨ Layer.ofPackage base path = .unclassified := by
    intro path h
    have hlayer := Policy.layer_of_prefix hclear _ ((Policy.standard_accepts_iff (Or.inl rfl) path).1 h)
    simpa [Policy.importable] using hlayer
  have happlication : ∀ path, (Policy.standard base).Accepts .application path →
      Layer.ofPackage base path = .domain ∨ Layer.ofPackage base path = .application ∨
        Layer.ofPackage base path = .unclassified := by
    intro path h
    have hlayer := Policy.layer_of_prefix hclear _ ((Policy.standard_accepts_iff (Or.inr rfl) path).1 h)
    simpa [Policy.importable, or_assoc] using hlayer
  refine ⟨hdomain, happlication, ?_⟩
  intro r rules file events path location hr hcheck hpolicy hcovers hinner hevents hevent hsurrounds
  refine Analysis.complaint_mem_of_violated hr hevents hevent ?_
  have hbase : r.policy.base = base := by rw [hpolicy]; rfl
  have hgoverned : ∃ entry, (Policy.standard base).lookup (Layer.ofPackage base file.package) = some entry := by
    rcases hinner with h | h
    · exact ⟨_, by rw [h]; rfl⟩
    · exact ⟨_, by rw [h]; rfl⟩
  obtain ⟨entry, hentry⟩ := hgoverned
  have hlookup : r.policy.lookup (Layer.ofPackage r.policy.base file.package) = some entry := by
    rw [hbase, hpolicy, hentry]
  refine Rule.violated_of_not_accepts hcheck hcovers hlookup ?_
  rw [hbase, hpolicy]
  exact fun haccepts => Policy.not_surrounds_of_accepts hclear hinner haccepts hsurrounds

/-! ### Base packages that overlap a common prefix

`arrow` is shorter than the common prefix `arrow.core.` and keeps its rings; `kotlin.app` is longer than `kotlin.` and
has none. -/

namespace Overlap

/-- The rule about imports for the base package `arrow`. -/
def rule : Rule :=
  ⟨.forbiddenImport, {}, Policy.standard "arrow", defaultTestMarker⟩

/-- The import of a framework. -/
def event : Event :=
  .imported (some "arrow.framework.Bean") ⟨3, 1, none, none⟩

/-- A source of the domain with that import. -/
def file : SourceFile :=
  ⟨"/repo/src/main/A.kt", "arrow.domain.model", .recorded [event]⟩

theorem covers : rule.Covers file.path where
  active := rfl
  notTest := by decide
  notExcluded := by simp [rule]

theorem clear : ∀ q ∈ Policy.defaultCommon, ¬ q.toList <+: ("arrow" ++ ".").toList := by decide

theorem surrounds : (Layer.ofPackage "arrow" "arrow.framework.Bean").Surrounds
    (Layer.ofPackage "arrow" file.package) := by
  have houter : Layer.ofPackage "arrow" "arrow.framework.Bean" = .framework := by decide
  have hinner : Layer.ofPackage "arrow" file.package = .domain := by decide
  rw [houter, hinner]
  exact ⟨4, 0, rfl, rfl, by decide⟩

end Overlap

/-- The domain of `arrow` may import from `arrow.core`, which is in no layer, and is found to import a framework; the
domain of `kotlin.app` may import a framework. -/
theorem rings_of_overlapping_bases :
    (Policy.standard "arrow").Accepts .domain "arrow.core.Either" ∧
      (Layer.ofPackage "arrow" "arrow.core.Either" = .domain ∨
        Layer.ofPackage "arrow" "arrow.core.Either" = .unclassified) ∧
      (∃ findings, Analysis.analyse Overlap.file [Overlap.rule] = .ok findings ∧
        Overlap.rule.complaint Overlap.file Overlap.event ∈ findings) ∧
      (Policy.standard "kotlin.app").Accepts .domain "kotlin.app.framework.Bean" ∧
      Layer.ofPackage "kotlin.app" "kotlin.app.framework.Bean" = .framework := by
  have harrow := (standard_keeps_rings "arrow").1 Overlap.clear
  have hkotlin := (standard_keeps_rings "kotlin.app").2 ⟨"kotlin.", by decide, by decide⟩
  have haccepts : (Policy.standard "arrow").Accepts .domain "arrow.core.Either" := ⟨_, rfl, by decide⟩
  refine ⟨haccepts, harrow.1 _ haccepts, ?_, hkotlin _ _ rfl _ (by decide), by decide⟩
  exact harrow.2.2 Overlap.rule _ Overlap.file _ _ _ List.mem_cons_self rfl rfl Overlap.covers
    (Or.inl (by decide)) rfl List.mem_cons_self Overlap.surrounds

end Strata
