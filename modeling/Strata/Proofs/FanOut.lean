import Mathlib.Data.List.ProdSigma
import Strata.Proofs.Violations

/-!
# Handing events out to the rules

The analysis of a source goes over its events once and hands each of them to the rules that are on and look at its
kind, so the findings of all rules come in one list. This agrees with asking every rule on its own about every event:
the findings with the name of a rule are those that the rule has alone, and the list is an interleaving of these.
What is handed out for one event is settled first (`filter_name_findingsAt`); a source is one event after the other.
-/

namespace Strata

open Syntax (Event)

/-! ## Interleavings -/

/-- The list comes about by taking one item after the other from the front of some of the parts, until all of them are
used up. -/
inductive Interleaves {α : Type} : List (List α) → List α → Prop
  | done {parts : List (List α)} (h : ∀ part ∈ parts, part = []) : Interleaves parts []
  | take {before after : List (List α)} {part items : List α} {a : α}
      (h : Interleaves (before ++ part :: after) items) : Interleaves (before ++ (a :: part) :: after) (a :: items)

/-- A list whose items all carry one of some labels is an interleaving of its parts with one label each. -/
theorem interleaves_filter {α κ : Type} [DecidableEq κ] {label : α → κ} {labels : List κ} (hnodup : labels.Nodup)
    {items : List α} (h : ∀ a ∈ items, label a ∈ labels) :
    Interleaves (labels.map fun k => items.filter fun a => label a = k) items := by
  induction items with
  | nil =>
    apply Interleaves.done
    intro part hpart
    obtain ⟨k, -, rfl⟩ := List.mem_map.mp hpart
    rfl
  | cons a items ih =>
    obtain ⟨before, after, rfl⟩ := List.append_of_mem (h a List.mem_cons_self)
    have hrest := ih fun b hb => h b (List.mem_cons_of_mem a hb)
    rw [List.nodup_append, List.nodup_cons] at hnodup
    obtain ⟨-, ⟨hafter, -⟩, hbefore⟩ := hnodup
    -- the first item belongs to the part with its own label and to no other one
    have hother : ∀ ks : List κ, label a ∉ ks →
        (ks.map fun k => (a :: items).filter fun b => label b = k) =
          ks.map fun k => items.filter fun b => label b = k := by
      intro ks hks
      refine List.map_congr_left fun k hk => ?_
      have hne : label a ≠ k := fun heq => hks (heq ▸ hk)
      simp [hne]
    have hown : (a :: items).filter (fun b => label b = label a) =
        a :: items.filter fun b => label b = label a := by
      simp
    rw [List.map_append, List.map_cons] at hrest ⊢
    rw [hother before fun hmem => hbefore _ hmem _ List.mem_cons_self rfl, hother after hafter, hown]
    exact Interleaves.take hrest

/-! ## What one rule has alone -/

namespace Rule

theorem rule_of_visit {r : Rule} {file : SourceFile} {e : Event} {f : Finding} (h : r.visit file e = some f) :
    f.rule = r.name := by
  obtain ⟨-, -, rfl⟩ := visit_eq_some_iff.mp h
  rfl

/-- What a rule that is handed every event by itself reports of an event: nothing while it is off. -/
def visitIfActive (r : Rule) (file : SourceFile) (e : Event) : Option Finding :=
  if r.settings.active then r.visit file e else none

theorem rule_of_visitIfActive {r : Rule} {file : SourceFile} {e : Event} {f : Finding}
    (h : r.visitIfActive file e = some f) : f.rule = r.name := by
  unfold visitIfActive at h
  split at h
  · exact rule_of_visit h
  · cases h

end Rule

namespace Analysis

section

variable {file : SourceFile} {rules : List Rule}

/-! ## What is handed out for one event -/

theorem findingsAt_eq_visitIfActive (file : SourceFile) (rules : List Rule) (e : Event) :
    findingsAt file (activeRules rules) e = rules.filterMap fun r => r.visitIfActive file e := by
  rw [findingsAt_eq_filterMap_visit, activeRules, List.filterMap_filter]
  rfl

/-- Of the findings for an event those with the name of a rule are its own, if no other rule has the name. -/
theorem filter_name_findingsAt (hnames : (rules.map Rule.name).Nodup) {r : Rule} (hr : r ∈ rules) (e : Event) :
    (findingsAt file (activeRules rules) e).filter (fun f => f.rule = r.name) = (r.visitIfActive file e).toList := by
  obtain ⟨before, after, rfl⟩ := List.append_of_mem hr
  rw [List.map_append, List.map_cons, List.nodup_append, List.nodup_cons] at hnames
  obtain ⟨-, ⟨hafter, -⟩, hbefore⟩ := hnames
  have hother : ∀ others : List Rule, r.name ∉ others.map Rule.name →
      (others.filterMap fun r' => r'.visitIfActive file e).filter (fun f => f.rule = r.name) = [] := by
    intro others hothers
    rw [List.filter_eq_nil_iff]
    intro f hf hname
    obtain ⟨r', hr', hvisit⟩ := List.mem_filterMap.mp hf
    have hsame : r'.name = r.name := (Rule.rule_of_visitIfActive hvisit).symm.trans (by simpa using hname)
    exact hothers (hsame ▸ List.mem_map_of_mem hr')
  have hself : ((r.visitIfActive file e).toList).filter (fun f => f.rule = r.name) =
      (r.visitIfActive file e).toList := by
    rw [List.filter_eq_self]
    intro f hf
    simpa using Rule.rule_of_visitIfActive (Option.mem_toList.mp hf)
  have hcons : ((r :: after).filterMap fun r' => r'.visitIfActive file e) =
      (r.visitIfActive file e).toList ++ after.filterMap fun r' => r'.visitIfActive file e := by
    rw [List.filterMap_cons]
    cases r.visitIfActive file e <;> rfl
  rw [findingsAt_eq_visitIfActive, List.filterMap_append, hcons, List.filter_append, List.filter_append,
    hother before fun hmem => hbefore _ hmem _ List.mem_cons_self rfl, hother after hafter, hself, List.nil_append,
    List.append_nil]

/-! ## What is handed out for a source -/

/-- Of all findings those with the name of a rule are the ones that it has alone. -/
theorem filter_name_report (hnames : (rules.map Rule.name).Nodup) {r : Rule} (hr : r ∈ rules) :
    (report file rules).items.filter (fun f => f.rule = r.name) =
      file.tree.delivery.items.filterMap (r.visitIfActive file) := by
  rw [report_items_eq_flatMap, List.filter_flatMap, List.filterMap_eq_flatMap_toList]
  congr 1
  funext e
  exact filter_name_findingsAt hnames hr e

theorem report_items_eq_product (file : SourceFile) (rules : List Rule) :
    (report file rules).items =
      (file.tree.delivery.items.product rules).filterMap fun x => x.2.visitIfActive file x.1 := by
  rw [report_items_eq_flatMap, List.product, List.filterMap_flatMap]
  congr 1
  funext e
  rw [findingsAt_eq_visitIfActive, List.filterMap_map]
  rfl

theorem name_of_mem_report {f : Finding} (h : f ∈ (report file rules).items) : f.rule ∈ rules.map Rule.name := by
  rw [report_items_eq_product] at h
  obtain ⟨⟨e, r⟩, hpair, hvisit⟩ := List.mem_filterMap.mp h
  rw [Rule.rule_of_visitIfActive hvisit]
  exact List.mem_map_of_mem (List.pair_mem_product.mp hpair).2

end

/-- Handing events out by the kinds that the rules look at loses nothing. If no two rules have the same name and the
source can be read, then the findings with the name of a rule are those that it has when it is handed every event of
the source directly, and none while the rule is off; all findings together are an interleaving of these, in the order
of the events and for one event in the order of the rules. A source that cannot be read fails the analysis, unless all
rules are off and nothing is read. -/
theorem fan_out_loses_nothing (file : SourceFile) (rules : List Rule) (hnames : (rules.map Rule.name).Nodup) :
    (∀ events, file.tree.events = .ok events → ∃ findings, analyse file rules = .ok findings ∧
      (∀ r ∈ rules, findings.filter (fun f => f.rule = r.name) =
        if r.settings.active then events.filterMap (r.visit file) else []) ∧
      Interleaves (rules.map fun r => findings.filter fun f => f.rule = r.name) findings ∧
      findings = (events.product rules).filterMap fun x =>
        if x.2.settings.active then x.2.visit file x.1 else none) ∧
    ∀ fault, file.tree.events = .error fault →
      analyse file rules = if rules.any (fun r => r.settings.active) then .error fault else .ok [] := by
  constructor
  · intro events hevents
    obtain ⟨hfault, hitems⟩ := Delivery.complete_eq_ok_iff.mp hevents
    refine ⟨(report file rules).items, Delivery.complete_eq_ok_iff.mpr ⟨?_, rfl⟩, ?_, ?_, ?_⟩
    · rw [report_fault, hfault, ite_self]
    · intro r hr
      rw [filter_name_report hnames hr, hitems]
      by_cases hactive : r.settings.active = true
      · rw [if_pos hactive]
        congr 1
        funext e
        exact if_pos hactive
      · have hnone : r.visitIfActive file = fun _ => none := by
          funext e
          exact if_neg hactive
        rw [if_neg hactive, hnone]
        simp
    · have hlabels : ∀ f ∈ (report file rules).items, f.rule ∈ rules.map Rule.name :=
        fun f hf => name_of_mem_report hf
      have hparts := interleaves_filter hnames hlabels
      rwa [List.map_map] at hparts
    · rw [report_items_eq_product, hitems]
      rfl
  · intro fault hevents
    have hfault := Delivery.complete_eq_error_iff.mp hevents
    by_cases hany : rules.any (fun r => r.settings.active) = true
    · have hsome : ¬ (activeRules rules).isEmpty = true := by simpa [activeRules] using hany
      rw [if_pos hany]
      refine Delivery.complete_eq_error_iff.mpr ?_
      rw [report_fault, if_neg hsome, hfault]
    · have hnone : (activeRules rules).isEmpty = true := by simpa [activeRules] using hany
      rw [if_neg hany, analyse, report, if_pos hnone]
      rfl

/-! ### Two rules, and a path that is no UTF-8 -/

namespace TwoRules

/-- The two rules for the base package `a`. -/
def rules : List Rule :=
  [⟨.noThrow, {}, Policy.standard "a", defaultTestMarker⟩,
    ⟨.forbiddenImport, {}, Policy.standard "a", defaultTestMarker⟩]

/-- A throw between two imports. -/
def events : List Event :=
  [.imported (some "b.C") ⟨2, 1, none, none⟩, .thrown ⟨3, 1, none, none⟩, .imported (some "d") ⟨4, 1, none, none⟩]

def file : SourceFile :=
  ⟨"/repo/A.kt", "a.domain", .recorded events⟩

/-- An import whose path is no UTF-8. -/
def broken : Syntax.Node :=
  .mk "import" true ByteArray.empty ⟨⟨0, 0⟩, ⟨0, 8⟩⟩ [.mk "identifier" true ⟨#[255]⟩ ⟨⟨0, 7⟩, ⟨0, 8⟩⟩ []]

theorem events_broken : (SourceTree.parsed broken).events = .error ⟨0, 255, 0, .invalidStart⟩ := by
  rw [SourceTree.events, SourceTree.delivery, Syntax.walk_eq_toldOf]
  rfl

end TwoRules

/-- The findings of the two rules stand between each other, and a source with a broken import has none. -/
theorem fan_out_of_throw_between_imports :
    (TwoRules.rules.map Rule.name).Nodup ∧
    (∃ findings, analyse TwoRules.file TwoRules.rules = .ok findings ∧
      (∀ r ∈ TwoRules.rules, findings.filter (fun f => f.rule = r.name) =
        if r.settings.active then TwoRules.events.filterMap (r.visit TwoRules.file) else []) ∧
      Interleaves (TwoRules.rules.map fun r => findings.filter fun f => f.rule = r.name) findings ∧
      findings.map Finding.rule =
        ["ForbiddenLayerImport", "NoThrowOutsidePresentation", "ForbiddenLayerImport"]) ∧
    analyse { TwoRules.file with tree := .parsed TwoRules.broken } TwoRules.rules =
      .error ⟨0, 255, 0, .invalidStart⟩ := by
  have hnames : (TwoRules.rules.map Rule.name).Nodup := by decide
  refine ⟨hnames, ?_, ?_⟩
  · obtain ⟨findings, hanalyse, hown, hparts, hall⟩ :=
      (fan_out_loses_nothing TwoRules.file TwoRules.rules hnames).1 TwoRules.events rfl
    refine ⟨findings, hanalyse, hown, hparts, ?_⟩
    rw [hall]
    decide
  · exact (fan_out_loses_nothing { TwoRules.file with tree := .parsed TwoRules.broken } TwoRules.rules hnames).2 _
      TwoRules.events_broken

end Analysis

end Strata
