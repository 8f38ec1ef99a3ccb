import Strata.Proofs.Violations

/-!
# Loosening only removes findings

A policy is loosened by more prefixes, by more layers that may throw, and by lifting the import constraint of a layer
or all its constraints; a rule by a looser policy, by more excludes, and by turning it off. Whatever violates the
looser rule violates the stricter one, and both complain in the same words, because they put a package in the same
layer. So for each event the looser rules report some of what the stricter ones report, in the same order.
-/

namespace Strata

open Syntax (Event)

/-! ## Looser policies -/

/-- What a layer may do by the first entry it may do by the second. If the second one constrains the imports of the
layer, so does the first, and to fewer prefixes. -/
structure LayerPolicy.LoosensTo (entry entry' : LayerPolicy) : Prop where
  prefixes : entry'.prefixes = none ∨
    ∃ own own', entry.prefixes = some own ∧ entry'.prefixes = some own' ∧ own ⊆ own'
  throwAllowed : entry.throwAllowed = true → entry'.throwAllowed = true

/-- What is allowed by the first policy is allowed by the second, which governs the same base package and no layer
that the first does not govern. -/
structure Policy.LoosensTo (p p' : Policy) : Prop where
  base : p.base = p'.base
  common : p.common ⊆ p'.common
  entries : ∀ layer entry', p'.lookup layer = some entry' →
    ∃ entry, p.lookup layer = some entry ∧ entry.LoosensTo entry'

/-- The first rule with a looser policy, maybe more excludes, and maybe turned off. -/
structure Rule.LoosensTo (r r' : Rule) : Prop where
  check : r.check = r'.check
  policy : r.policy.LoosensTo r'.policy
  testMarker : r.testMarker = r'.testMarker
  severity : r.settings.severity = r'.settings.severity
  excludes : r.settings.excludes ⊆ r'.settings.excludes
  inactive : r.settings.active = false → r'.settings.active = false

namespace Rule

variable {r r' : Rule}

theorem LoosensTo.covers (h : LoosensTo r r') {path : String} (hcovers : r'.Covers path) : r.Covers path := by
  have hactive : r.settings.active = true := by
    by_contra hoff
    have hoff' := h.inactive (by simpa using hoff)
    rw [hcovers.active] at hoff'
    cases hoff'
  refine ⟨hactive, ?_, ?_⟩
  · rw [h.testMarker]
    exact hcovers.notTest
  · intro pattern hpattern
    exact hcovers.notExcluded pattern (h.excludes hpattern)

theorem LoosensTo.forbids (h : LoosensTo r r') {package : String} {e : Event} (hforbids : r'.Forbids package e) :
    r.Forbids package e := by
  cases e with
  | imported path location =>
    cases path with
    | none => exact hforbids
    | some path =>
      obtain ⟨hcheck, entry', own', hlookup', hown', hclear⟩ := hforbids
      rw [← h.policy.base] at hlookup'
      obtain ⟨entry, hlookup, hentry⟩ := h.policy.entries _ entry' hlookup'
      -- the looser entry has a constraint, so the stricter one has a tighter one
      rcases hentry.prefixes with hfree | ⟨own, own'', hown, hown'', hsub⟩
      · rw [hfree] at hown'
        cases hown'
      · rw [hown''] at hown'
        cases hown'
        refine ⟨h.check.trans hcheck, entry, own, hlookup, hown, ?_⟩
        intro q hq
        rcases List.mem_append.mp hq with hq | hq
        · exact hclear q (List.mem_append_left _ (h.policy.common hq))
        · exact hclear q (List.mem_append_right _ (hsub hq))
  | thrown location =>
    obtain ⟨hcheck, entry', hlookup', hthrow'⟩ := hforbids
    rw [← h.policy.base] at hlookup'
    obtain ⟨entry, hlookup, hentry⟩ := h.policy.entries _ entry' hlookup'
    refine ⟨h.check.trans hcheck, entry, hlookup, ?_⟩
    by_contra hallowed
    have hallowed' := hentry.throwAllowed (by simpa using hallowed)
    rw [hthrow'] at hallowed'
    cases hallowed'

/-- What violates the looser rule violates the stricter one. -/
theorem LoosensTo.violated (h : LoosensTo r r') {file : SourceFile} {e : Event} (hviolated : r'.Violated file e) :
    r.Violated file e :=
  ⟨h.covers hviolated.1, h.forbids hviolated.2⟩

theorem LoosensTo.complaint_eq (h : LoosensTo r r') (file : SourceFile) (e : Event) :
    r'.complaint file e = r.complaint file e := by
  simp only [complaint, h.check, h.policy.base, h.severity]

end Rule

namespace Analysis

variable {rules rules' : List Rule}

/-- Of one event looser rules report some of what stricter ones report. -/
theorem complaints_sublist (h : List.Forall₂ Rule.LoosensTo rules rules') (file : SourceFile) (e : Event) :
    ((rules'.filter fun r => r.Violated file e).map fun r => r.complaint file e).Sublist
      ((rules.filter fun r => r.Violated file e).map fun r => r.complaint file e) := by
  induction h with
  | nil => exact List.Sublist.refl _
  | @cons r r' rules rules' hr _ ih =>
    by_cases hloose : r'.Violated file e
    · have hstrict := hr.violated hloose
      simp only [List.filter_cons, hloose, hstrict, decide_true, if_true, List.map_cons, hr.complaint_eq]
      exact ih.cons_cons _
    · by_cases hstrict : r.Violated file e
      · simp only [List.filter_cons, hloose, hstrict, decide_true, decide_false, if_true, Bool.false_eq_true, if_false,
          List.map_cons]
        exact ih.cons _
      · simp only [List.filter_cons, hloose, hstrict, decide_false, Bool.false_eq_true, if_false]
        exact ih

/-- Of all events, up to the end of the source or to a fault, looser rules report some of what stricter ones report. -/
theorem report_items_sublist (h : List.Forall₂ Rule.LoosensTo rules rules') (file : SourceFile) :
    (report file rules').items.Sublist (report file rules).items := by
  rw [report_items, report_items]
  exact List.Sublist.flatMap_right _ fun e _ => complaints_sublist h file e

/-- If no rule is on, none of the looser ones is. -/
theorem activeRules_isEmpty_of_loosensTo (h : List.Forall₂ Rule.LoosensTo rules rules')
    (hnone : (activeRules rules).isEmpty = true) : (activeRules rules').isEmpty = true := by
  rw [activeRules, List.isEmpty_iff, List.filter_eq_nil_iff] at hnone ⊢
  induction h with
  | nil => exact hnone
  | @cons r r' rules rules' hr _ ih =>
    rw [List.forall_mem_cons] at hnone ⊢
    refine ⟨?_, ih hnone.2⟩
    have hoff := hr.inactive (by simpa using hnone.1)
    simp [hoff]

/-- Looser rules fail only where the stricter ones do. -/
theorem report_fault_of_loosensTo (h : List.Forall₂ Rule.LoosensTo rules rules') (file : SourceFile) :
    (report file rules').fault = (report file rules).fault ∨ (report file rules').complete = .ok [] := by
  by_cases hnone' : (activeRules rules').isEmpty = true
  · right
    rw [report, if_pos hnone']
    rfl
  · have hsome : ¬ (activeRules rules).isEmpty = true :=
      fun hnone => hnone' (activeRules_isEmpty_of_loosensTo h hnone)
    left
    rw [report_fault, report_fault, if_neg hnone', if_neg hsome]

/-- Loosening can only remove findings. If a source is analysed by some rules, it is also analysed by looser ones,
which find a part of what was found, in the same order. If the analysis fails, that by the looser rules fails alike,
or none of them is on. Up to its end or to a fault, it reports a part of what was reported. -/
theorem loosening_only_removes_findings (h : List.Forall₂ Rule.LoosensTo rules rules') (file : SourceFile) :
    (∀ findings, analyse file rules = .ok findings →
      ∃ findings', analyse file rules' = .ok findings' ∧ findings'.Sublist findings) ∧
    (∀ f, analyse file rules = .error f → analyse file rules' = .error f ∨ analyse file rules' = .ok []) ∧
    (report file rules').items.Sublist (report file rules).items := by
  have hsub := report_items_sublist h file
  refine ⟨?_, ?_, hsub⟩
  · intro findings hfindings
    obtain ⟨hfault, rfl⟩ := Delivery.complete_eq_ok_iff.mp hfindings
    rcases report_fault_of_loosensTo h file with hsame | hnone
    · exact ⟨_, Delivery.complete_eq_ok_iff.mpr ⟨hsame.trans hfault, rfl⟩, hsub⟩
    · exact ⟨[], hnone, List.nil_sublist _⟩
  · intro f hf
    rcases report_fault_of_loosensTo h file with hsame | hnone
    · left
      rw [analyse, Delivery.complete] at hf ⊢
      rw [hsame]
      cases hfault : (report file rules).fault with
      | none =>
        rw [hfault] at hf
        cases hf
      | some f' =>
        rw [hfault] at hf
        cases hf
        rfl
    · exact Or.inr hnone

/-! ### A looser domain -/

namespace LooserDomain

/-- The domain may also import what is below `org.x`, and the other layers are not governed any more. -/
def policy : Policy :=
  ⟨[(.domain, ⟨some ["org.x.", "a.domain."], false⟩)], "io." :: Policy.defaultCommon, "a"⟩

def strict : List Rule :=
  [⟨.noThrow, {}, Policy.standard "a", "/test/"⟩, ⟨.forbiddenImport, {}, Policy.standard "a", "/test/"⟩]

/-- The rule about throws is off, and the other one leaves generated sources out. -/
def loose : List Rule :=
  [⟨.noThrow, { active := false }, policy, "/test/"⟩,
    ⟨.forbiddenImport, { excludes := ["*/gen/*"] }, policy, "/test/"⟩]

theorem policy_loosensTo : (Policy.standard "a").LoosensTo policy where
  base := rfl
  common := List.subset_cons_self _ _
  entries layer entry' hlookup := by
    cases layer with
    | domain =>
      cases hlookup
      exact ⟨_, rfl, Or.inr ⟨_, _, rfl, rfl, by simp⟩, fun h => h⟩
    | _ => cases hlookup

theorem loosensTo : List.Forall₂ Rule.LoosensTo strict loose :=
  .cons ⟨rfl, policy_loosensTo, rfl, rfl, List.nil_subset _, fun _ => rfl⟩
    (.cons ⟨rfl, policy_loosensTo, rfl, rfl, List.nil_subset _, fun h => h⟩ .nil)

/-- A source of the domain with two imports and a throw. -/
def file : SourceFile :=
  ⟨"/repo/src/main/A.kt", "a.domain", .recorded [.imported (some "org.x.Y") ⟨2, 1, none, none⟩,
    .imported (some "com.z.W") ⟨3, 1, none, none⟩, .thrown ⟨5, 1, none, none⟩]⟩

end LooserDomain

/-- Of the three findings in a source of the domain, loosening leaves the one of the import that is still forbidden. -/
theorem findings_of_looser_domain :
    List.Forall₂ Rule.LoosensTo LooserDomain.strict LooserDomain.loose ∧
      (∃ findings findings', analyse LooserDomain.file LooserDomain.strict = .ok findings ∧
        analyse LooserDomain.file LooserDomain.loose = .ok findings' ∧ findings'.Sublist findings ∧
        findings.length = 3 ∧ findings'.length = 1) := by
  obtain ⟨findings, hfindings, hlength⟩ :
      ∃ findings, analyse LooserDomain.file LooserDomain.strict = .ok findings ∧ findings.length = 3 :=
    ⟨_, rfl, by decide⟩
  have hloosens := LooserDomain.loosensTo
  obtain ⟨findings', hfindings', hsub⟩ :=
    (loosening_only_removes_findings hloosens LooserDomain.file).1 findings hfindings
  refine ⟨hloosens, findings, findings', hfindings, hfindings', hsub, hlength, ?_⟩
  cases hfindings'
  decide

end Analysis

end Strata
