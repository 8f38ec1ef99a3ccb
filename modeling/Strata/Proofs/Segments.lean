import Mathlib.Tactic
import Strata.Proofs.Rings

/-!
# Packages read segment by segment

The classifier cuts the base package and a dot off a text and takes what stands before the next dot. In terms of the
segments between the dots this is: the segments of the package begin with those of the base package, and the next one
is the name of a layer. The two readings agree because a text begins with another one and a separator iff its runs
begin with the runs of the other one and go on (`Text.splitAt_eq_append_iff`), also if runs are empty.
-/

namespace Strata

namespace Layer

variable {base package : String} {layer : Layer}

/-- Each layer but `unclassified` is named by one segment, and no other segment names it. -/
theorem ofSegment_eq_iff (hlayer : layer ≠ .unclassified) {segment : String} :
    ofSegment segment = layer ↔ segment = layer.name := by
  constructor
  · intro h
    unfold ofSegment ofName? at h
    cases hfind : all.find? (fun l => l.name == segment) with
    | none =>
      rw [hfind] at h
      exact absurd h.symm hlayer
    | some found =>
      rw [hfind] at h
      have hfound : found = layer := h
      have hname := List.find?_some hfind
      rw [← hfound]
      exact (beq_iff_eq.mp hname).symm
  · rintro rfl
    cases layer <;> decide

/-- A package is in a layer iff its segments begin with those of the base package and then name the layer. -/
theorem ofPackage_eq_iff (hlayer : layer ≠ .unclassified) :
    ofPackage base package = layer ↔ Text.split '.' base ++ [layer.name] <+: Text.split '.' package := by
  have hsegments : Text.split '.' base ++ [layer.name] <+: Text.split '.' package ↔
      ∃ rest, package.toList = base.toList ++ '.' :: rest ∧
        rest.takeWhile (fun c => c != '.') = layer.name.toList := by
    rw [← Text.prefix_splitAt_iff, ← Text.map_ofList_prefix_iff, List.map_append, List.map_singleton,
      String.ofList_toList]
    rfl
  rw [hsegments]
  have hdot : (base ++ ".").toList = base.toList ++ ['.'] := String.toList_append
  constructor
  · intro h
    by_cases hbelow : (base ++ ".").toList <+: package.toList
    · obtain ⟨rest, hrest⟩ := hbelow
      rw [ofPackage_append hrest, ofSegment_eq_iff hlayer] at h
      refine ⟨rest, ?_, ?_⟩
      · rw [← hrest, hdot, List.append_assoc, List.singleton_append]
      · rw [← h, String.toList_ofList]
    · have hnone := ofPackage_of_not_prefix hbelow
      exact absurd (h.symm.trans hnone) hlayer
  · rintro ⟨rest, hpackage, hname⟩
    have hrest : (base ++ ".").toList ++ rest = package.toList := by
      rw [hpackage, hdot, List.append_assoc, List.singleton_append]
    rw [ofPackage_append hrest, ofSegment_eq_iff hlayer, hname, String.ofList_toList]

/-- The classifier reads packages segment by segment. A package is in a layer iff its segments begin with those of the
base package and then the name of the layer, and otherwise it is unclassified: so is the base package itself, what is
outside of it, and what goes on behind it with a segment that is not the name of a layer letter by letter. Segments
behind the name of the layer change nothing. -/
theorem ofPackage_reads_segments (base package : String) :
    (∀ layer : Layer, layer ≠ .unclassified →
      (ofPackage base package = layer ↔ Text.split '.' base ++ [layer.name] <+: Text.split '.' package)) ∧
    ((∀ layer : Layer, layer ≠ .unclassified →
        ¬ Text.split '.' base ++ [layer.name] <+: Text.split '.' package) →
      ofPackage base package = .unclassified) ∧
    ofPackage base base = .unclassified ∧
    (¬ Text.split '.' base <+: Text.split '.' package → ofPackage base package = .unclassified) ∧
    (∀ segment rest, Text.split '.' package = Text.split '.' base ++ segment :: rest →
      (∀ layer : Layer, layer ≠ .unclassified → segment ≠ layer.name) → ofPackage base package = .unclassified) ∧
    ∀ more : String, ofPackage base package ≠ .unclassified →
      ofPackage base (package ++ "." ++ more) = ofPackage base package := by
  have hother : ∀ {p : String}, (∀ layer : Layer, layer ≠ .unclassified →
      ¬ Text.split '.' base ++ [layer.name] <+: Text.split '.' p) → ofPackage base p = .unclassified := by
    intro p hnone
    by_contra hne
    exact hnone _ hne ((ofPackage_eq_iff hne).mp rfl)
  refine ⟨fun layer hlayer => ofPackage_eq_iff hlayer, hother, ?_, ?_, ?_, ?_⟩
  · apply hother
    intro layer _ hprefix
    have hlength := hprefix.length_le
    rw [List.length_append, List.length_singleton] at hlength
    omega
  · intro houtside
    apply hother
    intro layer _ hprefix
    exact houtside ((List.prefix_append _ _).trans hprefix)
  · intro segment rest hsplit hsegment
    apply hother
    intro layer hlayer hprefix
    rw [hsplit, List.prefix_append_right_inj] at hprefix
    have hname : layer.name = segment := by simpa using hprefix
    exact hsegment layer hlayer hname.symm
  · intro more hclassified
    rw [ofPackage_eq_iff hclassified, Text.split_append_dot]
    have hprefix := (ofPackage_eq_iff hclassified).mp (rfl : ofPackage base package = _)
    exact hprefix.trans (List.prefix_append _ _)

/-- A base package that ends with a dot has an empty last segment, which packages below it repeat. -/
theorem segments_of_base_with_dot :
    Text.split '.' "a." ++ [domain.name] <+: Text.split '.' "a..domain" ∧ ofPackage "a." "a..domain" = .domain ∧
      ofPackage "a." "a..domain.model" = ofPackage "a." "a..domain" ∧
      ¬ Text.split '.' "a." <+: Text.split '.' "a.domain" ∧ ofPackage "a." "a.domain" = .unclassified ∧
      Text.split '.' "a..domainx" = Text.split '.' "a." ++ ["domainx"] ∧
      ofPackage "a." "a..domainx" = .unclassified := by
  have hbelow := ofPackage_reads_segments "a." "a..domain"
  have houtside := ofPackage_reads_segments "a." "a.domain"
  have hpartial := ofPackage_reads_segments "a." "a..domainx"
  have hsegments : Text.split '.' "a." ++ [domain.name] <+: Text.split '.' "a..domain" := by decide
  have hdomain := (hbelow.1 .domain (by decide)).mpr hsegments
  have hclassified : ofPackage "a." "a..domain" ≠ .unclassified := by
    rw [hdomain]
    decide
  have hnames : ∀ layer : Layer, layer ≠ .unclassified → "domainx" ≠ layer.name := by
    intro layer _
    cases layer <;> decide
  refine ⟨hsegments, hdomain, hbelow.2.2.2.2.2 "model" hclassified, by decide, houtside.2.2.2.1 (by decide),
    by decide, hpartial.2.2.2.2.1 "domainx" [] (by decide) hnames⟩

end Layer

end Strata
