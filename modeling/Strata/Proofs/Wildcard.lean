import Mathlib.Tactic
import Strata.Proofs.DottedNames
import Strata.Proofs.Violations

/-!
# Imports of whole packages

`import p.*` brings in every name below the package `p`, but the event of such an import has the path `p`, without
the star and without the dot. The allowed prefixes end in a dot, so a layer that may import every single name below
`p` because `p.` is one of its prefixes is still reported for importing them all at once. These are the only
imports of permitted packages that are reported (`wildcard_import_reported_iff`).
-/

namespace Strata

open Syntax (Event Node)

namespace Syntax.Node

/-- The import of all that is below a package: a named path with this text, behind marks of the grammar and before
a dot and a star, which are marks as well. -/
structure IsWildcardImport (n : Node) (text : String) : Prop where
  isImport : n.isImport = true
  shape : ∃ before path dot star after, n.children = before ++ path :: dot :: star :: after ∧
    (∀ m ∈ before, m.named = false) ∧ path.named = true ∧ path.isPath = true ∧ path.text = text.toUTF8 ∧
    dot.named = false ∧ dot.kind = "." ∧ star.named = false ∧ star.kind = "*"

/-- The event of such an import has the path without dot and star. -/
theorem IsWildcardImport.importEvent_eq {n : Node} {text : String} (h : n.IsWildcardImport text) :
    n.importEvent = .ok (.imported
      (if Text.deleteBlanks text = "" then none else some (Text.deleteBlanks text)) n.location) := by
  obtain ⟨before, path, dot, star, after, hchildren, hbefore, hnamed, hpath, htext, -⟩ := h.shape
  have hchild : n.pathChild? = some path := by
    have hskip : before.find? (fun c => c.named && c.isPath) = none := by
      rw [List.find?_eq_none]
      intro m hm
      simp [hbefore m hm]
    rw [pathChild?, hchildren, List.find?_append, hskip, Option.none_or, List.find?_cons_of_pos]
    simp [hnamed, hpath]
  have hdecode : Text.Utf8.decode path.text = .ok text := Text.Utf8.decode_eq_ok_iff.2 htext
  rw [importEvent, dottedPath_of_decode hchild hdecode]
  rfl

end Syntax.Node

/-- All prefixes that a layer may import, if it has an import constraint. -/
def Policy.prefixesOf (p : Policy) (layer : Layer) : Option (List String) :=
  (p.lookup layer).bind fun entry => entry.prefixes.map fun own => p.common ++ own

namespace Rule

/-- A rule about imports that looks at a source with an import constraint reports a path iff none of the allowed
prefixes begins it. -/
theorem visit_imported_isSome_iff {r : Rule} {file : SourceFile} {allowed : List String}
    (hcheck : r.check = .forbiddenImport) (happlies : r.appliesTo file.path = true)
    (hallowed : r.policy.prefixesOf (Layer.ofPackage r.policy.base file.package) = some allowed)
    (path : String) (location : Location) :
    (r.visit file (.imported (some path) location)).isSome = true ↔
      ∀ q ∈ allowed, ¬ q.toList <+: path.toList := by
  obtain ⟨entry, hentry, hprefixes⟩ := Option.bind_eq_some_iff.1 hallowed
  obtain ⟨own, hown, rfl⟩ := Option.map_eq_some_iff.1 hprefixes
  rw [Option.isSome_iff_exists]
  constructor
  · rintro ⟨f, hf⟩
    obtain ⟨-, ⟨-, entry', own', hentry', hown', hnone⟩, -⟩ := visit_eq_some_iff.1 hf
    rw [hentry] at hentry'
    cases hentry'
    rw [hown] at hown'
    cases hown'
    exact hnone
  · intro hnone
    exact ⟨_, visit_eq_some_iff.2 ⟨happlies, ⟨hcheck, entry, own, hentry, hown, hnone⟩, rfl⟩⟩

end Rule

/-- In the standard policy the domain and the application have an import constraint, and no prefix of theirs is as
short as a dot. -/
theorem Policy.standard_prefixesOf (base : String) {layer : Layer}
    (h : layer = .domain ∨ layer = .application) :
    ∃ allowed, (standard base).prefixesOf layer = some allowed ∧ ∀ q ∈ allowed, 1 < q.toList.length := by
  have hcommon : ∀ q ∈ defaultCommon, 1 < q.toList.length := by decide
  have hown : ∀ suffix : String, 1 < suffix.toList.length → 1 < (base ++ suffix).toList.length := by
    intro suffix hsuffix
    rw [String.toList_append, List.length_append]
    omega
  rcases h with rfl | rfl
  · refine ⟨defaultCommon ++ [base ++ ".domain."], rfl, ?_⟩
    rw [List.forall_mem_append, List.forall_mem_singleton]
    exact ⟨hcommon, hown _ (by decide)⟩
  · refine ⟨defaultCommon ++ [base ++ ".domain.", base ++ ".application."], rfl, ?_⟩
    rw [List.forall_mem_append, List.forall_mem_cons, List.forall_mem_singleton]
    exact ⟨hcommon, hown _ (by decide), hown _ (by decide)⟩

/-- A prefix of a package with a dot behind it is a prefix of the package, or all of it. -/
theorem prefix_append_dot_iff {q package : String} :
    q.toList <+: (package ++ ".").toList ↔ q = package ++ "." ∨ q.toList <+: package.toList := by
  rw [String.toList_append, show ".".toList = ['.'] from rfl, List.prefix_concat_iff]
  constructor
  · rintro (h | h)
    · left
      rw [← String.toList_inj, String.toList_append]
      exact h
    · exact Or.inr h
  · rintro (rfl | h)
    · left
      rw [String.toList_append]
      rfl
    · exact Or.inr h

/-- When an inner layer is reported for importing all that is below a package: if no allowed prefix begins the
package. So if every name below the package may be imported by itself, because an allowed prefix begins the package
with a dot behind it, the import of all of them is reported exactly when the package with the dot is itself an
allowed prefix and no other one begins the package. -/
theorem wildcard_import_reported_iff {base : String} {r : Rule} {file : SourceFile} {n : Node} {text : String}
    (hcheck : r.check = .forbiddenImport) (hpolicy : r.policy = Policy.standard base)
    (hlayer : Layer.ofPackage base file.package = .domain ∨ Layer.ofPackage base file.package = .application)
    (hcovers : r.Covers file.path) (hn : n.IsWildcardImport text) :
    ∃ allowed e, (Policy.standard base).prefixesOf (Layer.ofPackage base file.package) = some allowed ∧
      n.importEvent = .ok e ∧
      ((r.visit file e).isSome = true ↔ Text.deleteBlanks text ≠ "" ∧
        ∀ q ∈ allowed, ¬ q.toList <+: (Text.deleteBlanks text).toList) ∧
      ((∃ q ∈ allowed, q.toList <+: (Text.deleteBlanks text ++ ".").toList) →
        ((r.visit file e).isSome = true ↔ Text.deleteBlanks text ++ "." ∈ allowed ∧
          ∀ q ∈ allowed, ¬ q.toList <+: (Text.deleteBlanks text).toList)) := by
  obtain ⟨allowed, hallowed, hlong⟩ := Policy.standard_prefixesOf base hlayer
  refine ⟨allowed, _, hallowed, hn.importEvent_eq, ?_⟩
  generalize Text.deleteBlanks text = package
  have hreported : (r.visit file (.imported (if package = "" then none else some package) n.location)).isSome =
      true ↔ package ≠ "" ∧ ∀ q ∈ allowed, ¬ q.toList <+: package.toList := by
    by_cases hempty : package = ""
    · have hnone : r.visit file (.imported none n.location) = none := by
        rw [Option.eq_none_iff_forall_ne_some]
        intro f hf
        exact (Rule.visit_eq_some_iff.1 hf).2.1
      simp [hempty, hnone]
    · have hbase : r.policy.base = base := by rw [hpolicy]; rfl
      have hpath := Rule.visit_imported_isSome_iff hcheck (Rule.covers_iff.1 hcovers).2
        (by rw [hbase, hpolicy]; exact hallowed) package n.location
      simp only [hempty, if_false, hpath, ne_eq, not_false_eq_true, true_and]
  refine ⟨hreported, ?_⟩
  rintro ⟨q, hq, hprefix⟩
  rw [hreported]
  constructor
  · rintro ⟨-, hnone⟩
    rcases prefix_append_dot_iff.1 hprefix with rfl | h
    · exact ⟨hq, hnone⟩
    · exact absurd h (hnone q hq)
  · rintro ⟨-, hnone⟩
    refine ⟨?_, hnone⟩
    rintro rfl
    -- an allowed prefix is too long to begin a lone dot
    have hshort : q.toList.length ≤ 1 := hprefix.length_le
    have := hlong q hq
    omega

/-! ## The standard library of Kotlin

Every layer may import the names below `kotlin`, and the domain is reported for `import kotlin.*`. -/

namespace KotlinWildcard

/-- The tree of `import kotlin.*`. -/
def tree : Node :=
  .mk "import" true ByteArray.empty ⟨⟨2, 0⟩, ⟨2, 15⟩⟩ [
    .mk "import" false ByteArray.empty ⟨⟨2, 0⟩, ⟨2, 6⟩⟩ [],
    .mk "qualified_identifier" true "kotlin".toUTF8 ⟨⟨2, 7⟩, ⟨2, 13⟩⟩ [],
    .mk "." false ByteArray.empty ⟨⟨2, 13⟩, ⟨2, 14⟩⟩ [],
    .mk "*" false ByteArray.empty ⟨⟨2, 14⟩, ⟨2, 15⟩⟩ []]

/-- A source of the domain with that import. -/
def file : SourceFile :=
  ⟨"/repo/src/main/A.kt", Layer.defaultBase ++ ".domain", .parsed tree⟩

/-- The rule about imports as it is when the settings say nothing. -/
def rule : Rule :=
  ⟨.forbiddenImport, {}, Policy.standard Layer.defaultBase, defaultTestMarker⟩

theorem isWildcardImport : tree.IsWildcardImport "kotlin" :=
  ⟨by decide, [.mk "import" false ByteArray.empty ⟨⟨2, 0⟩, ⟨2, 6⟩⟩ []], _, _, _, [], rfl,
    by simp [Node.named], rfl, by decide, rfl, rfl, rfl, rfl, rfl⟩

theorem covers : rule.Covers file.path where
  active := rfl
  notTest := by decide
  notExcluded := by simp [rule]

theorem layer_eq : Layer.ofPackage Layer.defaultBase file.package = .domain := by decide

end KotlinWildcard

/-- The condition under which such an import is reported, for `import kotlin.*` in the domain. -/
theorem wildcard_import_of_kotlin :
    KotlinWildcard.rule.Covers KotlinWildcard.file.path ∧ KotlinWildcard.tree.IsWildcardImport "kotlin" ∧
    ∃ allowed e,
      (Policy.standard Layer.defaultBase).prefixesOf
        (Layer.ofPackage Layer.defaultBase KotlinWildcard.file.package) = some allowed ∧
      KotlinWildcard.tree.importEvent = .ok e ∧
      ((KotlinWildcard.rule.visit KotlinWildcard.file e).isSome = true ↔ Text.deleteBlanks "kotlin" ≠ "" ∧
        ∀ q ∈ allowed, ¬ q.toList <+: (Text.deleteBlanks "kotlin").toList) ∧
      ((∃ q ∈ allowed, q.toList <+: (Text.deleteBlanks "kotlin" ++ ".").toList) →
        ((KotlinWildcard.rule.visit KotlinWildcard.file e).isSome = true ↔
          Text.deleteBlanks "kotlin" ++ "." ∈ allowed ∧
            ∀ q ∈ allowed, ¬ q.toList <+: (Text.deleteBlanks "kotlin").toList)) :=
  ⟨KotlinWildcard.covers, KotlinWildcard.isWildcardImport,
    wildcard_import_reported_iff rfl rfl (Or.inl KotlinWildcard.layer_eq) KotlinWildcard.covers
      KotlinWildcard.isWildcardImport⟩

/-- That every name below a package may be imported does not mean that the import of all of them is not reported:
`import kotlin.*` is, although `kotlin.` is an allowed prefix. -/
theorem not_every_permitted_wildcard_passes :
    ¬ ∀ (base : String) (r : Rule) (file : SourceFile) (n : Node) (text : String) (allowed : List String)
        (e : Event),
      r.check = .forbiddenImport → r.policy = Policy.standard base →
      (Layer.ofPackage base file.package = .domain ∨ Layer.ofPackage base file.package = .application) →
      r.Covers file.path → n.IsWildcardImport text →
      (Policy.standard base).prefixesOf (Layer.ofPackage base file.package) = some allowed →
      (∃ q ∈ allowed, q.toList <+: (text ++ ".").toList) →
      n.importEvent = .ok e → r.visit file e = none := by
  intro h
  have hallowed : (Policy.standard Layer.defaultBase).prefixesOf
      (Layer.ofPackage Layer.defaultBase KotlinWildcard.file.package) =
        some (Policy.defaultCommon ++ [Layer.defaultBase ++ ".domain."]) := by
    rw [KotlinWildcard.layer_eq]
    rfl
  have hevent : KotlinWildcard.tree.importEvent =
      .ok (.imported (some "kotlin") KotlinWildcard.tree.location) :=
    KotlinWildcard.isWildcardImport.importEvent_eq
  have hpass := h Layer.defaultBase KotlinWildcard.rule KotlinWildcard.file KotlinWildcard.tree "kotlin" _ _ rfl rfl
    (Or.inl KotlinWildcard.layer_eq) KotlinWildcard.covers KotlinWildcard.isWildcardImport hallowed
    ⟨"kotlin.", by decide, by decide⟩ hevent
  have hreported : (KotlinWildcard.rule.visit KotlinWildcard.file
      (.imported (some "kotlin") KotlinWildcard.tree.location)).isSome = true :=
    (Rule.visit_imported_isSome_iff rfl (Rule.covers_iff.1 KotlinWildcard.covers).2 hallowed "kotlin" _).2
      (by decide)
  rw [hpass] at hreported
  cases hreported

end Strata
