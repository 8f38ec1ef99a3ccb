import Strata.Proofs.Segments

/-!
# Allowed packages

An import is allowed if some text of the policy begins its path. The texts of the standard policy end in a dot, and so
they stand for packages: a path begins with a package and a dot iff it is below the package, segment by segment
(`Package.prefix_dot_iff`). A name that goes on behind an allowed one with further letters is the name of another
package, which has to be allowed itself.
-/

namespace Strata

namespace Package

/-- The path is below the package: its segments begin with those of the package and go on. -/
def IsAbove (package path : String) : Prop :=
  Text.split '.' package <+: Text.split '.' path ∧ Text.split '.' package ≠ Text.split '.' path

instance (package path : String) : Decidable (IsAbove package path) :=
  inferInstanceAs (Decidable (_ ∧ _))

variable {package path : String}

theorem isAbove_iff_append :
    IsAbove package path ↔ ∃ more, more ≠ [] ∧ Text.split '.' path = Text.split '.' package ++ more := by
  constructor
  · rintro ⟨⟨more, hmore⟩, hne⟩
    refine ⟨more, ?_, hmore.symm⟩
    rintro rfl
    rw [List.append_nil] at hmore
    exact hne hmore
  · rintro ⟨more, hmore, hpath⟩
    unfold IsAbove
    rw [hpath]
    refine ⟨List.prefix_append _ _, ?_⟩
    intro heq
    exact hmore (List.self_eq_append_right.mp heq)

/-- Beginning with a package and a dot is being below the package. -/
theorem prefix_dot_iff : (package ++ ".").toList <+: path.toList ↔ IsAbove package path := by
  have hdot : (package ++ ".").toList = package.toList ++ ['.'] := String.toList_append
  rw [isAbove_iff_append, hdot]
  constructor
  · rintro ⟨rest, hrest⟩
    have hpath : path.toList = package.toList ++ '.' :: rest := by
      rw [← hrest, List.append_assoc, List.singleton_append]
    obtain ⟨hsplit, hne⟩ := Text.splitAt_eq_append_iff.mpr ⟨rest, hpath, rfl⟩
    refine ⟨(Text.splitAt '.' rest).map String.ofList, ?_, ?_⟩
    · simpa using hne
    · show (Text.splitAt '.' path.toList).map String.ofList = _
      rw [hsplit, List.map_append]
      rfl
  · rintro ⟨more, hmore, hsplit⟩
    have hruns : Text.splitAt '.' path.toList = Text.splitAt '.' package.toList ++ more.map String.toList := by
      rw [← Text.map_toList_split, ← Text.map_toList_split, hsplit, List.map_append]
    have hne : more.map String.toList ≠ [] := by simpa using hmore
    obtain ⟨rest, hpath, -⟩ := Text.splitAt_eq_append_iff.mp ⟨hruns, hne⟩
    refine ⟨rest, ?_⟩
    rw [hpath, List.append_assoc, List.singleton_append]

theorem IsAbove.append (h : IsAbove package path) (more : String) : IsAbove package (path ++ "." ++ more) := by
  rw [← prefix_dot_iff] at h ⊢
  refine h.trans ?_
  rw [String.append_assoc, String.toList_append]
  exact List.prefix_append _ _

/-- A name that goes on behind a package with anything but a dot is not below the package. -/
theorem not_isAbove_of_letters {rest : String} (h : rest.toList.head? ≠ some '.') :
    ¬ IsAbove package (package ++ rest) := by
  rw [← prefix_dot_iff, String.toList_append, String.toList_append, List.prefix_append_right_inj]
  rintro ⟨more, hmore⟩
  apply h
  rw [← hmore]
  rfl

/-- A package that is above what is inside another one is above that one or the same, or has the next segment. -/
theorem IsAbove.cases {base : String} {segment : String} {more : List String}
    (hpath : Text.split '.' path = Text.split '.' base ++ segment :: more) (h : IsAbove package path) :
    Text.split '.' package <+: Text.split '.' base ∨ segment ∈ Text.split '.' package := by
  obtain ⟨tail, -, htail⟩ := isAbove_iff_append.mp h
  rw [hpath] at htail
  rcases List.append_eq_append_iff.mp htail with ⟨between, hpackage, hrest⟩ | ⟨between, hbase, -⟩
  · cases between with
    | nil =>
      left
      rw [hpackage, List.append_nil]
    | cons s between =>
      right
      obtain ⟨rfl, -⟩ := List.cons.inj hrest
      rw [hpackage]
      simp
  · left
    rw [hbase]
    exact List.prefix_append _ _

end Package

namespace Policy

open Package (IsAbove)

/-! ## The packages of the standard policy -/

/-- The packages below which every governed layer may import. -/
def commonPackages : List String :=
  ["kotlin", "java", "arrow.core", "arrow.fx.coroutines", "kotlinx.coroutines", "org.slf4j"]

/-- The packages below which an inner layer may import. -/
def openPackages (base : String) (layer : Layer) : List String :=
  commonPackages ++ (importable layer).map fun l => base ++ "." ++ l.name

variable {base : String} {layer : Layer} {entry : LayerPolicy} {own : List String}

/-- Only the domain and the application have an import constraint. -/
theorem inner_of_constrained (hentry : (standard base).lookup layer = some entry)
    (hown : entry.prefixes = some own) : layer = .domain ∨ layer = .application := by
  cases layer with
  | domain => exact Or.inl rfl
  | application => exact Or.inr rfl
  | infrastructure =>
    cases hentry
    cases hown
  | presentation =>
    cases hentry
    cases hown
  | framework => cases hentry
  | unclassified => cases hentry

/-- The texts of a layer are those of the packages of some layers, with a dot behind them. -/
theorem own_eq (hentry : (standard base).lookup layer = some entry) (hown : entry.prefixes = some own) :
    own = ((importable layer).map fun l => base ++ "." ++ l.name).map fun q => q ++ "." := by
  have hassoc : ∀ l : Layer, base ++ "." ++ l.name ++ "." = base ++ ("." ++ l.name ++ ".") := by
    intro l
    rw [String.append_assoc, String.append_assoc, String.append_assoc]
  simp only [List.map_map, Function.comp_def, hassoc]
  rcases inner_of_constrained hentry hown with rfl | rfl
  · cases hentry
    cases hown
    rfl
  · cases hentry
    cases hown
    rfl

theorem mem_map_dot_iff {q : String} {packages : List String} :
    q ++ "." ∈ packages.map (fun q => q ++ ".") ↔ q ∈ packages := by
  rw [List.mem_map]
  constructor
  · rintro ⟨q', hq', heq⟩
    have hsame : q' = q := by simpa using heq
    exact hsame ▸ hq'
  · intro hq
    exact ⟨q, hq, rfl⟩

theorem mem_prefixes_iff (hentry : (standard base).lookup layer = some entry) (hown : entry.prefixes = some own)
    {q : String} : q ++ "." ∈ (standard base).common ++ own ↔ q ∈ openPackages base layer := by
  have hcommon : (standard base).common = commonPackages.map fun q => q ++ "." := rfl
  rw [hcommon, own_eq hentry hown, ← List.map_append, mem_map_dot_iff]
  rfl

/-- An inner layer may import exactly what is below one of its packages. -/
theorem allowsImport_iff_isAbove (hentry : (standard base).lookup layer = some entry)
    (hown : entry.prefixes = some own) (path : String) :
    (standard base).allowsImport entry path = true ↔ ∃ q ∈ openPackages base layer, IsAbove q path := by
  have hcommon : (standard base).common = commonPackages.map fun q => q ++ "." := rfl
  rw [allowsImport_iff (standard base) hown, hcommon, own_eq hentry hown, ← List.map_append]
  simp only [List.mem_map, exists_exists_and_eq_and, Package.prefix_dot_iff]
  rfl

/-! ## Names that begin with an allowed one -/

theorem importable_subset {inner : Layer} (h : inner ∈ importable layer) :
    inner ∈ [Layer.domain, Layer.application] := by
  cases layer <;> simp_all [importable]

theorem dot_notMem_name (layer : Layer) : '.' ∉ layer.name.toList := by
  cases layer <;> decide

/-- A package whose name goes on behind that of a layer's own package is not open, and neither is anything below it,
unless all that is below the base package is. -/
theorem not_isAbove_of_longer_name {inner : Layer} (hinner : inner ∈ importable layer) {letters : String}
    (hletters : letters ≠ "") (hdot : '.' ∉ letters.toList)
    (hbase : ∀ q ∈ commonPackages, ¬ Text.split '.' q <+: Text.split '.' base) (more : String) {q : String}
    (hq : q ∈ openPackages base layer) :
    ¬ IsAbove q (base ++ "." ++ (inner.name ++ letters) ++ "." ++ more) := by
  have hsplit : Text.split '.' (base ++ "." ++ (inner.name ++ letters) ++ "." ++ more) =
      Text.split '.' base ++ (inner.name ++ letters) :: Text.split '.' more := by
    have hword : '.' ∉ (inner.name ++ letters).toList := by
      rw [String.toList_append, List.mem_append]
      rintro (h | h)
      · exact dot_notMem_name inner h
      · exact hdot h
    rw [Text.split_append_dot, Text.split_append_dot, Text.split_of_notMem hword, List.append_assoc,
      List.singleton_append]
  have hname : inner.name.toList <+: (inner.name ++ letters).toList := by
    rw [String.toList_append]
    exact List.prefix_append _ _
  intro habove
  rcases List.mem_append.mp hq with hcommon | hown
  · rcases habove.cases hsplit with hprefix | hsegment
    · exact hbase q hcommon hprefix
    · have hall : ∀ l ∈ [Layer.domain, Layer.application], ∀ q ∈ commonPackages, ∀ s ∈ Text.split '.' q,
          ¬ l.name.toList <+: s.toList := by decide
      exact hall inner (importable_subset hinner) q hcommon _ hsegment hname
  · obtain ⟨other, hother, rfl⟩ := List.mem_map.mp hown
    have hsegments := habove.1
    rw [hsplit, Text.split_append_dot, Text.split_of_notMem (dot_notMem_name other), List.prefix_append_right_inj,
      List.cons_prefix_cons] at hsegments
    have heq : other.name = inner.name ++ letters := hsegments.1
    have hall : ∀ l ∈ [Layer.domain, Layer.application], ∀ m ∈ [Layer.domain, Layer.application],
        l.name.toList <+: m.name.toList → l = m := by decide
    obtain rfl := hall inner (importable_subset hinner) other (importable_subset hother) (heq ▸ hname)
    have hnil : letters.toList = [] := by
      have hlist := congrArg String.toList heq
      rw [String.toList_append] at hlist
      exact List.self_eq_append_right.mp hlist
    exact hletters (by simpa using hnil)

/-- Of the names in a package without a dot, those of `kotlin` and `java` are open and no others, whatever the base
package is. -/
theorem exists_isAbove_two_iff {first name : String} (hfirst : '.' ∉ first.toList) (hname : '.' ∉ name.toList) :
    (∃ q ∈ openPackages base layer, IsAbove q (first ++ "." ++ name)) ↔ first = "kotlin" ∨ first = "java" := by
  have hsplit : Text.split '.' (first ++ "." ++ name) = [first, name] := by
    rw [Text.split_append_dot, Text.split_of_notMem hfirst, Text.split_of_notMem hname, List.singleton_append]
  constructor
  · rintro ⟨q, hq, habove⟩
    obtain ⟨more, hmore, happend⟩ := Package.isAbove_iff_append.mp habove
    rw [hsplit] at happend
    have hlength := congrArg List.length happend
    have hpositive := List.length_pos_iff.mpr hmore
    rw [List.length_append, List.length_cons, List.length_singleton] at hlength
    rcases List.mem_append.mp hq with hcommon | hown
    · have hall : ∀ q ∈ commonPackages, (Text.split '.' q).length = 1 →
          Text.split '.' q = ["kotlin"] ∨ Text.split '.' q = ["java"] := by decide
      have hle : (Text.split '.' q).length ≤ 1 := by omega
      have hsome : (Text.split '.' q).length ≠ 0 := by
        obtain ⟨runs, hruns⟩ := Text.splitAt_eq_cons '.' q.toList
        simp [Text.split, hruns]
      rcases hall q hcommon (by omega) with h | h
      · left
        rw [h] at happend
        exact (List.cons.inj happend).1
      · right
        rw [h] at happend
        exact (List.cons.inj happend).1
    · -- the package of a layer has a segment at least for the base package and one for the layer
      obtain ⟨other, -, rfl⟩ := List.mem_map.mp hown
      obtain ⟨runs, hruns⟩ := Text.splitAt_eq_cons '.' base.toList
      rw [Text.split_append_dot, Text.split_of_notMem (dot_notMem_name other), Text.split, hruns] at hlength
      simp only [List.map_cons, List.length_append, List.length_cons, List.length_nil] at hlength
      omega
  · have hbelow : ∀ q ∈ commonPackages, Text.split '.' q = [first] →
        ∃ q ∈ openPackages base layer, IsAbove q (first ++ "." ++ name) := by
      intro q hq hsegments
      refine ⟨q, List.mem_append_left _ hq, ?_⟩
      rw [IsAbove, hsplit, hsegments]
      simp
    rintro (rfl | rfl)
    · exact hbelow "kotlin" (by decide) (by decide)
    · exact hbelow "java" (by decide) (by decide)

/-- The standard policy allows whole segments. Its domain and its application have an import constraint, and such a
layer may import a path iff the path is below a package that with a dot behind it is one of the texts of the layer or of
all layers. So a name that merely begins with that of an allowed package is refused unless another allowed package is
above it: of the names in packages without a dot only those of `kotlin` and `java` pass, and below a package whose name
goes on behind that of a layer nothing does, unless a common package is above or at the base package. What is below an
allowed path is allowed. -/
theorem standard_allows_whole_segments (base : String) :
    (∀ layer, (∃ entry own, (standard base).lookup layer = some entry ∧ entry.prefixes = some own) ↔
      layer = .domain ∨ layer = .application) ∧
    ∀ (layer : Layer) (entry : LayerPolicy) (own : List String),
      (standard base).lookup layer = some entry → entry.prefixes = some own →
      (∀ path, (standard base).allowsImport entry path = true ↔
        ∃ q, q ++ "." ∈ (standard base).common ++ own ∧ IsAbove q path) ∧
      (∀ q rest : String, q ++ "." ∈ (standard base).common ++ own → rest.toList.head? ≠ some '.' →
        (∀ other, other ++ "." ∈ (standard base).common ++ own → other ≠ q → ¬ IsAbove other (q ++ rest)) →
        (standard base).allowsImport entry (q ++ rest) = false) ∧
      (∀ first name : String, '.' ∉ first.toList → '.' ∉ name.toList →
        ((standard base).allowsImport entry (first ++ "." ++ name) = true ↔ first = "kotlin" ∨ first = "java")) ∧
      (∀ q letters more : String, q ++ "." ∈ own → letters ≠ "" → '.' ∉ letters.toList →
        (∀ common, common ++ "." ∈ (standard base).common → ¬ Text.split '.' common <+: Text.split '.' base) →
        (standard base).allowsImport entry (q ++ letters ++ "." ++ more) = false) ∧
      ∀ path more : String, (standard base).allowsImport entry path = true →
        (standard base).allowsImport entry (path ++ "." ++ more) = true := by
  refine ⟨?_, ?_⟩
  · intro layer
    constructor
    · rintro ⟨entry, own, hentry, hown⟩
      exact inner_of_constrained hentry hown
    · rintro (rfl | rfl)
      · exact ⟨_, _, rfl, rfl⟩
      · exact ⟨_, _, rfl, rfl⟩
  · intro layer entry own hentry hown
    have hallows := allowsImport_iff_isAbove hentry hown
    have hmem : ∀ q, q ++ "." ∈ (standard base).common ++ own ↔ q ∈ openPackages base layer :=
      fun q => mem_prefixes_iff hentry hown
    simp only [hmem]
    refine ⟨hallows, ?_, ?_, ?_, ?_⟩
    · intro q rest _ hrest hothers
      rw [← Bool.not_eq_true, hallows]
      rintro ⟨other, hother, habove⟩
      by_cases heq : other = q
      · subst heq
        exact Package.not_isAbove_of_letters hrest habove
      · exact hothers other hother heq habove
    · intro first name hfirst hname
      rw [hallows]
      exact exists_isAbove_two_iff hfirst hname
    · intro q letters more hq hletters hdot hbase
      rw [own_eq hentry hown, mem_map_dot_iff] at hq
      obtain ⟨inner, hinner, rfl⟩ := List.mem_map.mp hq
      have hclear : ∀ q ∈ commonPackages, ¬ Text.split '.' q <+: Text.split '.' base :=
        fun q hq => hbase q (mem_map_dot_iff.mpr hq)
      have hassoc : base ++ "." ++ inner.name ++ letters = base ++ "." ++ (inner.name ++ letters) :=
        String.append_assoc
      rw [← Bool.not_eq_true, hallows, hassoc]
      rintro ⟨other, hother, habove⟩
      exact not_isAbove_of_longer_name hinner hletters hdot hclear more hother habove
    · intro path more hpath
      rw [hallows] at hpath ⊢
      obtain ⟨q, hq, habove⟩ := hpath
      exact ⟨q, hq, habove.append more⟩

/-- In the domain of `com.app` an import of `kotlin` passes, and with it all that is below its path, while the packages
`kotlinx` and `com.app.domainx` are refused although their names begin with `kotlin` and `com.app.domain`. -/
theorem segments_of_longer_names :
    let p := standard "com.app"
    let entry : LayerPolicy := ⟨some ["com.app" ++ ".domain."], false⟩
    p.lookup .domain = some entry ∧ "com.app.domain" ++ "." ∈ ["com.app" ++ ".domain."] ∧
      p.allowsImport entry "kotlin.io.println" = true ∧
      p.allowsImport entry ("kotlin.io.println" ++ "." ++ "x") = true ∧
      p.allowsImport entry ("kotlin" ++ "x.html.div") = false ∧
      p.allowsImport entry ("kotlinx" ++ "." ++ "Html") = false ∧
      p.allowsImport entry ("com.app.domain" ++ "x" ++ "." ++ "model.User") = false := by
  intro p entry
  obtain ⟨hiff, hmerely, htwo, hlonger, hbelow⟩ :=
    (standard_allows_whole_segments "com.app").2 .domain entry ["com.app" ++ ".domain."] rfl rfl
  have hown : "com.app.domain" ++ "." ∈ ["com.app" ++ ".domain."] := by decide
  have hkotlin : p.allowsImport entry "kotlin.io.println" = true := (hiff _).mpr ⟨"kotlin", by decide, by decide⟩
  refine ⟨rfl, hown, hkotlin, hbelow _ _ hkotlin, ?_, ?_, ?_⟩
  · have hothers : ∀ other ∈ openPackages "com.app" .domain, other ≠ "kotlin" →
        ¬ IsAbove other ("kotlin" ++ "x.html.div") := by decide
    refine hmerely "kotlin" "x.html.div" (by decide) (by decide) ?_
    intro other hother
    exact hothers other ((mem_prefixes_iff rfl rfl).mp hother)
  · rw [← Bool.not_eq_true, htwo "kotlinx" "Html" (by decide) (by decide)]
    decide
  · have hclear : ∀ q ∈ commonPackages, ¬ Text.split '.' q <+: Text.split '.' "com.app" := by decide
    refine hlonger _ _ _ hown (by decide) (by decide) ?_
    intro common hcommon
    exact hclear common (mem_map_dot_iff.mp hcommon)

end Policy

end Strata
