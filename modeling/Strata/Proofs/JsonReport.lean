import Strata.Proofs.JsonGrammar
import Strata.Report

/-!
# Reports as JSON lose nothing

The printer writes every document whose numerals are numerals as a text of that document (`isTextOf_pretty`), over
several lines and in ASCII. So the report of a run, read by whatever follows the grammar of JSON, gives back the
findings and failures in their order and with all their parts, and the counts of the run.
-/

namespace Strata

namespace Json

/-! ## Strings as they are printed -/

theorem hexValue?_digitChar {n : Nat} (h : n < 16) : hexValue? n.digitChar = some n := by
  have hall : ∀ n < 16, hexValue? n.digitChar = some n := by decide
  exact hall n h

theorem isUnit_hexDigits {n : Nat} (h : n < 0x10000) : IsUnit n (Text.hexDigits 4 n) := by
  have hdigits : Text.hexDigits 4 n = [(n / 4096 % 16).digitChar, (n / 256 % 16).digitChar,
      (n / 16 % 16).digitChar, (n / 1 % 16).digitChar] := rfl
  have hunit := IsUnit.mk (hexValue?_digitChar (Nat.mod_lt (n / 4096) (by decide)))
    (hexValue?_digitChar (Nat.mod_lt (n / 256) (by decide))) (hexValue?_digitChar (Nat.mod_lt (n / 16) (by decide)))
    (hexValue?_digitChar (Nat.mod_lt (n / 1) (by decide)))
  have hvalue : ((n / 4096 % 16 * 16 + n / 256 % 16) * 16 + n / 16 % 16) * 16 + n / 1 % 16 = n := by omega
  rwa [hvalue, ← hdigits] at hunit

theorem char_eq_of_toNat {c d : Char} (h : c.toNat = d.toNat) : c = d := by
  rw [← Char.ofNat_toNat c, h, Char.ofNat_toNat]

theorem isPair_units {c : Char} (h : 0x10000 ≤ c.toNat) :
    IsPair c (0xD800 + (c.toNat - 0x10000) / 1024) (0xDC00 + (c.toNat - 0x10000) % 1024) := by
  have hscalar := toNat_lt_or c
  constructor <;> omega

theorem spells_escapeChar (c : Char) : Spells c (escapeChar c) := by
  unfold escapeChar
  split_ifs with hquote hslash hline hreturn htab hback hfeed hprint hplane
  · subst hquote
    exact .short (by decide)
  · subst hslash
    exact .short (by decide)
  · subst hline
    exact .short (by decide)
  · subst hreturn
    exact .short (by decide)
  · subst htab
    exact .short (by decide)
  · rw [char_eq_of_toNat (d := '\x08') hback]
    exact .short (by decide)
  · rw [char_eq_of_toNat (d := '\x0c') hfeed]
    exact .short (by decide)
  · exact .plain hprint.1 hquote hslash
  · exact .unit (isUnit_hexDigits hplane)
  · have hpair := isPair_units (Nat.le_of_not_lt hplane)
    have hhigh := hpair.high
    have hlow := hpair.low
    exact .pair hpair (isUnit_hexDigits (by omega)) (isUnit_hexDigits (by omega))

theorem isQuoted_quote (s : String) : IsQuoted s (quote s).toList := by
  have hall : ∀ cs : List Char, SpellsAll cs (cs.flatMap escapeChar) := by
    intro cs
    induction cs with
    | nil => exact .nil
    | cons c cs ih =>
      rw [List.flatMap_cons]
      exact .cons (spells_escapeChar c) ih
  rw [quote, String.toList_ofList]
  exact .mk (hall s.toList)

/-! ## Documents as they are printed -/

mutual

/-- The numbers in the document that are no integers are numerals of JSON. -/
def Proper : Json → Prop
  | .real numeral => IsReal numeral.toList
  | .array items => ItemsProper items
  | .object fields => FieldsProper fields
  | .null | .bool _ | .int _ | .string _ => True

/-- The items are proper. -/
def ItemsProper : List Json → Prop
  | [] => True
  | v :: rest => v.Proper ∧ ItemsProper rest

/-- The documents of the fields are proper. -/
def FieldsProper : List (String × Json) → Prop
  | [] => True
  | (_, v) :: rest => v.Proper ∧ FieldsProper rest

end

theorem isSpace_newline (depth : Nat) : IsSpace (newline depth).toList := by
  rw [newline, String.toList_ofList]
  intro c hc
  rcases List.mem_cons.mp hc with rfl | hc
  · exact Or.inr (Or.inl rfl)
  · exact Or.inl (List.eq_of_mem_replicate hc)

theorem isSpace_nil : IsSpace [] := by
  intro c hc
  cases hc

theorem isSpace_blank : IsSpace [' '] := by
  intro c hc
  exact Or.inl (List.mem_singleton.mp hc)

mutual

theorem writes_pretty : ∀ (v : Json) (depth : Nat), v.Proper → Writes v (pretty depth v).toList
  | .null, _, _ => by
    rw [pretty]
    exact .null
  | .bool true, _, _ => by
    rw [pretty]
    exact .true
  | .bool false, _, _ => by
    rw [pretty]
    exact .false
  | .int n, _, _ => by
    rw [pretty]
    exact .int (isInteger_toString n)
  | .real numeral, _, h => by
    rw [pretty]
    exact .real h
  | .string s, _, _ => by
    rw [pretty]
    exact .string (isQuoted_quote s)
  | .array [], _, _ => by
    rw [pretty]
    exact .emptyArray isSpace_nil
  | .array (v :: rest), depth, h => by
    have hitems := writesItems_pretty (v :: rest) (by simp) (depth + 1) (isSpace_newline depth) h
    rw [pretty]
    simpa [String.toList_append] using Writes.array hitems
  | .object [], _, _ => by
    rw [pretty]
    exact .emptyObject isSpace_nil
  | .object (f :: rest), depth, h => by
    have hfields := writesFields_pretty (f :: rest) (by simp) (depth + 1) (isSpace_newline depth) h
    rw [pretty]
    simpa [String.toList_append] using Writes.object hfields

theorem writesItems_pretty : ∀ (items : List Json), items ≠ [] → ∀ (depth : Nat) {after : List Char}, IsSpace after →
    ItemsProper items → WritesItems items ((prettyItems depth items).toList ++ after)
  | [], hne, _, _, _, _ => absurd rfl hne
  | [v], _, depth, after, hafter, h => by
    have hv := writes_pretty v depth h.1
    rw [prettyItems, String.toList_append, List.append_assoc]
    exact .last (isSpace_newline depth) hv hafter
  | v :: w :: rest, _, depth, after, hafter, h => by
    have hv := writes_pretty v depth h.1
    have hrest := writesItems_pretty (w :: rest) (by simp) depth hafter h.2
    rw [prettyItems]
    simpa [String.toList_append] using WritesItems.more (isSpace_newline depth) hv isSpace_nil hrest

theorem writesFields_pretty : ∀ (fields : List (String × Json)), fields ≠ [] → ∀ (depth : Nat) {after : List Char},
    IsSpace after → FieldsProper fields → WritesFields fields ((prettyFields depth fields).toList ++ after)
  | [], hne, _, _, _, _ => absurd rfl hne
  | [(name, v)], _, depth, after, hafter, h => by
    have hv := writes_pretty v depth h.1
    rw [prettyFields]
    simpa [String.toList_append] using WritesFields.last (isSpace_newline depth) (isQuoted_quote name) isSpace_nil
      isSpace_blank hv hafter
  | (name, v) :: f :: rest, _, depth, after, hafter, h => by
    have hv := writes_pretty v depth h.1
    have hrest := writesFields_pretty (f :: rest) (by simp) depth hafter h.2
    rw [prettyFields]
    simpa [String.toList_append] using WritesFields.more (isSpace_newline depth) (isQuoted_quote name) isSpace_nil
      isSpace_blank hv isSpace_nil hrest

end

/-- What is printed is a text of the document. -/
theorem isTextOf_pretty {v : Json} (h : v.Proper) (depth : Nat) : IsTextOf v (pretty depth v).toList := by
  have htext := IsTextOf.mk isSpace_nil (writes_pretty v depth h) isSpace_nil
  rwa [List.nil_append, List.append_nil] at htext

theorem pretty_eq_iff {v w : Json} (hv : v.Proper) (hw : w.Proper) (depth : Nat) :
    pretty depth v = pretty depth w ↔ v = w := by
  constructor
  · intro h
    have htext := isTextOf_pretty hv depth
    rw [h] at htext
    exact htext.unique (isTextOf_pretty hw depth)
  · intro h
    rw [h]

theorem itemsProper_map {α : Type} {f : α → Json} (h : ∀ a, (f a).Proper) (xs : List α) :
    ItemsProper (xs.map f) := by
  induction xs with
  | nil => trivial
  | cons x xs ih => exact ⟨h x, ih⟩

/-! ## What a reader looks up -/

/-- A number that may be missing. -/
def optionalInt? : Json → Option (Option Int)
  | .null => some none
  | .int n => some (some n)
  | _ => none

@[simp] theorem optionalInt?_ofInt? (n : Option Int) : optionalInt? (ofInt? n) = some n := by
  cases n <;> rfl

/-- The items of the array under that name, each read. -/
def list? {α : Type} (name : String) (read : Json → Option α) (v : Json) : Option (List α) := do
  let items ← (← v.field? name).array?
  items.mapM read

theorem mapM_map_eq_some {α : Type} {f : α → Json} {read : Json → Option α} (h : ∀ a, read (f a) = some a)
    (xs : List α) : (xs.map f).mapM read = some xs := by
  induction xs with
  | nil => rfl
  | cons x xs ih => simp [h x, ih]

end Json

/-- The finding that a document describes, looked up by the names of its eight parts. -/
def Finding.ofJson? (v : Json) : Option Finding := do
  let rule ← (← v.field? "rule_name").string?
  let severity ← Severity.ofName? (← (← v.field? "severity").string?)
  let path ← (← v.field? "file_path").string?
  let line ← (← v.field? "line").int?
  let column ← (← v.field? "column").int?
  let endLine ← (← v.field? "end_line").optionalInt?
  let endColumn ← (← v.field? "end_column").optionalInt?
  let message ← (← v.field? "message").string?
  return ⟨rule, path, ⟨line, column, endLine, endColumn⟩, message, severity⟩

/-- The failure that a document describes. -/
def Failure.ofJson? (v : Json) : Option Failure := do
  let path ← (← v.field? "file_path").string?
  let message ← (← v.field? "message").string?
  return ⟨path, message⟩

@[simp] theorem Severity.ofName?_name (s : Severity) : Severity.ofName? s.name = some s := by
  cases s <;> rfl

theorem Finding.ofJson?_toJson (f : Finding) : Finding.ofJson? f.toJson = some f := by
  simp [ofJson?, toJson, Json.field?, Json.string?, Json.int?]

theorem Failure.ofJson?_toJson (f : Failure) : Failure.ofJson? f.toJson = some f := by
  simp [ofJson?, toJson, Json.field?, Json.string?]

theorem Json.proper_ofInt? (n : Option Int) : (Json.ofInt? n).Proper := by
  cases n <;> trivial

theorem Finding.proper_toJson (f : Finding) : f.toJson.Proper := by
  have hline := Json.proper_ofInt? f.location.endLine
  have hcolumn := Json.proper_ofInt? f.location.endColumn
  exact ⟨trivial, trivial, trivial, trivial, trivial, hline, hcolumn, trivial, trivial⟩

theorem Failure.proper_toJson (f : Failure) : f.toJson.Proper :=
  ⟨trivial, trivial, trivial⟩

theorem Elapsed.proper_toJson (t : Elapsed) : t.toJson.Proper := by
  cases t with
  | whole n => trivial
  | measured x => exact Decimal.isReal_render x

namespace Report

/-- What a reader learns from a report. The time is kept as it is written. -/
structure Reading where
  findings : List Finding
  failures : List Failure
  rulesEvaluated : Int
  findingsCount : Int
  failuresCount : Int
  filesScanned : Int
  elapsed : Json

/-- What the document says, looked up by the names of its parts. -/
def Reading.ofJson? (v : Json) : Option Reading := do
  let findings ← v.list? "findings" Finding.ofJson?
  let failures ← v.list? "failures" Failure.ofJson?
  let summary ← v.field? "summary"
  let rulesEvaluated ← (← summary.field? "rules_evaluated").int?
  let findingsCount ← (← summary.field? "findings_count").int?
  let failuresCount ← (← summary.field? "failures_count").int?
  let filesScanned ← (← summary.field? "files_scanned").int?
  let elapsed ← summary.field? "elapsed_ms"
  return ⟨findings, failures, rulesEvaluated, findingsCount, failuresCount, filesScanned, elapsed⟩

/-- What there is to learn from the report of a run. -/
def Reading.ofResult (r : RunResult) : Reading where
  findings := r.findings
  failures := r.failures
  rulesEvaluated := r.rulesEvaluated
  findingsCount := r.findings.length
  failuresCount := r.failures.length
  filesScanned := r.filesScanned
  elapsed := r.elapsed.toJson

theorem ofJson?_document (r : RunResult) : Reading.ofJson? (document r) = some (Reading.ofResult r) := by
  have hfindings : (document r).list? "findings" Finding.ofJson? = some r.findings :=
    Json.mapM_map_eq_some Finding.ofJson?_toJson r.findings
  have hfailures : (document r).list? "failures" Failure.ofJson? = some r.failures :=
    Json.mapM_map_eq_some Failure.ofJson?_toJson r.failures
  rw [Reading.ofJson?, hfindings, hfailures]
  rfl

theorem proper_document (r : RunResult) : (document r).Proper := by
  have hfindings := Json.itemsProper_map Finding.proper_toJson r.findings
  have hfailures := Json.itemsProper_map Failure.proper_toJson r.failures
  have helapsed := r.elapsed.proper_toJson
  exact ⟨hfindings, hfailures, ⟨trivial, trivial, trivial, trivial, helapsed, trivial⟩, trivial⟩

theorem document_eq_iff (r r' : RunResult) :
    document r = document r' ↔ Reading.ofResult r = Reading.ofResult r' := by
  constructor
  · intro h
    have hread := ofJson?_document r
    rw [h, ofJson?_document r'] at hread
    exact (Option.some.inj hread).symm
  · intro h
    simp only [Reading.ofResult, Reading.mk.injEq] at h
    obtain ⟨hfindings, hfailures, hrules, -, -, hfiles, helapsed⟩ := h
    rw [document, document, hfindings, hfailures, hrules, hfiles, helapsed]

/-- The report is a text of one document and of no other, and whoever reads it learns the findings and failures of
the run in their order with all their parts, how many there are, and the counts. Two runs have the same report just
when they agree on all this and their times are printed alike. -/
theorem json_loses_nothing (r : RunResult) :
    (∀ v, Json.IsTextOf v (json r).toList ↔ v = document r) ∧ Json.parse? (json r) = some (document r) ∧
      Reading.ofJson? (document r) = some ⟨r.findings, r.failures, r.rulesEvaluated, r.findings.length,
        r.failures.length, r.filesScanned, r.elapsed.toJson⟩ ∧
      ∀ r' : RunResult, json r = json r' ↔
        r.findings = r'.findings ∧ r.failures = r'.failures ∧ r.rulesEvaluated = r'.rulesEvaluated ∧
          r.filesScanned = r'.filesScanned ∧ r.elapsed.toJson.pretty 0 = r'.elapsed.toJson.pretty 0 := by
  have htext : Json.IsTextOf (document r) (json r).toList := Json.isTextOf_pretty (proper_document r) 0
  refine ⟨?_, ?_, ofJson?_document r, ?_⟩
  · intro v
    constructor
    · intro hv
      exact hv.unique htext
    · rintro rfl
      exact htext
  · have hparse := Json.parse?_of_isTextOf htext
    rwa [String.ofList_toList] at hparse
  · intro r'
    rw [json, json, Json.pretty_eq_iff (proper_document r) (proper_document r'), document_eq_iff,
      Json.pretty_eq_iff r.elapsed.proper_toJson r'.elapsed.proper_toJson, Reading.ofResult, Reading.ofResult,
      Reading.mk.injEq]
    constructor
    · rintro ⟨hfindings, hfailures, hrules, -, -, hfiles, helapsed⟩
      exact ⟨hfindings, hfailures, hrules, hfiles, helapsed⟩
    · rintro ⟨hfindings, hfailures, hrules, hfiles, helapsed⟩
      rw [hfindings, hfailures]
      exact ⟨rfl, rfl, hrules, rfl, rfl, hfiles, helapsed⟩

end Report

end Strata
