import Strata.Proofs.CommandLine

/-!
# Faults of settings documents

A document that is not of the schema should be reported as an invalid configuration. Every stage of the schema keeps
to that (`Reported`), but for the first: the version is compared before it is known to be a number, and the
comparison itself fails for a list or a mapping. So a fault is reported iff the version can be compared, and
otherwise it ends the program.
-/

namespace Strata

namespace Settings

/-! ## Stages whose faults are reported -/

/-- Whatever goes wrong, the user is told about it. -/
def Reported {α : Type} (x : Except SettingsError α) : Prop :=
  ∀ e, x = .error e → (SettingsFileError.schema e).isReported = true

section

variable {α β : Type}

theorem reported_ok (a : α) : Reported (.ok a) := by
  intro e h
  cases h

theorem reported_error {e : SettingsError} (he : (SettingsFileError.schema e).isReported = true) :
    Reported (.error e : Except SettingsError α) := by
  intro e' h
  cases h
  exact he

theorem Reported.bind {x : Except SettingsError α} {f : α → Except SettingsError β} (hx : Reported x)
    (hf : ∀ a, Reported (f a)) : Reported (x >>= f) := by
  cases x with
  | error e => exact reported_error (hx e rfl)
  | ok a => exact hf a

end

theorem globs_reported (rule : Option String) (v : Option Value) : Reported (globs rule v) := by
  unfold globs
  split
  · exact reported_ok _
  · exact reported_ok _
  · exact reported_ok _
  · exact reported_ok _
  · exact reported_error rfl

theorem activeOf_reported (name : String) (v : Option Value) : Reported (activeOf name v) := by
  unfold activeOf
  split
  · exact reported_ok _
  · exact reported_ok _
  · exact reported_error rfl

theorem severityOf_reported (name : String) (v : Option Value) : Reported (severityOf name v) := by
  unfold severityOf
  split
  · exact reported_ok _
  · split
    · exact reported_ok _
    · exact reported_error rfl

theorem ruleOfValue_reported (name : String) (v : Value) : Reported (ruleOfValue name v) := by
  unfold ruleOfValue
  split
  · exact reported_ok _
  · refine (activeOf_reported name _).bind fun active => ?_
    refine (severityOf_reported name _).bind fun severity => ?_
    exact (globs_reported (some name) _).bind fun excludes => reported_ok _
  · exact reported_error rfl

theorem projectBaseOf_reported (v : Option Value) : Reported (projectBaseOf v) := by
  unfold projectBaseOf
  split
  · exact reported_ok _
  · split
    · exact reported_error rfl
    · exact reported_ok _
  · exact reported_error rfl

theorem testMarkerOf_reported (v : Option Value) : Reported (testMarkerOf v) := by
  unfold testMarkerOf
  split
  · exact reported_ok _
  · split
    · exact reported_error rfl
    · exact reported_ok _
  · exact reported_error rfl

theorem ruleBlocks_reported (v : Option Value) : Reported (ruleBlocks v) := by
  unfold ruleBlocks
  split
  · exact reported_ok _
  · exact reported_ok _
  · exact reported_ok _
  · exact reported_error rfl

theorem rulesOfBlocks_reported (known : Option (List String)) (table : List (String × RuleSettings))
    (blocks : List (Value × Value)) : Reported (rulesOfBlocks known table blocks) := by
  induction blocks generalizing table with
  | nil => exact reported_ok table
  | cons block rest ih =>
    have hrest : Reported (do
        let settings ← ruleOfValue block.1.display block.2
        rulesOfBlocks known (Association.set (fun a b => a == b) block.1.display settings table) rest) :=
      (ruleOfValue_reported block.1.display block.2).bind fun settings => ih _
    cases known with
    | none => exact hrest
    | some names =>
      rw [rulesOfBlocks]
      split
      · exact hrest
      · exact reported_error rfl

theorem ofEntries_reported (known : Option (List String)) (entries : List (Value × Value)) :
    Reported (ofEntries known entries) := by
  refine (projectBaseOf_reported _).bind fun projectBase => ?_
  refine (testMarkerOf_reported _).bind fun testMarker => ?_
  refine (globs_reported none _).bind fun excludes => ?_
  refine (ruleBlocks_reported _).bind fun blocks => ?_
  exact (rulesOfBlocks_reported known [] blocks).bind fun rules => reported_ok _

/-! ## The version -/

/-- The document has a version that cannot be compared with the supported one, because it is a list or a mapping, or
a pair that holds a collection. A set can be compared. -/
def IncomparableVersion (v : Value) (kind : Value.Collection) : Prop :=
  ∃ entries version, v = .map entries ∧ Value.get? "version" entries = some version ∧
    (∀ items, version ≠ .set items) ∧ version.keyObstacle? = some kind

/-- A version that cannot be compared is the fault of its document, whatever else is wrong. -/
theorem ofValue_of_incomparable {v : Value} {kind : Value.Collection} (h : IncomparableVersion v kind)
    (known : Option (List String)) : ofValue known v = .error (.incomparableVersion kind) := by
  obtain ⟨entries, version, rfl, hversion, hset, hkind⟩ := h
  have hcheck : checkVersion entries = .error (.incomparableVersion kind) := by
    rw [checkVersion, hversion]
    split
    · next h => cases h
    · next h =>
      cases h
      cases hkind
    · next items h =>
      cases h
      exact absurd rfl (hset items)
    · next h =>
      cases h
      rw [hkind]
  rw [ofValue, hcheck]
  rfl

theorem checkVersion_reported {entries : List (Value × Value)}
    (h : ∀ kind, ¬ IncomparableVersion (.map entries) kind) : Reported (checkVersion entries) := by
  unfold checkVersion
  split
  · exact reported_error rfl
  · exact reported_error rfl
  · exact reported_error rfl
  · next version hnull hset hversion =>
    split
    · next kind hkind => exact absurd ⟨entries, version, rfl, hversion, fun items => hset items, hkind⟩ (h kind)
    · split
      · exact reported_ok ()
      · exact reported_error rfl

/-- If the version of a document can be compared, all its faults are reported. -/
theorem ofValue_reported {v : Value} (h : ∀ kind, ¬ IncomparableVersion v kind) (known : Option (List String)) :
    Reported (ofValue known v) := by
  unfold ofValue
  split
  · exact (checkVersion_reported h).bind fun _ => ofEntries_reported known _
  · exact reported_error rfl

/-! ## The file in which settings are looked up -/

/-- The settings are looked up in a file that holds this document. -/
def Loads (fs : FileSystem) (given : Option Path) (directory : Path) (v : Value) : Prop :=
  ∃ path bytes, (given = some path ∨
      given = none ∧ path = directory.join ⟨"", [fileName]⟩ ∧ fs.isFile path = true) ∧
    fs.read path = .ok bytes ∧ documentOfFile path.text bytes = .ok v

/-- Looking settings up in a file with a document reads them from the document. -/
theorem lookup_of_loads {fs : FileSystem} {given : Option Path} {directory : Path} {v : Value}
    (h : Loads fs given directory v) :
    lookup fs given directory =
      ((ofValue (some RuleSet.names) v).mapError fun e => .file (.schema e), logsOfValue v) := by
  obtain ⟨path, bytes, hpath, hread, hdocument⟩ := h
  have hlookup : lookup fs given directory = ofPath fs path := by
    rcases hpath with rfl | ⟨rfl, rfl, hfile⟩
    · rfl
    · simp only [lookup, hfile, if_true]
  rw [hlookup, ofPath, hread]
  simp only [ofFile, hdocument]
  cases ofValue (some RuleSet.names) v <;> rfl

/-! ## Faults are reported iff the version can be compared -/

/-- The faults of the document are reported, wherever it is read: as a value, in the file in which settings are
looked up, and by the commands, which end with the exit code for an invalid configuration. -/
structure FaultsReported [Parser] (v : Value) : Prop where
  value : ∀ known, Reported (ofValue known v)
  file : ∀ {fs given directory}, Loads fs given directory v →
    ∀ e, (lookup fs given directory).1 = .error e → e.isReported = true
  commands : ∀ {w arguments level config}, CommandLine.ReadsSettings w arguments level config →
    Loads w.files config w.directory v → (∃ e, ofValue (some RuleSet.names) v = .error e) →
      ∀ elapsed, (CommandLine.run w elapsed arguments).exitCode = 2 ∧
        (CommandLine.run w elapsed arguments).fault = none

/-- The document ends every program that reads it, with a fault that nobody expects. -/
structure EndsProgram [Parser] (v : Value) (e : SettingsError) : Prop where
  value : ∀ known, ofValue known v = .error e
  file : ∀ {fs given directory}, Loads fs given directory v →
    (lookup fs given directory).1 = .error (.file (.schema e)) ∧
      (SettingsLookupError.file (.schema e)).isReported = false
  commands : ∀ {w arguments level config}, CommandLine.ReadsSettings w arguments level config →
    Loads w.files config w.directory v →
      ∀ elapsed, (CommandLine.run w elapsed arguments).exitCode = 1 ∧
        (CommandLine.run w elapsed arguments).fault = some (.file (.schema e))

/-- Settings that are looked up in a file with a faulty document are not found. -/
theorem lookup_of_loads_of_error {fs : FileSystem} {given : Option Path} {directory : Path} {v : Value}
    (h : Loads fs given directory v) {e : SettingsError} (he : ofValue (some RuleSet.names) v = .error e) :
    lookup fs given directory = (.error (.file (.schema e)), logsOfValue v) := by
  rw [lookup_of_loads h, he]
  rfl

theorem faultsReported_of_comparable [Parser] {v : Value} (h : ∀ kind, ¬ IncomparableVersion v kind) :
    FaultsReported v where
  value := ofValue_reported h
  file hloads e he := by
    cases hv : ofValue (some RuleSet.names) v with
    | ok s =>
      rw [lookup_of_loads hloads, hv] at he
      cases he
    | error e' =>
      rw [lookup_of_loads_of_error hloads hv] at he
      cases he
      exact ofValue_reported h (some RuleSet.names) e' hv
  commands hreads hloads hfault elapsed := by
    obtain ⟨e, he⟩ := hfault
    have hreported : (SettingsLookupError.file (.schema e)).isReported = true :=
      ofValue_reported h (some RuleSet.names) e he
    rw [hreads.run_eq (lookup_of_loads_of_error hloads he), CommandLine.Outcome.ofSettingsError, if_pos hreported]
    exact ⟨rfl, rfl⟩

theorem endsProgram_of_incomparable [Parser] {v : Value} {kind : Value.Collection}
    (h : IncomparableVersion v kind) : EndsProgram v (.incomparableVersion kind) where
  value := ofValue_of_incomparable h
  file hloads := by
    rw [lookup_of_loads_of_error hloads (ofValue_of_incomparable h _)]
    exact ⟨rfl, rfl⟩
  commands hreads hloads elapsed := by
    rw [hreads.run_eq (lookup_of_loads_of_error hloads (ofValue_of_incomparable h _))]
    exact ⟨rfl, rfl⟩

/-- The faults of a document are reported iff its version can be compared with the supported one. If it cannot, the
document ends the program wherever it is read. -/
theorem faults_reported_iff_version_comparable [Parser] (v : Value) :
    (FaultsReported v ↔ ∀ kind, ¬ IncomparableVersion v kind) ∧
      ∀ kind, IncomparableVersion v kind → EndsProgram v (.incomparableVersion kind) := by
  refine ⟨⟨fun hreported kind h => ?_, faultsReported_of_comparable⟩, fun kind => endsProgram_of_incomparable⟩
  have hfault := hreported.value none _ (ofValue_of_incomparable h none)
  cases hfault

/-! ### A list for a version -/

namespace ListedVersion

/-- The document `version: [1]`. -/
def document : Value :=
  .map [(.string "version", .list [.int 1])]

theorem incomparable : IncomparableVersion document .list :=
  ⟨_, .list [.int 1], rfl, rfl, by simp, rfl⟩

/-- A directory with a settings file of that content. -/
def worldOf (bytes : ByteArray) : CommandLine.World :=
  ⟨(FileSystem.empty ⟨"/", ["w"]⟩).add ⟨"", [fileName]⟩ (.file bytes), false⟩

theorem isFile_worldOf (bytes : ByteArray) : (worldOf bytes).files.isFile ⟨"/", ["w", fileName]⟩ = true := by
  cbv

theorem read_worldOf (bytes : ByteArray) : (worldOf bytes).files.read ⟨"/", ["w", fileName]⟩ = .ok bytes := by
  cbv

/-- A directory with that document in its settings file. -/
def world : CommandLine.World :=
  worldOf "version: [1]\n".toUTF8

theorem reads : CommandLine.ReadsSettings world ["lint"] .warning none :=
  .lint (a := {}) ⟨[], ⟨[], []⟩, ⟨⟨[], ["lint"]⟩, rfl, rfl, rfl, rfl⟩, rfl, rfl, rfl⟩

/-- The test whether something was read as that document. -/
def isDocument : Except SettingsFileError Value → Bool
  | .ok (.map [(.string "version", .list [.int 1])]) => true
  | _ => false

theorem eq_of_isDocument {x : Except SettingsFileError Value} (h : isDocument x = true) : x = .ok document := by
  unfold isDocument at h
  split at h
  · rfl
  · cases h

theorem document_eq : documentOfFile "/w/layerlint.yml" "version: [1]\n".toUTF8 = .ok document :=
  eq_of_isDocument (by decide +kernel)

theorem loads : Loads world.files none world.directory document :=
  ⟨⟨"/", ["w", fileName]⟩, _, Or.inr ⟨rfl, rfl, isFile_worldOf _⟩, read_worldOf _, document_eq⟩

end ListedVersion

/-- With `version: [1]` in its settings file, `lint` is ended by a fault; with `version: 1` a document has no faults
but reported ones. -/
theorem faults_of_listed_version :
    IncomparableVersion ListedVersion.document .list ∧ ¬ FaultsReported ListedVersion.document ∧
      CommandLine.ReadsSettings ListedVersion.world ["lint"] .warning none ∧
      Loads ListedVersion.world.files none ListedVersion.world.directory ListedVersion.document ∧
      (∀ elapsed, (CommandLine.run ListedVersion.world elapsed ["lint"]).exitCode = 1) ∧
      FaultsReported (.map [(.string "version", .int 1)]) := by
  have hlisted := faults_reported_iff_version_comparable ListedVersion.document
  have hends := hlisted.2 .list ListedVersion.incomparable
  refine ⟨ListedVersion.incomparable, fun h => hlisted.1.1 h .list ListedVersion.incomparable, ListedVersion.reads,
    ListedVersion.loads, fun elapsed => (hends.commands ListedVersion.reads ListedVersion.loads elapsed).1, ?_⟩
  refine (faults_reported_iff_version_comparable _).1.2 ?_
  rintro kind ⟨entries, version, hentries, hversion, -, hkind⟩
  cases hentries
  cases hversion
  cases hkind

/-- Not every faulty document is reported: a list for a version ends the program. -/
theorem not_every_document_reported : ¬ ∀ v, FaultsReported v := by
  intro h
  have hfault := (h ListedVersion.document).value none _ (ofValue_of_incomparable ListedVersion.incomparable none)
  cases hfault

end Settings

end Strata
