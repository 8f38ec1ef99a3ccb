import Mathlib
import Strata.Proofs.CommandLine
import Strata.Proofs.Escapes
import Strata.Proofs.JsonReport
import Strata.Proofs.Porcelain
import Strata.Proofs.TextReport

/-!
# What `lint` answers

A command line that enters `lint` (`LintCall`) ends with one of three exit codes, and tells every failure of its run
once: in the report, or, if the report has no room for failures, on lines of their own (`TellsFailures`).

What is written to a stream that is no terminal is written without its escape sequences (`Written`). Paths are written
as they are, and the name of a file may hold such a sequence; so a report can come out changed, but for documents, in
which the escape character is never written as it is.

The arguments of the command are read switch by switch; `Told` says what has been read after some of them. It follows
that the exit code depends on no other switches than `--strict` and `--config`.
-/

namespace Strata

/-! ## Failures in a report -/

/-- The lines show the failure: they have the characters that are seen of its text. -/
def Failure.ShownIn (f : Failure) (lines : List String) : Prop :=
  Text.visible (lines.flatMap String.toList) = Text.visible ("! " ++ f.path ++ ": " ++ f.message).toList

namespace Report

variable (r : RunResult)

/-- The text has for each failure lines that show it, in the order of the failures. Without these lines, and a blank
one behind them, it is the report of a run without failures. -/
def ShowsFailures (text : String) : Prop :=
  ∃ before blocks gap after, text = String.intercalate "\n" (before ++ blocks.flatten ++ gap ++ after) ∧
    List.Forall₂ Failure.ShownIn r.failures blocks ∧ (gap = [] ∨ gap = [""]) ∧
    Report.text { r with failures := [] } = String.intercalate "\n" (before ++ after)

theorem shownIn_wrap (f : Failure) : f.ShownIn (Text.wrap width (failureLine f)) :=
  Text.visible_wrap (by decide) _

theorem isTextOf_json : Json.IsTextOf (document r) ([] ++ ((json r).toList ++ ['\n'])) :=
  .mk Json.isSpace_nil (Json.writes_pretty _ 0 (proper_document r)) (Json.isSpace_newline 0)

theorem parse?_json : Json.parse? (json r ++ "\n") = some (document r) := by
  have hparse := Json.parse?_of_isTextOf (isTextOf_json r)
  rwa [List.nil_append, String.ofList_append, String.ofList_toList] at hparse

theorem not_holdsEscape_json : ¬ Text.HoldsEscape (json r) := by
  rintro ⟨e, he, hpart⟩
  have hmem : '\x1b' ∈ [] ++ ((json r).toList ++ ['\n']) :=
    List.mem_append_right [] (List.mem_append_left _ (hpart.subset he.escape_mem))
  have hclean := (isTextOf_json r).isClean '\x1b' hmem
  exact absurd hclean (by decide)

variable {r} in
/-- The report for other programs holds the escape sequences of the paths in it. -/
theorem holdsEscape_porcelain {f : Finding} (hf : f ∈ r.findings) (h : Text.HoldsEscape f.path) :
    Text.HoldsEscape (porcelain r) := by
  obtain ⟨e, he, hpart⟩ := h
  have hline : f.path.toList <:+: (porcelainLine f).toList := by
    refine ⟨(f.rule ++ ":" ++ f.severity.name ++ ":").toList,
      (":" ++ toString f.location.line ++ ":" ++ toString f.location.column ++ ":" ++ f.message).toList, ?_⟩
    simp [porcelainLine]
  have hreport : (porcelainLine f).toList <:+: (porcelain r).toList := by
    rw [porcelain_eq_intercalate]
    exact Text.infix_intercalate (List.mem_map_of_mem hf)
  exact ⟨e, he, hpart.trans (hline.trans hreport)⟩

theorem json_ne_empty : json r ≠ "" := by
  intro hempty
  have hparse := parse?_json r
  rw [hempty] at hparse
  cases hparse

/-- The lines of a report before those of its failures. -/
def opening : List String :=
  (["Rules: " ++ toString r.rulesEvaluated ++ " active", "Files: " ++ toString r.filesScanned ++ " scanned", ""] ++
    r.findings.flatMap fun f => [findingHeader f, findingLine f, ""]).flatMap (Text.wrap width)

theorem text_eq :
    text r = String.intercalate "\n" (opening r ++ (r.failures.map fun f => Text.wrap width (failureLine f)).flatten ++
      (if r.failures.isEmpty then [] else [""]) ++ Text.wrap width (summaryLine r)) := by
  have hgap : (if r.failures.isEmpty then [] else [""] : List String).flatMap (Text.wrap width) =
      if r.failures.isEmpty then [] else [""] := by
    cases r.failures.isEmpty with
    | true => rfl
    | false => decide
  rw [text_eq_intercalate, lines, paragraphs, List.flatMap_append, List.flatMap_append, List.flatMap_append, hgap,
    List.flatMap_map, List.flatMap_singleton]
  rfl

theorem text_showsFailures : ShowsFailures r (text r) := by
  refine ⟨_, _, _, _, text_eq r, ?_, ?_, ?_⟩
  · rw [List.forall₂_map_right_iff]
    exact List.forall₂_same.mpr fun f _ => shownIn_wrap f
  · cases r.failures.isEmpty with
    | true => exact .inl rfl
    | false => exact .inr rfl
  · have hnone := text_eq { r with failures := [] }
    rw [List.map_nil, List.flatten_nil, List.append_nil, List.isEmpty_nil, if_pos rfl, List.append_nil] at hnone
    exact hnone

end Report

namespace CommandLine

variable {w : World} {arguments : List String} {level : LogLevel}

/-! ## Arguments -/

namespace Parsed

variable {κ : Type} [DecidableEq κ]

/-- Two command lines say the same about a switch. -/
def SameOn (p : Parsed κ) (id : κ) (p' : Parsed κ) : Prop :=
  p.has id = p'.has id ∧ p.value? id = p'.value? id

theorem mem_given_iff {p : Parsed κ} {id : κ} : id ∈ p.given ↔ p.has id = true := by
  have hfold : ∀ (ids : List κ) (switches : List (κ × Option String)),
      id ∈ switches.foldl (fun ids s => if ids.contains s.1 then ids else ids ++ [s.1]) ids ↔
        id ∈ ids ∨ ∃ s ∈ switches, s.1 = id := by
    intro ids switches
    induction switches generalizing ids with
    | nil => simp
    | cons s switches ih =>
      have hstep : (id ∈ if ids.contains s.1 then ids else ids ++ [s.1]) ↔ id ∈ ids ∨ s.1 = id := by
        by_cases hmem : s.1 ∈ ids
        · rw [if_pos (List.contains_iff_mem.mpr hmem)]
          grind
        · rw [if_neg (fun h => hmem (List.contains_iff_mem.mp h)), List.mem_append, List.mem_singleton, eq_comm]
      rw [List.foldl_cons, ih, hstep]
      simp [or_assoc]
  rw [given, hfold, has, List.any_eq_true]
  simp

end Parsed

/-- What the arguments are after the switches `ids` have been read. -/
structure Told (fs : FileSystem) (q : Parsed LintSwitch) (ids : List LintSwitch) (a : LintArguments) : Prop where
  strict : a.strict = decide (.strict ∈ ids)
  config : (if .config ∈ ids then (configOf fs ((q.value? .config).getD "")).map some else .ok none) = .ok a.config
  format : (if .format ∈ ids then (formatOf ((q.value? .format).getD "")).map some else .ok none) = .ok a.format

section

variable {fs : FileSystem} {q : Parsed LintSwitch} {ids : List LintSwitch} {a a' : LintArguments}

theorem Told.withSwitch (h : Told fs q ids a) {id : LintSwitch} (hread : a.withSwitch fs q id = .ok a') :
    Told fs q (ids ++ [id]) a' := by
  obtain ⟨hstrict, hconfig, hformat⟩ := h
  unfold LintArguments.withSwitch at hread
  cases id with
  | format =>
    cases hvalue : formatOf ((q.value? .format).getD "") with
    | error e => simp [hvalue, Except.map] at hread
    | ok f =>
      simp only [hvalue, Except.map, Except.ok.injEq] at hread
      subst hread
      exact ⟨by simp [hstrict], by simp [hconfig], by simp [hvalue, Except.map]⟩
  | strict =>
    cases hread
    exact ⟨by simp, by simp [hconfig], by simp [hformat]⟩
  | config =>
    cases hvalue : configOf fs ((q.value? .config).getD "") with
    | error e => simp [hvalue, Except.map] at hread
    | ok path =>
      simp only [hvalue, Except.map, Except.ok.injEq] at hread
      subst hread
      exact ⟨by simp [hstrict], by simp [hvalue, Except.map], by simp [hformat]⟩
  | jobs =>
    cases hvalue : jobsOf ((q.value? .jobs).getD "") with
    | error e => simp [hvalue, Except.map] at hread
    | ok jobs =>
      simp only [hvalue, Except.map, Except.ok.injEq] at hread
      subst hread
      exact ⟨by simp [hstrict], by simp [hconfig], by simp [hformat]⟩
  | help =>
    cases hread
    exact ⟨by simp [hstrict], by simp [hconfig], by simp [hformat]⟩

theorem Told.foldlM (h : Told fs q ids a) {more : List LintSwitch}
    (hread : more.foldlM (LintArguments.withSwitch fs q) a = .ok a') : Told fs q (ids ++ more) a' := by
  induction more generalizing ids a with
  | nil =>
    cases hread
    rw [List.append_nil]
    exact h
  | cons id more ih =>
    rw [List.foldlM_cons] at hread
    cases hfirst : a.withSwitch fs q id with
    | error e =>
      rw [hfirst] at hread
      cases hread
    | ok next =>
      rw [hfirst] at hread
      have hmore := ih (h.withSwitch hfirst) hread
      rwa [List.append_assoc, List.singleton_append] at hmore

/-- All switches are read, and the paths after them. -/
theorem told_of_ofParsed (h : LintArguments.ofParsed fs q = .ok a) :
    Told fs q q.given a ∧ q.rest.mapM (pathOf fs) = .ok a.paths := by
  unfold LintArguments.ofParsed at h
  cases hswitches : q.given.foldlM (LintArguments.withSwitch fs q) {} with
  | error e =>
    rw [hswitches] at h
    cases h
  | ok b =>
    rw [hswitches] at h
    have hnone : Told fs q [] {} := ⟨by simp, by simp, by simp⟩
    have htold := hnone.foldlM hswitches
    cases hpaths : q.rest.mapM (pathOf fs) with
    | error e =>
      simp only [hpaths] at h
      cases h
    | ok paths =>
      simp only [hpaths] at h
      cases h
      exact ⟨⟨htold.strict, htold.config, htold.format⟩, rfl⟩

end

/-! ## What is written -/

/-- What is written to a stream for a text, if the stream is a terminal or not: the text, without its escape sequences
if there is no terminal, and a line end. -/
inductive Written (text : String) : Bool → String → Prop where
  | shown : Written text true (text ++ "\n")
  | piped {kept : String} (h : Text.WithoutEscapes text.toList kept.toList) : Written text false (kept ++ "\n")

theorem written_echo (terminal : Bool) (text : String) : Written text terminal (echo terminal text) := by
  cases terminal with
  | true => exact .shown
  | false =>
    rw [echo, if_neg Bool.false_ne_true, Text.deleteEscapes_append_newline]
    exact .piped (Text.withoutEscapes_iff.mpr rfl)

theorem echo_eq_iff {terminal : Bool} {text : String} :
    echo terminal text = text ++ "\n" ↔ terminal = true ∨ ¬ Text.HoldsEscape text := by
  cases terminal with
  | true => simp [echo]
  | false =>
    rw [echo, if_neg Bool.false_ne_true, Text.deleteEscapes_append_newline, String.append_left_inj,
      Text.deleteEscapes_eq_self_iff]
    simp

/-! ## Calls of `lint` -/

/-- A command line that enters `lint`: its switches and other arguments, and the values that they have. -/
structure LintCall (w : World) (arguments : List String) (level : LogLevel) (q : Parsed LintSwitch)
    (a : LintArguments) : Prop where
  calls : ∃ rest, Calls arguments "lint" level rest ∧ parse lintSwitches true rest = .ok q
  help : q.has .help = false
  values : LintArguments.ofParsed w.files q = .ok a

/-- The kind of report that is asked for: the one of that name, or else one for a person if there is a terminal. -/
inductive AsksFor (w : World) (q : Parsed LintSwitch) : ReportFormat → Prop
  | named {f : ReportFormat} (h : q.value? .format = some f.name) : AsksFor w q f
  | shown (h : q.has .format = false) (hterminal : w.terminal.output = true) : AsksFor w q .text
  | piped (h : q.has .format = false) (hterminal : w.terminal.output = false) : AsksFor w q .porcelain

theorem AsksFor.eq_porcelain {q : Parsed LintSwitch} {f : ReportFormat} (h : AsksFor w q f)
    (hvalue : q.value? .format = none) (hterminal : w.terminal.output = false) : f = .porcelain := by
  cases h with
  | named hnamed =>
    rw [hvalue] at hnamed
    cases hnamed
  | shown _ hshown =>
    rw [hterminal] at hshown
    cases hshown
  | piped => rfl

theorem value?_of_formatOf {q : Parsed LintSwitch} {f : ReportFormat}
    (h : formatOf ((q.value? .format).getD "") = .ok f) : q.value? .format = some f.name := by
  have hname : (q.value? .format).getD "" = f.name := by
    unfold formatOf at h
    split at h
    · next g hg =>
      cases h
      have hfound := List.find?_some hg
      exact (of_decide_eq_true hfound).symm
    · cases h
  cases hvalue : q.value? .format with
  | none =>
    rw [hvalue] at hname
    cases f <;> exact absurd hname (by decide)
  | some value =>
    rw [hvalue] at hname
    rw [← hname]
    rfl

namespace LintCall

variable {q : Parsed LintSwitch} {a : LintArguments}

theorem enters (h : LintCall w arguments level q a) : EntersLint w arguments level a := by
  obtain ⟨⟨rest, hcalls, hparse⟩, hhelp, hvalues⟩ := h
  exact ⟨rest, q, hcalls, hparse, hhelp, hvalues⟩

theorem strict_eq (h : LintCall w arguments level q a) : a.strict = q.has .strict := by
  have hstrict := (told_of_ofParsed h.values).1.strict
  simp only [Parsed.mem_given_iff, Bool.decide_eq_true] at hstrict
  exact hstrict

theorem asksFor (h : LintCall w arguments level q a) {p : LintPlan} (hp : p.arguments = a) :
    AsksFor w q (p.format w) := by
  have hformat := (told_of_ofParsed h.values).1.format
  rw [LintPlan.format, hp]
  by_cases hgiven : q.has .format = true
  · rw [if_pos (Parsed.mem_given_iff.mpr hgiven)] at hformat
    cases hvalue : formatOf ((q.value? .format).getD "") with
    | error e =>
      rw [hvalue] at hformat
      cases hformat
    | ok f =>
      rw [hvalue] at hformat
      have hsome : some f = a.format := Except.ok.inj hformat
      rw [← hsome, Option.getD_some]
      exact .named (value?_of_formatOf hvalue)
  · rw [if_neg (fun hmem => hgiven (Parsed.mem_given_iff.mp hmem))] at hformat
    have hnone : none = a.format := Except.ok.inj hformat
    rw [← hnone, Option.getD_none]
    cases hterminal : w.terminal.output with
    | true => exact .shown (by simpa using hgiven) hterminal
    | false => exact .piped (by simpa using hgiven) hterminal

/-- Once its settings are found, the run's result decides what is answered. -/
theorem run_of_settings [Parser] (h : LintCall w arguments level q a) {settings : Settings} {logs : List LogRecord}
    (hlookup : Settings.lookup w.files a.config w.directory = (.ok settings, logs)) {r : RunResult}
    (hr : Run.ComesOut w.files (LintPlan.targets w ⟨level, a, settings, logs⟩) settings r) :
    run w r.elapsed arguments = LintPlan.outcome w ⟨level, a, settings, logs⟩ r := by
  rw [run, h.enters.plan_eq, hlookup]
  have hresult : r = LintPlan.result w ⟨level, a, settings, logs⟩ r.elapsed := hr.eq_lint
  exact congrArg (LintPlan.outcome w ⟨level, a, settings, logs⟩) hresult.symm

end LintCall

/-! ## What is answered -/

/-- The failures of a run are told once: in a report that shows them, or in a document that lists them, and then only
log lines stand beside it; or on lines of their own behind the log lines, and then the report is silent about them. -/
inductive TellsFailures (w : World) (r : RunResult) (logLines : String) (o : Outcome) : ReportFormat → Prop
  | text (hstdout : Written (Report.text r) w.terminal.output o.stdout)
      (hshows : Report.ShowsFailures r (Report.text r)) (hstderr : o.stderr = logLines) :
      TellsFailures w r logLines o .text
  | json (hstdout : o.stdout = Report.json r ++ "\n")
      (hparse : ∃ v, Json.parse? o.stdout = some v ∧ v.list? "failures" Failure.ofJson? = some r.failures)
      (hstderr : o.stderr = logLines) : TellsFailures w r logLines o .json
  | porcelain {lines : List String} (hstdout : ∀ failures, Report.porcelain { r with failures } = Report.porcelain r)
      (hlines : List.Forall₂ (fun f => Written ("Error: " ++ f.path ++ ": " ++ f.message) w.terminal.errors)
        r.failures lines)
      (hstderr : o.stderr = logLines ++ String.join lines) : TellsFailures w r logLines o .porcelain

/-- The run of a plan had that result, and the outcome answers a command line with these switches. The report is
written as it is if there is a terminal or if it holds no escape sequence. -/
structure Answers [Parser] (w : World) (p : LintPlan) (q : Parsed LintSwitch) (r : RunResult) (o : Outcome) :
    Prop where
  exitCode : o.exitCode = if q.has .strict = true ∧ (r.findings ≠ [] ∨ r.failures ≠ []) then 1 else 0
  fault : o.fault = none
  report : ∃ f, AsksFor w q f ∧ (f.render r = "" → o.stdout = "") ∧
    (f.render r ≠ "" → Written (f.render r) w.terminal.output o.stdout ∧
      (o.stdout = f.render r ++ "\n" ↔ w.terminal.output = true ∨ ¬ Text.HoldsEscape (f.render r))) ∧
    TellsFailures w r (shownLogs p.level (p.logs ++ Run.logs w.files (p.targets w) p.settings)) o f

section

variable [Parser]

theorem stdout_outcome (w : World) (p : LintPlan) (r : RunResult) : (p.outcome w r).stdout =
    if (p.format w).render r = "" then "" else echo w.terminal.output ((p.format w).render r) :=
  rfl

theorem tellsFailures_outcome (w : World) (p : LintPlan) (r : RunResult) :
    TellsFailures w r (shownLogs p.level (p.logs ++ Run.logs w.files (p.targets w) p.settings)) (p.outcome w r)
      (p.format w) := by
  have hstdout := stdout_outcome w p r
  have hstderr : (p.outcome w r).stderr =
      shownLogs p.level (p.logs ++ Run.logs w.files (p.targets w) p.settings) ++
        LintPlan.failureLines w (p.format w) r := rfl
  cases hformat : p.format w with
  | text =>
    rw [hformat, ReportFormat.render, if_neg (Report.text_ne_empty r)] at hstdout
    rw [hformat, LintPlan.failureLines, String.append_empty] at hstderr
    · exact .text (hstdout ▸ written_echo _ _) (Report.text_showsFailures r) hstderr
    · simp
  | json =>
    rw [hformat, ReportFormat.render, if_neg (Report.json_ne_empty r),
      echo_eq_iff.mpr (.inr (Report.not_holdsEscape_json r))] at hstdout
    rw [hformat, LintPlan.failureLines, String.append_empty] at hstderr
    · refine .json hstdout ⟨Report.document r, ?_, Json.mapM_map_eq_some Failure.ofJson?_toJson r.failures⟩ hstderr
      rw [hstdout, Report.parse?_json]
    · simp
  | porcelain =>
    rw [hformat, LintPlan.failureLines] at hstderr
    refine .porcelain (fun _ => rfl) ?_ hstderr
    rw [List.forall₂_map_right_iff]
    exact List.forall₂_same.mpr fun f _ => written_echo _ _

theorem answers_outcome {q : Parsed LintSwitch} {a : LintArguments} (h : LintCall w arguments level q a)
    {p : LintPlan} (hp : p.arguments = a) (r : RunResult) : Answers w p q r (p.outcome w r) := by
  refine ⟨?_, rfl, p.format w, h.asksFor hp, ?_, ?_, tellsFailures_outcome w p r⟩
  rotate_left
  · intro hempty
    rw [stdout_outcome, if_pos hempty]
  · intro hne
    rw [stdout_outcome, if_neg hne]
    exact ⟨written_echo _ _, echo_eq_iff⟩
  have hexit : (p.outcome w r).exitCode =
      if p.arguments.strict && !(r.findings.isEmpty && r.failures.isEmpty) then 1 else 0 := rfl
  rw [hexit, hp, h.strict_eq]
  refine if_congr ?_ rfl rfl
  simp

end

theorem ofSettingsError_of_isReported {e : SettingsLookupError} (he : e.isReported = true) (w : World)
    (shown : String) : Outcome.ofSettingsError w shown e =
      { exitCode := 2, stderr := shown ++ echo w.terminal.errors ("Error: " ++ e.message) } := by
  rw [Outcome.ofSettingsError, if_pos he]

theorem exitCode_ofSettingsError (w w' : World) (shown shown' : String) (e : SettingsLookupError) :
    (Outcome.ofSettingsError w shown e).exitCode = (Outcome.ofSettingsError w' shown' e).exitCode := by
  unfold Outcome.ofSettingsError
  split <;> rfl

namespace LintCall

variable {w' : World} {arguments' : List String} {level' : LogLevel} {q q' : Parsed LintSwitch} {a a' : LintArguments}

theorem config_congr (h : LintCall w arguments level q a) (h' : LintCall w' arguments' level' q' a')
    (hfiles : w'.files = w.files) (hconfig : q'.SameOn .config q) : a'.config = a.config := by
  have htold := (told_of_ofParsed h.values).1.config
  have htold' := (told_of_ofParsed h'.values).1.config
  simp only [Parsed.mem_given_iff] at htold htold'
  rw [hfiles, hconfig.1, hconfig.2, htold] at htold'
  exact (Except.ok.inj htold').symm

theorem paths_congr (h : LintCall w arguments level q a) (h' : LintCall w' arguments' level' q' a')
    (hfiles : w'.files = w.files) (hrest : q'.rest = q.rest) : a'.paths = a.paths := by
  have hpaths := (told_of_ofParsed h.values).2
  have hpaths' := (told_of_ofParsed h'.values).2
  rw [hfiles, hrest, hpaths] at hpaths'
  exact (Except.ok.inj hpaths').symm

/-- The exit code depends on the files, on `--strict` and `--config` and on the paths, and on nothing else. -/
theorem exitCode_congr [Parser] (h : LintCall w arguments level q a) (h' : LintCall w' arguments' level' q' a')
    (hfiles : w'.files = w.files) (hstrict : q'.SameOn .strict q) (hconfig : q'.SameOn .config q)
    (hrest : q'.rest = q.rest) (elapsed elapsed' : Elapsed) :
    (run w' elapsed' arguments').exitCode = (run w elapsed arguments).exitCode := by
  have hdirectory : w'.directory = w.directory := by rw [World.directory, World.directory, hfiles]
  have hsame : a'.strict = a.strict := by rw [h.strict_eq, h'.strict_eq, hstrict.1]
  rw [run, run, h.enters.plan_eq, h'.enters.plan_eq, h.config_congr h' hfiles hconfig, hfiles, hdirectory]
  cases hlookup : Settings.lookup w.files a.config w.directory with
  | mk found logs =>
    cases found with
    | error e => exact exitCode_ofSettingsError ..
    | ok settings =>
      simp only [Plan.outcome, LintPlan.outcome, LintPlan.result, LintPlan.targets, h.paths_congr h' hfiles hrest,
        hfiles, hdirectory, hsame]
      rfl

end LintCall

/-- What `lint` answers once it is entered, unless a fault of the settings ends the program. The exit code is 2 iff no
settings are found, and then nothing is written to the standard output. Otherwise the run has a result however long it
takes, and whichever workers are done first its result is answered. Other switches than `--strict` and `--config`
do not matter for the exit code. -/
theorem lint_answers [Parser] {q : Parsed LintSwitch} {a : LintArguments} (h : LintCall w arguments level q a)
    (hreported : ∀ e, (Settings.lookup w.files a.config w.directory).1 = .error e → e.isReported = true) :
    (∀ elapsed, (run w elapsed arguments).exitCode = 2 ↔
      ∃ e, (Settings.lookup w.files a.config w.directory).1 = .error e) ∧
    (∀ elapsed e, (Settings.lookup w.files a.config w.directory).1 = .error e →
      (run w elapsed arguments).stdout = "" ∧ (run w elapsed arguments).fault = none) ∧
    (∀ elapsed settings logs, Settings.lookup w.files a.config w.directory = (.ok settings, logs) →
      let plan : LintPlan := ⟨level, a, settings, logs⟩
      (∃ r, Run.ComesOut w.files (plan.targets w) settings r ∧ r.elapsed = elapsed) ∧
        ∀ r, Run.ComesOut w.files (plan.targets w) settings r → r.elapsed = elapsed →
          Answers w plan q r (run w elapsed arguments)) ∧
    ∀ {w' arguments' level' q' a'}, LintCall w' arguments' level' q' a' → w'.files = w.files →
      q'.SameOn .strict q → q'.SameOn .config q → q'.rest = q.rest → ∀ elapsed elapsed',
        (run w' elapsed' arguments').exitCode = (run w elapsed arguments).exitCode := by
  have herror : ∀ elapsed e, (Settings.lookup w.files a.config w.directory).1 = .error e →
      ∃ stderr, run w elapsed arguments = { exitCode := 2, stderr } := by
    intro elapsed e he
    have hrun := (ReadsSettings.lint h.enters).run_eq (Prod.ext he rfl) elapsed
    exact ⟨_, hrun.trans (ofSettingsError_of_isReported (hreported e he) w _)⟩
  have hanswers : ∀ elapsed settings logs,
      Settings.lookup w.files a.config w.directory = (.ok settings, logs) → ∀ r,
      Run.ComesOut w.files (LintPlan.targets w ⟨level, a, settings, logs⟩) settings r → r.elapsed = elapsed →
      Answers w ⟨level, a, settings, logs⟩ q r (run w elapsed arguments) := by
    rintro _ settings logs hlookup r hr rfl
    rw [h.run_of_settings hlookup hr]
    exact answers_outcome h rfl r
  refine ⟨?_, ?_, ?_, ?_⟩
  · intro elapsed
    constructor
    · intro hexit
      cases hfound : (Settings.lookup w.files a.config w.directory).1 with
      | error e => exact ⟨e, rfl⟩
      | ok settings =>
        have hcode := (hanswers elapsed settings _ (Prod.ext hfound rfl) _ (Run.comesOut_lint ..) rfl).exitCode
        rw [hexit] at hcode
        split at hcode <;> cases hcode
    · rintro ⟨e, he⟩
      obtain ⟨stderr, hrun⟩ := herror elapsed e he
      rw [hrun]
  · intro elapsed e he
    obtain ⟨stderr, hrun⟩ := herror elapsed e he
    rw [hrun]
    exact ⟨rfl, rfl⟩
  · intro elapsed settings logs hlookup plan
    exact ⟨⟨_, Run.comesOut_lint w.files (plan.targets w) settings elapsed, rfl⟩,
      hanswers elapsed settings logs hlookup⟩
  · intro w' arguments' level' q' a' h' hfiles hstrict hconfig hrest elapsed elapsed'
    exact h.exitCode_congr h' hfiles hstrict hconfig hrest elapsed elapsed'

/-! ### A source that is not UTF-8 -/

namespace UnreadableSource

/-- A project with that source, and no terminal. -/
def world (content : ByteArray) : World :=
  ⟨Run.TwoProjects.large content, false⟩

/-- The arguments of `lint --strict b`. -/
def told : LintArguments :=
  { paths := [⟨"", ["b"]⟩], strict := true }

variable (content : ByteArray)

theorem call :
    LintCall (world content) ["lint", "--strict", "b"] .warning ⟨[(.strict, none)], ["b"]⟩ told := by
  refine ⟨⟨["--strict", "b"], ⟨⟨[], ["lint", "--strict", "b"]⟩, rfl, rfl, rfl, rfl⟩, rfl⟩, rfl, ?_⟩
  cbv

theorem call_verbose :
    LintCall (world content) ["-v", "lint", "b", "--format=json", "--strict"] .debug
      ⟨[(.format, some "json"), (.strict, none)], ["b"]⟩ { told with format := some .json } := by
  refine ⟨⟨["b", "--format=json", "--strict"],
    ⟨⟨[(.verbose, none)], ["lint", "b", "--format=json", "--strict"]⟩, rfl, rfl, rfl, rfl⟩, rfl⟩, rfl, ?_⟩
  cbv

theorem lookup_eq :
    Settings.lookup (world content).files told.config (world content).directory = (.ok {}, []) := by
  cbv

theorem result_eq [Parser] {r : RunResult} (hr : Run.ComesOut (world content).files [⟨"", ["b"]⟩] {} r) :
    r.findings = [] ∧ r.failures = [Run.TwoProjects.failure] := by
  have hsources : Sources.collect (world content).files [⟨"", ["b"]⟩] ({} : Settings).excludes =
      [Run.TwoProjects.unreadable] := Run.TwoProjects.sources_large_b content
  have houtcome : Run.outcome (world content).files (Run.rulesOf {}) Run.TwoProjects.unreadable =
      .error Run.TwoProjects.failure.message := Run.TwoProjects.outcome_unreadable content _
  rw [hr.eq_lint, Run.lint, Run.gather, hsources]
  simp only [List.flatMap_singleton, List.filterMap_cons, houtcome]
  exact ⟨List.mergeSort_nil, rfl⟩

theorem eq_of_written {line : String}
    (h : Written ("Error: " ++ Run.TwoProjects.failure.path ++ ": " ++ Run.TwoProjects.failure.message) false line) :
    line = "Error: /w/b/d.kt: 'utf-8' codec can't decode byte 0xff in position 0: invalid start byte\n" := by
  cases h with
  | piped h =>
    rw [← Text.withoutEscapes_iff.mp h]
    decide

end UnreadableSource

/-- `lint --strict b` finds nothing in a directory whose source cannot be read, so it writes no report; it tells the
failure and ends with 1, and as a document it would end alike. -/
theorem lint_of_unreadable_source :
    let w := UnreadableSource.world "import x.Y\n".toUTF8
    LintCall w ["lint", "--strict", "b"] .warning ⟨[(.strict, none)], ["b"]⟩ UnreadableSource.told ∧
      Settings.lookup w.files UnreadableSource.told.config w.directory = (.ok {}, []) ∧
      ∀ elapsed, (run w elapsed ["lint", "--strict", "b"]).exitCode = 1 ∧
        (run w elapsed ["lint", "--strict", "b"]).stdout = "" ∧
        (∃ logLines, (run w elapsed ["lint", "--strict", "b"]).stderr = logLines ++
          "Error: /w/b/d.kt: 'utf-8' codec can't decode byte 0xff in position 0: invalid start byte\n") ∧
        (run w elapsed ["-v", "lint", "b", "--format=json", "--strict"]).exitCode = 1 := by
  intro w
  have hcall : LintCall w ["lint", "--strict", "b"] .warning ⟨[(.strict, none)], ["b"]⟩ UnreadableSource.told :=
    UnreadableSource.call _
  have hlookup : Settings.lookup w.files UnreadableSource.told.config w.directory = (.ok {}, []) :=
    UnreadableSource.lookup_eq _
  have hreported : ∀ e, (Settings.lookup w.files UnreadableSource.told.config w.directory).1 = .error e →
      e.isReported = true := by
    intro e he
    rw [hlookup] at he
    cases he
  obtain ⟨-, -, hanswers, hsame⟩ := lint_answers hcall hreported
  refine ⟨hcall, hlookup, fun elapsed => ?_⟩
  obtain ⟨⟨r, hr, helapsed⟩, hanswers⟩ := hanswers elapsed {} [] hlookup
  obtain ⟨hfindings, hfailures⟩ := UnreadableSource.result_eq _ hr
  obtain ⟨hexit, -, f, hasks, hempty, -, htells⟩ := hanswers r hr helapsed
  obtain rfl : f = .porcelain := hasks.eq_porcelain rfl rfl
  have hexit : (run w elapsed ["lint", "--strict", "b"]).exitCode = 1 := by
    rw [hexit, hfailures]
    exact if_pos ⟨rfl, .inr (List.cons_ne_nil _ _)⟩
  refine ⟨hexit, ?_, ?_, ?_⟩
  · refine hempty ?_
    rw [ReportFormat.render, Report.porcelain, hfindings]
    rfl
  · cases htells with
    | porcelain _ hlines hstderr =>
      rw [hfailures] at hlines
      obtain ⟨line, _, hline, hnone, rfl⟩ := List.forall₂_cons_left_iff.mp hlines
      rw [List.forall₂_nil_left_iff.mp hnone, UnreadableSource.eq_of_written hline, String.join_cons,
        String.join_nil, String.append_empty] at hstderr
      exact ⟨_, hstderr⟩
  · rw [← hexit]
    exact hsame (UnreadableSource.call_verbose _) rfl ⟨rfl, rfl⟩ ⟨rfl, rfl⟩ rfl elapsed elapsed

/-! ### A file name with an escape sequence -/

namespace ColouredName

/-- A project with one source, whose name is written in red from its second letter on. -/
def files (content : ByteArray) : FileSystem :=
  (FileSystem.empty ⟨"/", ["w"]⟩).add ⟨"", ["A\x1b[31mB.kt"]⟩ (.file content)

def source : Path :=
  ⟨"/", ["w", "A\x1b[31mB.kt"]⟩

/-- A source of the domain layer in a project with the usual name. -/
def text : String :=
  "package com.wakita181009.cleanarchitecture.domain\nimport b"

/-- The project with that source, and no terminal. -/
def world : World :=
  ⟨files text.toUTF8, false⟩

def file : SourceFile :=
  ⟨source.text, "com.wakita181009.cleanarchitecture.domain",
    .parsed (DomainSource.treeOf "com.wakita181009.cleanarchitecture.domain")⟩

def rule : Rule :=
  ({} : Settings).ruleOf .forbiddenImport

theorem source_mem (content : ByteArray) : source ∈ Sources.collect (files content) [⟨"/", ["w"]⟩] [] := by
  have hworking : (files content).lookup ⟨"/", ["w"]⟩ = .ok (.directory "w" [.file "A\x1b[31mB.kt" content]) := by
    cbv
  have hname : Sources.IsSourceName "A\x1b[31mB.kt" := ⟨"A\x1b[31mB", by decide, Or.inl rfl⟩
  have hleads : (files content).LeadsToFile ⟨"/", ["w"] ++ ["A\x1b[31mB.kt"]⟩ source :=
    ⟨by cbv, "A\x1b[31mB.kt", content, by cbv⟩
  exact Sources.mem_collect_iff.mpr ⟨fun pattern h => absurd h List.not_mem_nil, _, List.mem_cons_self,
    .below hworking (.here List.mem_cons_self) hname hleads⟩

theorem read_source (content : ByteArray) : (files content).read source = .ok content := by
  cbv

theorem lookup_eq (content : ByteArray) : Settings.lookup (files content) none ⟨"/", ["w"]⟩ = (.ok {}, []) := by
  cbv

theorem call : LintCall world ["lint"] .warning ⟨[], []⟩ {} :=
  ⟨⟨[], ⟨⟨[], ["lint"]⟩, rfl, rfl, rfl, rfl⟩, rfl⟩, rfl, rfl⟩

theorem readSource_source : Run.readSource world.files source = .ok file := by
  have htree : Parser.tree (Text.unifyNewlines text) =
      DomainSource.treeOf "com.wakita181009.cleanarchitecture.domain" := rfl
  have hfile : SourceFile.ofTree source.text (DomainSource.treeOf "com.wakita181009.cleanarchitecture.domain") =
      .ok file := DomainSource.ofTree_of_header (by decide) (by decide) rfl source.text
  rw [Run.readSource, world, read_source]
  simp only [Run.sourceOf_toUTF8, htree, hfile]
  rfl

theorem finding_mem (elapsed : Elapsed) :
    rule.complaint file DomainSource.event ∈ (Run.lint world.files [⟨"/", ["w"]⟩] {} elapsed).findings := by
  refine Run.mem_findings_lint.mpr ⟨source, source_mem _, file, readSource_source, ?_⟩
  have hevents : file.tree.delivery.items = [DomainSource.event] := DomainSource.walk_items _
  rw [Analysis.report_items, hevents, List.flatMap_singleton]
  refine List.mem_map_of_mem (List.mem_filter.mpr ⟨?_, by decide⟩)
  rw [Run.rulesOf_eq]
  exact List.mem_filter.mpr ⟨List.mem_map_of_mem (by decide), rfl⟩

theorem holdsEscape_source : Text.HoldsEscape source.text := by
  have hescape : Text.IsEscape ('\x1b' :: '[' :: (['3', '1'] ++ ['m'])) :=
    .mk (List.all_eq_true.mp (by decide)) (by decide)
  exact ⟨_, hescape, "/w/A".toList, "B.kt".toList, by decide⟩

end ColouredName

/-- It is not so that every report is written as it is: one on the standard output is not, if that is no terminal and
the name of a file that it speaks of holds an escape sequence. -/
theorem not_every_report_written_unchanged :
    ¬ ∀ (w : World) (arguments : List String) (level : LogLevel) (q : Parsed LintSwitch) (a : LintArguments)
      (settings : Settings) (logs : List LogRecord) (r : RunResult),
      LintCall w arguments level q a → Settings.lookup w.files a.config w.directory = (.ok settings, logs) →
      Run.ComesOut w.files (LintPlan.targets w ⟨level, a, settings, logs⟩) settings r →
      ∃ f, AsksFor w q f ∧
        (run w r.elapsed arguments).stdout = if f.render r = "" then "" else f.render r ++ "\n" := by
  intro h
  have hr := Run.comesOut_lint ColouredName.world.files [⟨"/", ["w"]⟩] {} (.whole 0)
  have hlookup := ColouredName.lookup_eq ColouredName.text.toUTF8
  obtain ⟨f, hasks, hstdout⟩ := h ColouredName.world ["lint"] .warning ⟨[], []⟩ {} {} [] _ ColouredName.call hlookup hr
  obtain rfl : f = .porcelain := hasks.eq_porcelain rfl rfl
  have hholds := Report.holdsEscape_porcelain (ColouredName.finding_mem (.whole 0)) ColouredName.holdsEscape_source
  have hformat : LintPlan.format ColouredName.world ⟨.warning, {}, {}, []⟩ = .porcelain := rfl
  rw [ColouredName.call.run_of_settings hlookup hr, stdout_outcome, hformat, ReportFormat.render,
    if_neg hholds.ne_empty, if_neg hholds.ne_empty, echo_eq_iff] at hstdout
  rcases hstdout with hterminal | hnone
  · cases hterminal
  · exact hnone hholds

end CommandLine

end Strata
