import Mathlib.Tactic
import Strata.CommandLine.Plan

/-!
# Command lines that enter a command

A command line may end before its command does anything: it may not be understood, or ask for help. `EntersLint` and
`EntersRules` say that it does not. What the command does then depends on its settings alone, and if there are none
both commands end alike (`ReadsSettings.run_eq`).
-/

namespace Strata.CommandLine

/-- The command line calls a command of that name with the other arguments, and lets records of that level be
shown. -/
def Calls (arguments : List String) (name : String) (level : LogLevel) (rest : List String) : Prop :=
  ∃ p, parse programSwitches false arguments = .ok p ∧ immediateAnswer? p = none ∧
    p.rest = name :: rest ∧ levelOf p = level

/-- The command line enters `lint` with these arguments. -/
def EntersLint (w : World) (arguments : List String) (level : LogLevel) (a : LintArguments) : Prop :=
  ∃ rest q, Calls arguments "lint" level rest ∧ parse lintSwitches true rest = .ok q ∧
    q.has .help = false ∧ LintArguments.ofParsed w.files q = .ok a

/-- The command line enters `rules`, with that settings file if one is given. -/
def EntersRules (w : World) (arguments : List String) (level : LogLevel) (config : Option Path) : Prop :=
  ∃ rest q, Calls arguments "rules" level rest ∧ parse rulesSwitches true rest = .ok q ∧
    q.has .help = false ∧ (q.value? .config).mapM (configOf w.files) = .ok config ∧ q.rest = []

/-- The command line enters a command, which reads its settings from the given file if there is one. -/
inductive ReadsSettings (w : World) (arguments : List String) (level : LogLevel) : Option Path → Prop
  | lint {a : LintArguments} (enters : EntersLint w arguments level a) : ReadsSettings w arguments level a.config
  | rules {config : Option Path} (enters : EntersRules w arguments level config) :
    ReadsSettings w arguments level config

variable {w : World} {arguments rest : List String} {level : LogLevel}

/-- A command line that calls a command is planned by the command. -/
theorem Calls.plan_eq {name : String} (h : Calls arguments name level rest) :
    plan w arguments =
      match Scope.command? name with
      | some .lint => planLint w level rest
      | some .rules => .done (planRules w level rest)
      | _ => .done (unknownCommand w name rest) := by
  obtain ⟨p, hparse, hsilent, hrest, rfl⟩ := h
  have hne : arguments.isEmpty = false := by
    cases arguments with
    | nil =>
      cases hparse
      cases hrest
    | cons => rfl
  simp only [plan, hne, hparse, hsilent, hrest]
  rfl

/-- What `lint` does once it is entered: it looks its settings up, and runs if there are some. -/
theorem EntersLint.plan_eq {a : LintArguments} (h : EntersLint w arguments level a) :
    plan w arguments =
      match Settings.lookup w.files a.config w.directory with
      | (.error e, logs) => .done (.ofSettingsError w (shownLogs level logs) e)
      | (.ok settings, logs) => .lint ⟨level, a, settings, logs⟩ := by
  obtain ⟨rest, q, hcalls, hparse, hhelp, hvalues⟩ := h
  have hcommand : Scope.command? "lint" = some .lint := by decide
  simp only [hcalls.plan_eq, hcommand, planLint, hparse, hhelp, hvalues]
  rfl

/-- What `rules` does once it is entered: it shows the table of rules with its settings. -/
theorem EntersRules.plan_eq {config : Option Path} (h : EntersRules w arguments level config) :
    plan w arguments = .done (rulesOutcome w level config) := by
  obtain ⟨rest, q, hcalls, hparse, hhelp, hconfig, hrest⟩ := h
  have hcommand : Scope.command? "rules" = some .rules := by decide
  simp only [hcalls.plan_eq, hcommand, planRules, hparse, hhelp, hrest]
  cases hvalue : q.value? .config with
  | none =>
    rw [hvalue] at hconfig
    cases hconfig
    rfl
  | some value =>
    rw [hvalue] at hconfig
    cases hpath : configOf w.files value with
    | error e =>
      rw [Option.mapM_some, hpath] at hconfig
      cases hconfig
    | ok path =>
      rw [Option.mapM_some, hpath] at hconfig
      cases hconfig
      simp only [hpath]
      rfl

/-- A command that finds no settings does nothing else. -/
theorem ReadsSettings.run_eq [Parser] {config : Option Path} (h : ReadsSettings w arguments level config)
    {e : SettingsLookupError} {logs : List LogRecord}
    (hlookup : Settings.lookup w.files config w.directory = (.error e, logs)) (elapsed : Elapsed) :
    run w elapsed arguments = .ofSettingsError w (shownLogs level logs) e := by
  cases h with
  | lint enters =>
    rw [run, enters.plan_eq, hlookup]
    rfl
  | rules enters =>
    rw [run, enters.plan_eq, rulesOutcome, hlookup]
    rfl

end Strata.CommandLine
