import Mathlib.Data.List.Perm.Basic
import Strata.Kotlin.Parser
import Strata.Proofs.Sources
import Strata.Proofs.Violations
import Strata.Run

/-!
# Schedules of a run

The sources of a run are analysed by workers, and nobody knows which of them is done first. A run in progress is
a `Pool`: any task may be finished at any time, while the outcomes are collected in the order of the sources.
Every schedule ends, and it ends with the result that analysing one source after the other has.

That result is all or nothing for each source: either its findings form one block, or it is a failure and nothing
it reported before the fault is left.
-/

namespace Strata.Run

/-! ## Runs in progress -/

/-- A source that is handed to a worker, and what came out once the worker is done. -/
structure Task where
  path : Path
  outcome : Option Outcome

/-- A run in progress: the tasks whose outcomes were not collected yet, in the order of the sources, and what was
collected from the others. -/
structure Pool where
  tasks : List Task
  findings : List Finding
  failures : List Failure

namespace Pool

/-- The pool in which no worker is done. -/
def start (sources : List Path) : Pool :=
  ⟨sources.map fun p => ⟨p, none⟩, [], []⟩

/-- The result of a run over the sources that ends with this pool. -/
def result (pool : Pool) (sources : List Path) (rules : List Rule) (elapsed : Elapsed) : RunResult where
  findings := sortByPath pool.findings
  failures := pool.failures
  rulesEvaluated := rules.length
  filesScanned := sources.length
  elapsed := elapsed

/-- What can happen next, where `work` says what a worker reports about a source and which fault ends its work. -/
inductive Step (work : Path → Delivery String Finding) : Pool → Pool → Prop
  /-- Some worker is done. What it reported counts only if no fault ended its work. -/
  | finish (before after : List Task) (p : Path) (findings : List Finding) (failures : List Failure) :
    Step work ⟨before ++ ⟨p, none⟩ :: after, findings, failures⟩
      ⟨before ++ ⟨p, some (work p).complete⟩ :: after, findings, failures⟩
  /-- The outcome of the first task is collected. -/
  | collect (p : Path) (outcome : Outcome) (rest : List Task) (findings : List Finding)
      (failures : List Failure) :
    Step work ⟨⟨p, some outcome⟩ :: rest, findings, failures⟩
      ⟨rest, findings ++ outcome.findings, failures ++ (outcome.failure? p).toList⟩

/-- The pools that a run over the sources can come to in that many steps. -/
inductive Runs (work : Path → Delivery String Finding) (sources : List Path) : Nat → Pool → Prop
  | start : Runs work sources 0 (start sources)
  | step {k : Nat} {pool next : Pool} (run : Runs work sources k pool) (step : Step work pool next) :
    Runs work sources (k + 1) next

/-! ## What every step keeps -/

/-- What is collected and what is still to come make up the whole, and a task that is done has the outcome that
the work of its source leads to. -/
structure Sound (work : Path → Delivery String Finding) (sources : List Path) (pool : Pool) : Prop where
  outcome_eq : ∀ t ∈ pool.tasks, ∀ o, t.outcome = some o → o = (work t.path).complete
  findings_eq : pool.findings ++ (pool.tasks.flatMap fun t => Outcome.findings (work t.path).complete) =
    sources.flatMap fun p => Outcome.findings (work p).complete
  failures_eq : pool.failures ++ (pool.tasks.filterMap fun t => Outcome.failure? t.path (work t.path).complete) =
    sources.filterMap fun p => Outcome.failure? p (work p).complete

/-- How many steps are left: two for a task that is not done, and one for a task that is. -/
def left (pool : Pool) : Nat :=
  (pool.tasks.map fun t => if t.outcome.isNone then 2 else 1).sum

variable {work : Path → Delivery String Finding} {sources : List Path} {pool next : Pool}

theorem sound_start (work : Path → Delivery String Finding) (sources : List Path) :
    Sound work sources (start sources) where
  outcome_eq t ht o ho := by
    obtain ⟨p, -, rfl⟩ := List.mem_map.1 ht
    cases ho
  findings_eq := by simp [start, List.flatMap_map]
  failures_eq := by simp [start, List.filterMap_map]

theorem Sound.step (h : Sound work sources pool) (hstep : Step work pool next) : Sound work sources next := by
  cases hstep with
  | finish before after p findings failures =>
    refine ⟨fun t ht o ho => ?_, ?_, ?_⟩
    · rcases List.mem_append.1 ht with ht | ht
      · exact h.outcome_eq t (List.mem_append_left _ ht) o ho
      · cases ht with
        | head =>
          cases ho
          rfl
        | tail _ ht => exact h.outcome_eq t (List.mem_append_right _ (List.mem_cons_of_mem _ ht)) o ho
    -- the sums speak of the sources of the tasks only, and these stay
    · rw [← h.findings_eq]
      simp
    · rw [← h.failures_eq]
      simp only [List.filterMap_append, List.filterMap_cons]
  | collect p outcome rest findings failures =>
    have houtcome : outcome = (work p).complete := h.outcome_eq _ List.mem_cons_self outcome rfl
    subst houtcome
    refine ⟨fun t ht => h.outcome_eq t (List.mem_cons_of_mem _ ht), ?_, ?_⟩
    · rw [← h.findings_eq]
      simp
    · rw [← h.failures_eq]
      cases hfailure : Outcome.failure? p (work p).complete <;> simp [hfailure]

/-- Every step is one step less. -/
theorem Step.left_eq (hstep : Step work pool next) : next.left + 1 = pool.left := by
  cases hstep with
  | finish before after p findings failures => simp [left]; omega
  | collect p outcome rest findings failures => simp [left]; omega

theorem left_start (sources : List Path) : (start sources).left = 2 * sources.length := by
  simp [left, start, Function.comp_def, Nat.mul_comm]

theorem left_eq_zero_iff : pool.left = 0 ↔ pool.tasks = [] := by
  obtain ⟨tasks, findings, failures⟩ := pool
  cases tasks with
  | nil => simp [left]
  | cons t rest =>
    simp only [left, List.map_cons, List.sum_cons, reduceCtorEq, iff_false]
    split <;> omega

/-- As long as there is a task, the run can go on. -/
theorem exists_step (work : Path → Delivery String Finding) (h : pool.tasks ≠ []) :
    ∃ next, Step work pool next := by
  obtain ⟨tasks, findings, failures⟩ := pool
  cases tasks with
  | nil => exact absurd rfl h
  | cons t rest =>
    obtain ⟨p, outcome⟩ := t
    cases outcome with
    | none => exact ⟨_, Step.finish [] rest p findings failures⟩
    | some outcome => exact ⟨_, Step.collect p outcome rest findings failures⟩

theorem Runs.sound {k : Nat} (h : Runs work sources k pool) : Sound work sources pool := by
  induction h with
  | start => exact sound_start work sources
  | step _ hstep ih => exact ih.step hstep

theorem Runs.add_left {k : Nat} (h : Runs work sources k pool) : k + pool.left = 2 * sources.length := by
  induction h with
  | start => rw [left_start, Nat.zero_add]
  | step _ hstep ih =>
    have := hstep.left_eq
    omega

/-- A run without tasks has collected what analysing one source after the other gives. -/
theorem Runs.result_eq {k : Nat} (h : Runs work sources k pool) (hdone : pool.tasks = []) (rules : List Rule)
    (elapsed : Elapsed) :
    pool.result sources rules elapsed = gather (fun p => (work p).complete) sources rules elapsed := by
  have hfindings := h.sound.findings_eq
  have hfailures := h.sound.failures_eq
  rw [hdone, List.flatMap_nil, List.append_nil] at hfindings
  rw [hdone, List.filterMap_nil, List.append_nil] at hfailures
  rw [result, gather, hfindings, hfailures]

/-- There are runs of every length up to two steps for each source. -/
theorem exists_runs (work : Path → Delivery String Finding) (sources : List Path) {k : Nat}
    (hk : k ≤ 2 * sources.length) : ∃ pool, Runs work sources k pool := by
  induction k with
  | zero => exact ⟨start sources, Runs.start⟩
  | succ k ih =>
    obtain ⟨pool, hpool⟩ := ih (by omega)
    have hleft := hpool.add_left
    have htasks : pool.tasks ≠ [] := by
      rw [Ne, ← left_eq_zero_iff]
      omega
    obtain ⟨next, hnext⟩ := exists_step work htasks
    exact ⟨next, hpool.step hnext⟩

/-- Whatever the workers do, a run over the sources ends after two steps for each of them, and with the result
`r`. -/
structure AlwaysGathers (work : Path → Delivery String Finding) (sources : List Path) (rules : List Rule)
    (r : RunResult) : Prop where
  /-- Some run ends. -/
  ends : ∃ pool, Runs work sources (2 * sources.length) pool
  /-- No run takes longer. -/
  le : ∀ {k pool}, Runs work sources k pool → k ≤ 2 * sources.length
  /-- A run goes on as long as there is a task, and then only. -/
  goes_on : ∀ {k pool}, Runs work sources k pool → ((∃ next, Step work pool next) ↔ pool.tasks ≠ [])
  /-- A run without tasks has taken all its steps. -/
  done : ∀ {k pool}, Runs work sources k pool → (pool.tasks = [] ↔ k = 2 * sources.length)
  /-- A run without tasks has the result. -/
  result_eq : ∀ {k pool}, Runs work sources k pool → pool.tasks = [] → pool.result sources rules r.elapsed = r

theorem alwaysGathers (work : Path → Delivery String Finding) (sources : List Path) (rules : List Rule)
    (elapsed : Elapsed) :
    AlwaysGathers work sources rules (gather (fun p => (work p).complete) sources rules elapsed) where
  ends := exists_runs work sources (Nat.le_refl _)
  le h := by
    have hleft := h.add_left
    omega
  goes_on h := by
    refine ⟨?_, exists_step work⟩
    rintro ⟨next, hnext⟩ hdone
    have hleft := hnext.left_eq
    rw [left_eq_zero_iff.2 hdone] at hleft
    omega
  done h := by
    have hleft := h.add_left
    rw [← left_eq_zero_iff]
    omega
  result_eq h hdone := h.result_eq hdone rules elapsed

end Pool

/-! ## All or nothing -/

/-- The result `r` of a run over the sources holds each source whole or not at all. -/
structure AllOrNothing (work : Path → Delivery String Finding) (sources : List Path) (r : RunResult) : Prop where
  /-- The findings are one block for each source that was analysed to its end, in the order of the texts of their
  paths. -/
  blocks : ∃ ordered : List Path, ordered.Perm (sources.filter fun p => (work p).fault.isNone) ∧
    ordered.Pairwise (fun p q => p.text < q.text) ∧ r.findings = ordered.flatMap fun p => (work p).items
  /-- There is one failure for each other source, in the order of the sources. -/
  failures_eq : r.failures = sources.filterMap fun p => (work p).fault.map fun message => ⟨p.text, message⟩
  /-- No source has both. -/
  apart : ∀ f ∈ r.findings, ∀ e ∈ r.failures, f.path ≠ e.path

section

variable {work : Path → Delivery String Finding}

theorem findings_complete (d : Delivery String Finding) :
    Outcome.findings d.complete = if d.fault.isNone then d.items else [] := by
  rw [Delivery.complete]
  cases d.fault <;> rfl

theorem failure?_complete (p : Path) (d : Delivery String Finding) :
    Outcome.failure? p d.complete = d.fault.map fun message => ⟨p.text, message⟩ := by
  rw [Delivery.complete]
  cases d.fault <;> rfl

/-- Only the sources that were analysed to their end give findings. -/
theorem flatMap_findings (l : List Path) :
    (l.flatMap fun p => Outcome.findings (work p).complete) =
      (l.filter fun p => (work p).fault.isNone).flatMap fun p => (work p).items := by
  induction l with
  | nil => rfl
  | cons p rest ih =>
    rw [List.flatMap_cons, ih, findings_complete, List.filter_cons]
    by_cases hp : (work p).fault.isNone = true
    · rw [if_pos hp, if_pos hp, List.flatMap_cons]
    · rw [if_neg hp, if_neg hp, List.nil_append]

/-- Sources in the order of the texts of their paths. -/
def byText (sources : List Path) : List Path :=
  sources.mergeSort fun p q => Text.lexLE p.text q.text

theorem byText_perm (sources : List Path) : (byText sources).Perm sources :=
  List.mergeSort_perm sources _

theorem lexLE_text_iff (p q : Path) : Text.lexLE p.text q.text = true ↔ p.text ≤ q.text :=
  Text.lexLE_iff

theorem lexLE_path_iff (f g : Finding) : Text.lexLE f.path g.path = true ↔ f.path ≤ g.path :=
  Text.lexLE_iff

variable {sources : List Path} (own : ∀ p ∈ sources, ∀ f ∈ (work p).items, f.path = p.text)

include own

/-- Sorting the findings by their paths sorts the blocks of the sources. -/
theorem gather_findings (rules : List Rule) (elapsed : Elapsed) :
    (gather (fun p => (work p).complete) sources rules elapsed).findings =
      ((byText sources).filter fun p => (work p).fault.isNone).flatMap fun p => (work p).items := by
  have hblocks : ∀ p ∈ sources, ∀ f ∈ Outcome.findings (work p).complete, f.path = p.text := by
    intro p hp f hf
    rw [findings_complete] at hf
    split at hf
    · exact own p hp f hf
    · cases hf
  rw [← flatMap_findings, byText]
  exact StableSort.mergeSort_flatMap lexLE_path_iff lexLE_text_iff hblocks

/-- If no two sources have the same text, what is gathered holds each of them whole or not at all. -/
theorem gather_allOrNothing (hnodup : sources.Nodup)
    (htext : ∀ p ∈ sources, ∀ q ∈ sources, p.text = q.text → p = q) (rules : List Rule) (elapsed : Elapsed) :
    AllOrNothing work sources (gather (fun p => (work p).complete) sources rules elapsed) := by
  have hmem : ∀ {p}, p ∈ byText sources → p ∈ sources := fun hp => (byText_perm sources).mem_iff.1 hp
  have hfailures : (gather (fun p => (work p).complete) sources rules elapsed).failures =
      sources.filterMap fun p => (work p).fault.map fun message => ⟨p.text, message⟩ := by
    simp only [gather, failure?_complete]
  refine ⟨⟨(byText sources).filter fun p => (work p).fault.isNone, (byText_perm sources).filter _, ?_,
    gather_findings own rules elapsed⟩, hfailures, ?_⟩
  · have hle := StableSort.pairwise_mergeSort lexLE_text_iff sources
    have hne : (byText sources).Nodup := (byText_perm sources).nodup_iff.2 hnodup
    refine List.Pairwise.filter _ ((hle.and hne).imp_of_mem fun {p q} hp hq hpq => ?_)
    exact lt_of_le_of_ne hpq.1 fun heq => hpq.2 (htext p (hmem hp) q (hmem hq) heq)
  · intro f hf e he heq
    rw [gather_findings own] at hf
    rw [hfailures] at he
    obtain ⟨p, hp, hf⟩ := List.mem_flatMap.1 hf
    obtain ⟨hp, hdone⟩ := List.mem_filter.1 hp
    obtain ⟨q, hq, he⟩ := List.mem_filterMap.1 he
    obtain ⟨message, hfault, rfl⟩ := Option.map_eq_some_iff.1 he
    have hpq : p = q := htext p (hmem hp) q hq ((own p (hmem hp) f hf).symm.trans heq)
    rw [hpq, hfault] at hdone
    cases hdone

end

/-! ## The work of a run -/

/-- A source that was read is made of the tree of a text. -/
theorem ofTree_of_readSource [Parser] {fs : FileSystem} {p : Path} {file : SourceFile}
    (h : readSource fs p = .ok file) : ∃ text, SourceFile.ofTree p.text (Parser.tree text) = .ok file := by
  rw [readSource] at h
  split at h
  · cases h
  · rw [sourceOf] at h
    split at h
    · cases h
    · next text htext =>
      refine ⟨Text.unifyNewlines text, ?_⟩
      cases htree : SourceFile.ofTree p.text (Parser.tree (Text.unifyNewlines text)) with
      | error f =>
        rw [htree] at h
        cases h
      | ok file' =>
        rw [htree] at h
        cases h
        rfl

/-- A source that is made of a tree has the path that it is given and the package of the tree. -/
theorem eq_of_ofTree {path : String} {root : Syntax.Node} {file : SourceFile}
    (h : SourceFile.ofTree path root = .ok file) :
    ∃ package, root.packageName = .ok package ∧ file = ⟨path, package, .parsed root⟩ := by
  rw [SourceFile.ofTree] at h
  cases hpackage : root.packageName with
  | error f =>
    rw [hpackage] at h
    cases h
  | ok package =>
    rw [hpackage] at h
    cases h
    exact ⟨package, rfl, rfl⟩

theorem eq_of_readSource [Parser] {fs : FileSystem} {p : Path} {file : SourceFile} (h : readSource fs p = .ok file) :
    ∃ package text, file = ⟨p.text, package, .parsed (Parser.tree text)⟩ := by
  obtain ⟨text, htree⟩ := ofTree_of_readSource h
  obtain ⟨package, -, hfile⟩ := eq_of_ofTree htree
  exact ⟨package, text, hfile⟩

/-- Whatever is reported about a source has the path of the source. -/
theorem path_of_mem_report {file : SourceFile} {rules : List Rule} {f : Finding}
    (h : f ∈ (Analysis.report file rules).items) : f.path = file.path := by
  rw [Analysis.report_items] at h
  obtain ⟨e, -, h⟩ := List.mem_flatMap.1 h
  obtain ⟨r, -, rfl⟩ := List.mem_map.1 h
  rfl

theorem path_of_mem_work [Parser] {fs : FileSystem} {rules : List Rule} {p : Path} {f : Finding}
    (h : f ∈ (work fs rules p).items) : f.path = p.text := by
  rw [work, Delivery.mapFault, report] at h
  split at h
  · cases h
  · next file hfile =>
    rw [path_of_mem_report h]
    obtain ⟨package, text, rfl⟩ := eq_of_readSource hfile
    rfl

/-- Whatever a worker reports about a source before it is done or fails, and whichever worker is done first: a run
ends after two steps for each source and has the result of analysing one source after the other. The findings in
it are whole blocks in the order of the texts of the paths, the failures are in the order of the parts of the
paths, and no source has both. A run over a file system is such a run. -/
theorem every_schedule_gathers_alike [Parser] (fs : FileSystem) (arguments : List Path) (s : Settings)
    (elapsed : Elapsed) (work : Path → Delivery String Finding)
    (own : ∀ p ∈ Sources.collect fs arguments s.excludes, ∀ f ∈ (work p).items, f.path = p.text) :
    let sources := Sources.collect fs arguments s.excludes
    let sequential := gather (fun p => (work p).complete) sources (rulesOf s) elapsed
    Pool.AlwaysGathers work sources (rulesOf s) sequential ∧
      sources.Pairwise (fun p q => p.parts < q.parts) ∧ AllOrNothing work sources sequential ∧
      sequential.filesScanned = sources.length ∧ sequential.rulesEvaluated = (rulesOf s).length ∧
      lint fs arguments s elapsed =
        gather (fun p => (Run.work fs (rulesOf s) p).complete) sources (rulesOf s) elapsed ∧
      ∀ p ∈ sources, ∀ f ∈ (Run.work fs (rulesOf s) p).items, f.path = p.text := by
  intro sources sequential
  have hordered : sources.Pairwise fun p q => p.parts < q.parts :=
    Sources.collect_pairwise fs arguments s.excludes
  have hnodup : sources.Pairwise fun p q => p ≠ q := hordered.imp fun hpq heq => hpq.ne (congrArg Path.parts heq)
  have htext : ∀ p ∈ sources, ∀ q ∈ sources, p.text = q.text → p = q :=
    fun p hp q hq => Sources.text_injective_of_mem_collect hp hq
  exact ⟨Pool.alwaysGathers work sources (rulesOf s) elapsed, hordered, gather_allOrNothing own hnodup htext _ _,
    rfl, rfl, rfl, fun p _ f hf => path_of_mem_work hf⟩

/-! ### A source that fails after it reported something -/

namespace LateFailure

/-- Two files whose order as paths is not their order as texts. -/
def fs : FileSystem :=
  ((FileSystem.empty ⟨"/", ["w"]⟩).add ⟨"", ["a", "c.kt"]⟩ (.file ⟨#[]⟩)).add
    ⟨"", ["a-b", "c.kt"]⟩ (.file ⟨#[]⟩)

/-- One finding for each source, and then a fault for the one that comes first as a text. -/
def work (p : Path) : Delivery String Finding :=
  ⟨[⟨"NoThrow", p.text, ⟨1, 1, none, none⟩, "throw", .error⟩], if "a-b" ∈ p.segments then some "broken" else none⟩

theorem sources_eq :
    Sources.collect fs [⟨"", []⟩] [] = [⟨"/", ["w", "a", "c.kt"]⟩, ⟨"/", ["w", "a-b", "c.kt"]⟩] := by
  have hresolve : fs.resolve ⟨"", []⟩ = .ok ⟨"/", ["w"]⟩ := by cbv
  have hentry : fs.entry? ["w"] =
      some (.directory "w" [.directory "a" [.file "c.kt" ⟨#[]⟩], .directory "a-b" [.file "c.kt" ⟨#[]⟩]]) := by cbv
  have hways : (Entry.waysTo [.directory "a" [.file "c.kt" ⟨#[]⟩], .directory "a-b" [.file "c.kt" ⟨#[]⟩]]).filter
      (fun way => Sources.isSourceName (way.getLast?.getD "")) = [["a", "c.kt"], ["a-b", "c.kt"]] := by decide
  rw [Sources.collect_eq, List.flatMap_singleton, Sources.found_of_directory hresolve hentry, Sources.ofDirectory,
    hways]
  cbv

theorem own (p : Path) (f : Finding) (hf : f ∈ (work p).items) : f.path = p.text := by
  rw [List.mem_singleton.1 hf]

end LateFailure

/-- Every schedule of the two sources gathers one finding and one failure. -/
theorem schedules_of_late_failure :
    let sources : List Path := [⟨"/", ["w", "a", "c.kt"]⟩, ⟨"/", ["w", "a-b", "c.kt"]⟩]
    let sequential := gather (fun p => (LateFailure.work p).complete) sources (rulesOf {}) (.whole 0)
    Sources.collect LateFailure.fs [⟨"", []⟩] [] = sources ∧
      (∀ p ∈ sources, ∀ f ∈ (LateFailure.work p).items, f.path = p.text) ∧
      Pool.AlwaysGathers LateFailure.work sources (rulesOf {}) sequential ∧
      AllOrNothing LateFailure.work sources sequential := by
  intro sources sequential
  have h := every_schedule_gathers_alike LateFailure.fs [⟨"", []⟩] {} (.whole 0) LateFailure.work
    fun p _ f hf => LateFailure.own p f hf
  simp only [LateFailure.sources_eq] at h
  exact ⟨LateFailure.sources_eq, fun p _ f hf => LateFailure.own p f hf, h.1, h.2.2.1⟩

end Strata.Run
