import CurveFit.Cli.Run
import CurveFit.Proofs.Fit.Selection
import CurveFit.Proofs.Fit.Trace
import CurveFit.Proofs.Report.Files

/-!
# Exported reports

A fit may write its report to a file.  What can be read of that file is settled by the numbers in it:
`run_fit_export` says that it is readable exactly if all its numbers are finite and its counts
have 64 bits.  A trace of a fit that has diverged always holds a number that is not finite, so the
file that lists it is never readable.
-/

namespace CurveFit

open Json Text

/-! ## The numbers of a report -/

section Report

variable {b : Backend} {model : Model Float} {x y initial : List Float} {settings : FitSettings}
  {report : FitReport Float}

/-- The visits behind the report of a fit. -/
theorem fitWithBackend_trail (h : fitWithBackend b model x y initial settings = .ok report) :
    ∃ s t visits, Trail s 0 settings.maxIterations visits t report.termination ∧
      s.settings = settings ∧ report.iterations = visits.length ∧
      report.trace = if settings.collectTrace then some (Visit.records visits) else none := by
  obtain ⟨s, hnew, hrun⟩ := bind_eq_ok_iff.mp h
  obtain ⟨⟨report, t⟩, hfit, hpure⟩ := bind_eq_ok_iff.mp hrun
  cases hpure
  obtain ⟨hlen, hcount, rfl⟩ := Solver.new_ok (mapError_eq_ok_iff.mp hnew)
  obtain ⟨visits, s', ending, chi2, htrail, -, rfl, -, -⟩ :=
    Solver.fit_trail (Solver.ready_fresh hlen hcount) (fun _ => rfl) (mapError_eq_ok_iff.mp hfit)
  exact ⟨_, s', visits, htrail, rfl, rfl, rfl⟩

/-- A trace holds a trial whose sum of squares is not finite exactly if the fit diverged. -/
theorem fitWithBackend_diverged_iff (h : fitWithBackend b model x y initial settings = .ok report)
    {trace : List (PassRecord Float)} (htrace : report.trace = some trace) :
    report.termination = .diverged ↔ ∃ r ∈ trace, ¬ r.trialChi2.isFinite := by
  obtain ⟨s, t, visits, htrail, hsettings, -, hrecords⟩ := fitWithBackend_trail h
  obtain ⟨front, v, rfl, -, hfront, -, -, hlast⟩ := htrail.ends
  have hlast := Attempt.isFinite_iff hlast
  obtain rfl : trace = Visit.records (front ++ [v]) := by
    rw [htrace] at hrecords
    split_ifs at hrecords
    exact Option.some.inj hrecords
  constructor
  · intro hdiverged
    refine ⟨v.solver.entry front.length v.found, ?_, fun hfin => hlast.mp hfin hdiverged⟩
    rw [Visit.records_concat]
    exact List.mem_append_right _ List.mem_cons_self
  · rintro ⟨r, hr, hinfinite⟩
    by_contra hrunning
    obtain ⟨i, u, hu, rfl⟩ := Visit.mem_records hr
    rcases List.mem_append.mp hu with hu | hu
    · exact hinfinite (Attempt.verdict_eq_running.mp (hfront u hu)).1
    · obtain rfl := List.eq_of_mem_singleton hu
      exact hinfinite (hlast.mpr hrunning)

/-- The passes are numbered below one more than the budget, and the points fit the backend. -/
theorem fitWithBackend_counts (h : fitWithBackend b model x y initial settings = .ok report) :
    ∀ n ∈ report.counts, n ≤ max (settings.maxIterations + 1) b.capacity := by
  obtain ⟨hpoints, -⟩ := fitWithBackend_points h
  obtain ⟨s, t, visits, htrail, -, hiterations, hrecords⟩ := fitWithBackend_trail h
  obtain ⟨front, v, rfl, hbudget, -⟩ := htrail.ends
  have hlength : (front ++ [v]).length ≤ settings.maxIterations + 1 := by
    rw [List.length_append]
    exact Nat.succ_le_succ hbudget
  rw [report.forall_counts, hiterations, hpoints]
  refine ⟨⟨le_max_of_le_left hlength, le_max_of_le_right (min_le_right _ _)⟩, ?_⟩
  intro r hr
  rw [hrecords] at hr
  split_ifs at hr
  · obtain ⟨i, hi, rfl⟩ := List.mem_mapIdx.mp hr
    exact le_max_of_le_left (hi.le.trans hlength)
  · cases hr

end Report

/-! ## Runs -/

namespace Cli

/-- What a run of the fit command fits, and how. -/
structure FitTask where
  settings : FitSettings
  data : SampleData
  model : Model Float
  backend : Backend

/-- What the options ask for. -/
def FitArgs.task (args : FitArgs) (w : World) : Except Failure FitTask := do
  let settings ← w.settings args.solver
  let settings := { settings with collectTrace := args.trace }
  let kind := args.sample.model
  let truthBits ← orRefused args.sample.truthBits
  let truth := truthBits.map (·.value)
  let source ← orRefused (kind.model truth)
  let data ← generate source truth args.sample.spec
  let model ← orRefused <| match args.sample.initial with
    | some values => kind.model values
    | none => kind.guess data.x (kind.observe truthBits data.x data.y)
  let backend ← orRefused (resolveBackend args.backend data.x.length settings)
  pure ⟨settings, data, model, backend⟩

/-- The report of a task. -/
def FitTask.report (t : FitTask) : Except Failure (FitReport Float) :=
  fitWithBackend t.backend t.model t.data.x t.data.y t.model.initialValues t.settings

/-- The report file of a task. -/
def FitTask.file (t : FitTask) (kind : ModelKind) : Except Failure ReportFile := do
  let report ← t.report
  orFaulted <|
    ReportFile.new kind t.model t.backend report t.data.stats.xMin t.data.stats.xMax exportGridPoints

/-- Two runs that start with the same step come to the same if they do after it. -/
theorem map_bind_congr {ε β γ γ' δ ζ : Type} {x : Except ε β} {f : β → Except ε γ}
    {g : β → Except ε δ} {k : δ → Except ε γ'} {v : γ → ζ} {v' : γ' → ζ}
    (h : ∀ b, (f b).map v = (g b >>= k).map v') : (x >>= f).map v = ((x >>= g) >>= k).map v' := by
  cases x with
  | error e => rfl
  | ok b => exact h b

/-- **A run** of the fit command with an export writes the report file of its task. -/
theorem runFit_export {w : World} {args : FitArgs} {path : String}
    (hexport : args.export? = some path) :
    (runFit w args).map (·.write?) =
      (args.task w >>= fun t => t.file args.sample.model).map fun file => some (path, file.toText) := by
  unfold runFit FitArgs.task FitTask.file FitTask.report
  rw [hexport]
  refine map_bind_congr fun settings => map_bind_congr fun truth => map_bind_congr fun source =>
    map_bind_congr fun data => map_bind_congr fun model => map_bind_congr fun backend => ?_
  show (fitWithBackend _ _ _ _ _ _ >>= _).map _ = (fitWithBackend _ _ _ _ _ _ >>= _).map _
  cases fitWithBackend backend model data.x data.y model.initialValues
      { settings with collectTrace := args.trace } with
  | error e => rfl
  | ok report =>
    show (orFaulted _ >>= _).map _ = (orFaulted _).map _
    cases orFaulted (ReportFile.new args.sample.model model backend report data.stats.xMin
      data.stats.xMax exportGridPoints) <;> rfl

/-- A task that comes to a file makes the run succeed. -/
theorem runFit_of_file {w : World} {args : FitArgs} {path : String} {file : ReportFile}
    (hexport : args.export? = some path)
    (h : (args.task w >>= fun t => t.file args.sample.model) = .ok file) :
    ∃ outcome, runFit w args = .ok outcome ∧ outcome.write? = some (path, file.toText) := by
  have hwritten := runFit_export (w := w) hexport
  rw [h] at hwritten
  exact map_eq_ok_iff.mp hwritten

theorem FitArgs.task_trace {w : World} {args : FitArgs} {t : FitTask} (h : args.task w = .ok t) :
    t.settings.collectTrace = args.trace := by
  obtain ⟨settings, -, h⟩ := bind_eq_ok_iff.mp h
  obtain ⟨truth, -, h⟩ := bind_eq_ok_iff.mp h
  obtain ⟨source, -, h⟩ := bind_eq_ok_iff.mp h
  obtain ⟨data, -, h⟩ := bind_eq_ok_iff.mp h
  obtain ⟨model, -, h⟩ := bind_eq_ok_iff.mp h
  obtain ⟨backend, -, h⟩ := bind_eq_ok_iff.mp h
  cases h
  rfl

/-- A report file holds the report. -/
theorem FitTask.file_report {t : FitTask} {kind : ModelKind} {file : ReportFile}
    (h : t.file kind = .ok file) : t.report = .ok file.report := by
  obtain ⟨report, hreport, hnew⟩ := bind_eq_ok_iff.mp h
  obtain ⟨-, -, hnew⟩ := bind_eq_ok_iff.mp (mapError_eq_ok_iff.mp hnew)
  obtain ⟨y, -, hnew⟩ := bind_eq_ok_iff.mp hnew
  cases hnew
  exact hreport

theorem capacity_le_maxCount (b : Backend) : b.capacity ≤ maxCount := by
  cases b <;> decide

/-- **An exported report** is read back exactly if every number in its file is finite and every count
has 64 bits, which fewer than `2 ^ 64 - 1` passes ensure.  The trace of a fit that has diverged, and of
no other, holds a trial without a finite sum of squares; so no file with such a trace is read back. -/
theorem run_fit_export {w : World} {args : FitArgs} {path : String} {outcome : Outcome}
    (hrun : (Command.fit args).run w = .ok outcome) (hexport : args.export? = some path) :
    ∃ task file, args.task w = .ok task ∧ task.file args.sample.model = .ok file ∧
      task.report = .ok file.report ∧ outcome.write? = some (path, file.toText) ∧
      ((∃ back, ReportFile.ofText file.toText = .ok back) ↔
        (∀ x ∈ file.reals, x.isFinite) ∧ ∀ n ∈ file.report.counts, n ≤ maxCount) ∧
      (task.settings.maxIterations < maxCount → ∀ n ∈ file.report.counts, n ≤ maxCount) ∧
      (file.report.trace.isSome = args.trace) ∧
      ∀ trace, file.report.trace = some trace →
        (file.report.termination = .diverged ↔ ∃ r ∈ trace, ¬ r.trialChi2.isFinite) ∧
        (file.report.termination = .diverged → ∀ back, ReportFile.ofText file.toText ≠ .ok back) := by
  have hwritten := runFit_export (w := w) hexport
  rw [show runFit w args = .ok outcome from hrun] at hwritten
  obtain ⟨file, hcomes, hwrite⟩ := map_eq_ok_iff.mp hwritten.symm
  obtain ⟨task, htask, hfile⟩ := bind_eq_ok_iff.mp hcomes
  have hreport := FitTask.file_report hfile
  have hread : ∀ back, ReportFile.ofText file.toText = .ok back →
      (∀ x ∈ file.reals, x.isFinite) ∧ ∀ n ∈ file.report.counts, n ≤ maxCount := by
    intro back hback
    obtain ⟨hholdable, -⟩ := ReportFile.ofText_eq_ok_iff.mp hback
    exact ⟨hholdable.reals, hholdable.counts⟩
  refine ⟨task, file, htask, hfile, hreport, hwrite.symm, ⟨fun ⟨back, hback⟩ => hread back hback,
    fun ⟨hreals, hcounts⟩ => ⟨_, ReportFile.ofText_eq_ok_iff.mpr ⟨⟨hreals, hcounts⟩, rfl⟩⟩⟩, ?counts,
    ?traced, fun trace htrace => ⟨fitWithBackend_diverged_iff hreport htrace, ?diverged⟩⟩
  case counts =>
    intro hbudget n hn
    exact (fitWithBackend_counts hreport n hn).trans
      (max_le hbudget (capacity_le_maxCount task.backend))
  case traced =>
    obtain ⟨s, t, visits, -, -, -, hrecords⟩ := fitWithBackend_trail hreport
    rw [hrecords, FitArgs.task_trace htask]
    cases args.trace <;> rfl
  case diverged =>
    intro hdiverged back hback
    obtain ⟨r, hr, hinfinite⟩ := (fitWithBackend_diverged_iff hreport htrace).mp hdiverged
    obtain ⟨hreals, -⟩ := List.forall_mem_append.mp (hread back hback).1
    obtain ⟨-, hrecords⟩ := file.report.forall_reals.mp hreals
    rw [htrace] at hrecords
    exact hinfinite (r.forall_reals.mp (hrecords r hr)).2.1

/-- A machine without files and variables. -/
def World.bare : World := ⟨fun _ => none, fun _ => none⟩

/-- The options of a fit to five points of a line through the origin, started from zero, with a trace
and an export. -/
def FitArgs.ofSlope (slope : Float) : FitArgs :=
  { sample := ⟨.linear, 5, 0, 4, 0, 42, some [.computed slope, .computed 0], some [0, 0]⟩
    solver := .none
    backend := .auto
    trace := true
    export? := some "out.json" }

theorem run_fit_export_slope :
    ∃ (outcome : Outcome) (file : ReportFile),
      (Command.fit (.ofSlope 1e-20)).run .bare = .ok outcome ∧
      outcome.write? = some ("out.json", file.toText) ∧
      ((∃ back, ReportFile.ofText file.toText = .ok back) ↔ ∀ x ∈ file.reals, x.isFinite) ∧
      ∃ trace, file.report.trace = some trace ∧ ∀ r ∈ trace, r.trialChi2.isFinite := by
  have hbudgeted : ((FitArgs.ofSlope 1e-20).task .bare).toOption.any
      (fun t => decide (t.settings.maxIterations < maxCount)) := by decide +kernel
  have hended : ((FitArgs.ofSlope 1e-20).task .bare >>= fun t => t.file .linear).toOption.any
      (fun f => decide (f.report.termination = .converged)) := by decide +kernel
  obtain ⟨task, htask, hbudget⟩ := exists_of_any hbudgeted
  obtain ⟨file, hcomes, hconverged⟩ := exists_of_any hended
  obtain ⟨outcome, hrun, -⟩ := runFit_of_file rfl hcomes
  have hrun : (Command.fit (.ofSlope 1e-20)).run .bare = .ok outcome := hrun
  obtain ⟨task', file', htask', hfile, -, hwrite, hread, hcounts, htraced, htrace⟩ :=
    run_fit_export hrun rfl
  obtain rfl : task' = task := Except.ok.inj (htask'.symm.trans htask)
  obtain rfl : file' = file := by
    rw [htask] at hcomes
    exact Except.ok.inj (hfile.symm.trans hcomes)
  obtain ⟨trace, hsome⟩ := Option.isSome_iff_exists.mp htraced
  obtain ⟨hdiverged, -⟩ := htrace trace hsome
  refine ⟨outcome, file', hrun, hwrite, hread.trans ⟨And.left, fun hreals => ⟨hreals,
    hcounts (of_decide_eq_true hbudget)⟩⟩, trace, hsome, fun r hr => ?_⟩
  by_contra hinfinite
  have hconverged := of_decide_eq_true hconverged
  rw [hdiverged.mpr ⟨r, hr, hinfinite⟩] at hconverged
  cases hconverged

/-- **Squares that overflow.**  A line with the slope `1e160` ends the fit at once, and its sums of
squares are written as null. -/
theorem run_fit_export_overflow :
    ∃ outcome text, (Command.fit (.ofSlope 1e160)).run .bare = .ok outcome ∧
      outcome.write? = some ("out.json", text) ∧ ∀ back, ReportFile.ofText text ≠ .ok back := by
  have hevaluated : ((FitArgs.ofSlope 1e160).task .bare >>= fun t => t.file .linear).toOption.any
      (fun f => !f.report.chi2.isFinite) := by decide +kernel
  obtain ⟨file, hcomes, hinfinite⟩ := exists_of_any hevaluated
  obtain ⟨outcome, hrun, hwrite⟩ := runFit_of_file rfl hcomes
  refine ⟨outcome, _, hrun, hwrite, fun back hback => ?_⟩
  obtain ⟨hholdable, -⟩ := ReportFile.ofText_eq_ok_iff.mp hback
  obtain ⟨hreals, -⟩ := List.forall_mem_append.mp hholdable.reals
  have hchi2 := (file.report.forall_reals.mp hreals).1.2.1
  rw [hchi2] at hinfinite
  cases hinfinite

end Cli

end CurveFit
