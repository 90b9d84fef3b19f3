import CurveFit.Fit.Backend
import CurveFit.Fit.Report
import CurveFit.Model.Basic

/-!
# Reports as text

Summaries for the terminal: of one fit, of a batch, of the support gate, and of the passes of a fit.
Every summary ends with a line break.
-/

namespace CurveFit.Summary

open CurveFit.Text CurveFit.Binary64

/-- Lines joined to a text, each with its line break. -/
def ofLines (lines : List String) : String := String.join (lines.map (· ++ "\n"))

/-- The line of one parameter: its name and fitted value, and its true value where that is known. -/
def parameterLine (name : String) (fitted : Float) (truth? : Option Float) : String :=
  let start := padRight 16 name ++ " " ++ padLeft 14 (fixed 6 fitted)
  match truth? with
  | some t => start ++ " " ++ padLeft 14 (fixed 6 t)
  | none => start

/-- The heading over the parameters. -/
def parameterHeading (withTruth : Bool) : String :=
  padRight 16 "name" ++ " " ++ padLeft 14 "fitted" ++
    (if withTruth then " " ++ padLeft 14 "true" else "")

/-- The summary of one fit; the true parameters, where known, stand beside the fitted ones. -/
def ofFit (title : String) (model : Model Float) (backend : Backend) (report : FitReport Float)
    (truth? : Option (List Float)) : String :=
  let rows := (model.parameters.zip report.parameters).mapIdx fun i (p, v) =>
    parameterLine p.name v (truth?.bind (·[i]?))
  ofLines
    ([s!"=== lmfit: {title} ===",
      s!"Backend: {backend.label}",
      s!"Points: {report.points}",
      s!"Termination: {report.termination.label} after {report.iterations} iterations (lambda " ++
        scientific 3 report.lambda ++ ")",
      "chi2: " ++ scientific 6 report.chi2 ++ "  rmse: " ++ scientific 6 report.rmse,
      "",
      "Parameters:",
      parameterHeading truth?.isSome] ++ rows)

/-- The relative deviation of a value from the truth, which counts as at least the distance from one
to the next number. -/
def relativeError (value truth : Float) : Float := (value - truth).abs / greatest truth.abs epsilon

/-- The largest of some numbers, NaN not counting beside another; none of none. -/
def worst? : List Float → Option Float
  | [] => none
  | x :: rest => some (rest.foldl greatest x)

/-- The line of one series of a batch. -/
def seriesLine (i : Nat) (report : FitReport Float) : String :=
  let params := ", ".intercalate (report.parameters.map (fixed 5))
  padLeft 5 (toString i) ++ "  " ++ padRight 15 report.termination.label ++ " iters " ++
    padLeft 4 (toString report.iterations) ++ "  chi2 " ++ scientific 4 report.chi2 ++
    "  params [" ++ params ++ "]"

/-- The summary of a batch: how its fits ended, the worst of them, and a line for each. -/
def ofBatch (backend : Backend) (reports : List (FitReport Float)) (truths : List (List Float)) :
    String :=
  let converged := (reports.filter (·.termination == .converged)).length
  let diverged := (reports.filter (·.termination == .diverged)).length
  let limited := reports.length - converged - diverged
  let errors := ((reports.zip truths).map fun (r, t) =>
    List.zipWith relativeError r.parameters t).flatten
  ofLines
    ([s!"=== lmfit: batch of {reports.length} series ===",
      s!"Backend: {backend.label}",
      s!"Converged: {converged}  Diverged: {diverged}  Iteration limit: {limited}"] ++
      ((worst? (reports.map (·.rmse))).map fun x => "Worst rmse: " ++ scientific 6 x).toList ++
      ((worst? errors).map fun x =>
        "Worst relative parameter error: " ++ scientific 3 x).toList ++
      [""] ++ reports.mapIdx seriesLine)

/-- The summary of the support gate for a dataset: its answer for each accelerated capacity, and the
backend selected. -/
def ofSupport (level : SimdLevel) (points : Nat) (settings : FitSettings)
    (gate : List (Nat × Bool)) (chosen : Backend) : String :=
  ofLines
    ([s!"SIMD level: {level.name}",
      s!"SIMD enabled: {settings.simdEnabled}",
      s!"Truncate ratio: {plainText settings.truncateRatio}",
      s!"Dataset size: {points}"] ++
      gate.map (fun (capacity, ok) =>
        "  avx2/" ++ padRight 5 (toString capacity) ++ " " ++
          (if ok then "supported" else "unsupported")) ++
      [s!"Selected backend: {chosen.label}"])

/-- The line of one pass. -/
def passLine (r : PassRecord Float) : String :=
  padLeft 5 (toString r.iteration) ++ "  chi2 " ++ scientific 6 r.chi2 ++ "  trial " ++
    scientific 6 r.trialChi2 ++ "  lambda " ++ scientific 1 r.lambda ++
    (if r.accepted then "  accepted" else "  rejected")

/-- The passes of a fit. -/
def ofTrace (trace : List (PassRecord Float)) : String := ofLines ("Trace:" :: trace.map passLine)

end CurveFit.Summary
