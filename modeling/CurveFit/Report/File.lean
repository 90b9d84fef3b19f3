import CurveFit.Fit.Backend
import CurveFit.Fit.Report
import CurveFit.Json.Decode
import CurveFit.Json.Reader
import CurveFit.Json.Writer
import CurveFit.Model.Library

/-!
# Report files

A report file holds the model, the backend, the report, and the fitted curve on an even grid for
plotting elsewhere.  It is written as an indented JSON record and read back by the same rules as any
record.
-/

namespace CurveFit

/-- A curve on a grid. -/
structure CurveGrid where
  x : List Float
  y : List Float
deriving DecidableEq

/-- What a report file holds. -/
structure ReportFile where
  tool : String
  model : ModelKind
  backend : String
  parameterNames : List String
  report : FitReport Float
  grid : CurveGrid
deriving DecidableEq

/-- `n` evenly spaced points from `low` to `high`, at least two.  A range that is not finite and
ascending is replaced by one of width one. -/
def curvePoints (low high : Float) (n : Nat) : List Float :=
  let n := max n 2
  let (low, high) :=
    if low.isFinite && high.isFinite && decide (low < high) then (low, high) else (low, low + 1.0)
  (List.range n).map fun i => low + (high - low) * Float.ofNat i / Float.ofNat (n - 1)

namespace ReportFile

/-- The file for a report, with the fitted curve over a range.  A number of the curve takes eight
bytes. -/
def new (kind : ModelKind) (model : Model Float) (backend : Backend) (report : FitReport Float)
    (low high : Float) (gridPoints : Nat) : Except Fault ReportFile := do
  checkCapacity gridPoints 8
  let x := curvePoints low high gridPoints
  let y ← model.predict report.parameters x
  pure
    { tool := "lmfit"
      model := kind
      backend := backend.label
      parameterNames := model.parameters.map (·.name)
      report := report
      grid := ⟨x, y⟩ }

/-- Real numbers as a JSON array. -/
def realsOutput (xs : List Float) : Json.Output := .array (xs.map .real)

/-- A pass as a JSON record. -/
def passOutput (r : PassRecord Float) : Json.Output :=
  .object
    [("iteration", .count r.iteration), ("chi2", .real r.chi2), ("trial_chi2", .real r.trialChi2),
     ("lambda", .real r.lambda), ("accepted", .bool r.accepted)]

/-- A report as a JSON record; a trace that was not asked for is left out. -/
def reportOutput (r : FitReport Float) : Json.Output :=
  .object
    ([("parameters", realsOutput r.parameters), ("chi2", .real r.chi2),
      ("iterations", .count r.iterations), ("lambda", .real r.lambda),
      ("termination", .string r.termination.name), ("points", .count r.points)] ++
      (r.trace.map fun t => ("trace", Json.Output.array (t.map passOutput))).toList)

/-- A report file as a JSON record. -/
def toOutput (f : ReportFile) : Json.Output :=
  .object
    [("tool", .string f.tool), ("model", .string f.model.name), ("backend", .string f.backend),
     ("parameter_names", .array (f.parameterNames.map .string)),
     ("report", reportOutput f.report),
     ("grid", .object [("x", realsOutput f.grid.x), ("y", realsOutput f.grid.y)])]

/-- The text of a report file. -/
def toText (f : ReportFile) : String := f.toOutput.pretty 0

/-- The pass a JSON value stands for. -/
def passOfValue? (v : Json.Value) : Option (PassRecord Float) := do
  match ← v.fields? ["iteration", "chi2", "trial_chi2", "lambda", "accepted"] with
  | [iteration, chi2, trialChi2, lambda, accepted] =>
    pure
      { iteration := ← Json.required Json.Value.count? iteration
        chi2 := ← Json.required Json.Value.real? chi2
        trialChi2 := ← Json.required Json.Value.real? trialChi2
        lambda := ← Json.required Json.Value.real? lambda
        accepted := ← Json.required Json.Value.bool? accepted }
  | _ => none

/-- The report a JSON value stands for. -/
def reportOfValue? (v : Json.Value) : Option (FitReport Float) := do
  match ← v.fields?
      ["parameters", "chi2", "iterations", "lambda", "termination", "points", "trace"] with
  | [parameters, chi2, iterations, lambda, termination, points, trace] =>
    pure
      { parameters := ← Json.required (Json.Value.list? Json.Value.real?) parameters
        chi2 := ← Json.required Json.Value.real? chi2
        iterations := ← Json.required Json.Value.count? iterations
        lambda := ← Json.required Json.Value.real? lambda
        termination :=
          ← (← Json.required Json.Value.choice? termination) |> Termination.ofName?
        points := ← Json.required Json.Value.count? points
        trace := ← Json.optional (Json.Value.list? passOfValue?) trace }
  | _ => none

/-- The curve a JSON value stands for. -/
def gridOfValue? (v : Json.Value) : Option CurveGrid := do
  match ← v.fields? ["x", "y"] with
  | [x, y] =>
    pure
      { x := ← Json.required (Json.Value.list? Json.Value.real?) x
        y := ← Json.required (Json.Value.list? Json.Value.real?) y }
  | _ => none

/-- The report file a JSON value stands for. -/
def ofValue? (v : Json.Value) : Option ReportFile := do
  match ← v.fields? ["tool", "model", "backend", "parameter_names", "report", "grid"] with
  | [tool, model, backend, names, report, grid] =>
    pure
      { tool := ← Json.required Json.Value.text? tool
        model := ← (← Json.required Json.Value.choice? model) |> ModelKind.ofName?
        backend := ← Json.required Json.Value.text? backend
        parameterNames := ← Json.required (Json.Value.list? Json.Value.text?) names
        report := ← Json.required reportOfValue? report
        grid := ← Json.required gridOfValue? grid }
  | _ => none

/-- The report file in a text. -/
def ofText (text : String) : Except FitError ReportFile :=
  match (Json.read? text).bind ofValue? with
  | some f => .ok f
  | none => .error (.json "not a report file")

/-- The report file in a file, if it exists. -/
def ofFile (text? : Option String) : Except FitError ReportFile :=
  match text? with
  | some text => ofText text
  | none => .error (.io "no such file")

/-- Equality with the numbers compared as numbers: a NaN differs from itself and the zeros are
equal. -/
def same (a b : ReportFile) : Bool :=
  a.tool == b.tool && a.model == b.model && a.backend == b.backend &&
    a.parameterNames == b.parameterNames && a.report.parameters == b.report.parameters &&
    a.report.chi2 == b.report.chi2 && a.report.iterations == b.report.iterations &&
    a.report.lambda == b.report.lambda && a.report.termination == b.report.termination &&
    a.report.points == b.report.points && sameTrace a.report.trace b.report.trace &&
    a.grid.x == b.grid.x && a.grid.y == b.grid.y
where
  /-- Equality of two passes. -/
  samePass (a b : PassRecord Float) : Bool :=
    a.iteration == b.iteration && a.chi2 == b.chi2 && a.trialChi2 == b.trialChi2 &&
      a.lambda == b.lambda && a.accepted == b.accepted
  /-- Equality of two traces. -/
  sameTrace : Option (List (PassRecord Float)) → Option (List (PassRecord Float)) → Bool
    | none, none => true
    | some a, some b => a.length == b.length && (a.zip b).all fun (p, q) => samePass p q
    | _, _ => false

end ReportFile

end CurveFit
