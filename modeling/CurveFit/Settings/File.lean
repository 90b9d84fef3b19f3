import CurveFit.Json.Decode
import CurveFit.Json.Reader
import CurveFit.Json.Writer
import CurveFit.Settings.Basic

/-!
# Settings files

Settings as a JSON record.  Fields that a file leaves out keep their defaults, and settings with an
issue are refused after reading.
-/

namespace CurveFit.FitSettings

/-- The field names in order. -/
def fieldNames : List String :=
  ["max_iterations", "min_delta_chi2", "initial_lambda", "simd_enabled", "truncate_ratio",
   "collect_trace"]

/-- The settings a JSON value stands for. -/
def ofValue? (v : Json.Value) : Option FitSettings := do
  match ← v.fields? fieldNames with
  | [maxIterations, minDeltaChi2, initialLambda, simdEnabled, truncateRatio, collectTrace] =>
    let d := FitSettings.default
    pure
      { maxIterations := ← Json.withDefault d.maxIterations Json.Value.count? maxIterations
        minDeltaChi2 := ← Json.withDefault d.minDeltaChi2 Json.Value.real? minDeltaChi2
        initialLambda := ← Json.withDefault d.initialLambda Json.Value.real? initialLambda
        simdEnabled := ← Json.withDefault d.simdEnabled Json.Value.bool? simdEnabled
        truncateRatio := ← Json.withDefault d.truncateRatio Json.Value.real? truncateRatio
        collectTrace := ← Json.withDefault d.collectTrace Json.Value.bool? collectTrace }
  | _ => none

/-- The settings in a file's text. -/
def ofText (text : String) : Except FitError FitSettings :=
  match (Json.read? text).bind ofValue? with
  | some s => do
    s.validate
    pure s
  | none => .error (.json "not a settings record")

/-- The settings in a file, if it exists. -/
def ofFile (text? : Option String) : Except FitError FitSettings :=
  match text? with
  | some text => ofText text
  | none => .error (.io "no such file")

/-- The settings as a JSON record. -/
def toOutput (s : FitSettings) : Json.Output :=
  .object
    [("max_iterations", .count s.maxIterations), ("min_delta_chi2", .real s.minDeltaChi2),
     ("initial_lambda", .real s.initialLambda), ("simd_enabled", .bool s.simdEnabled),
     ("truncate_ratio", .real s.truncateRatio), ("collect_trace", .bool s.collectTrace)]

/-- The settings as JSON on one line. -/
def toJson (s : FitSettings) : String := s.toOutput.compact

end CurveFit.FitSettings
