import CurveFit.Error

/-!
# Settings of a fit

How long a fit runs, how it is damped, and which vectors it may use.
-/

namespace CurveFit

/-- The settings of a fit. -/
structure Settings (α : Type) where
  /-- A fit stops once the number of passes exceeds this. -/
  maxIterations : Nat
  /-- A fit stops once a trial changes the sum of squares by less than this. -/
  minDeltaChi2 : α
  /-- The damping a fit starts with. -/
  initialLambda : α
  /-- Whether accelerated vectors may be used. -/
  simdEnabled : Bool
  /-- The fraction by which a dataset may exceed a vector; the surplus is dropped. -/
  truncateRatio : α
  /-- Whether reports list every pass. -/
  collectTrace : Bool
deriving DecidableEq

/-- Settings in binary64. -/
abbrev FitSettings := Settings Float

namespace FitSettings

/-- The settings that hold when nothing else is said. -/
def default : FitSettings :=
  { maxIterations := 100
    minDeltaChi2 := 1e-30
    initialLambda := 1e-3
    simdEnabled := true
    truncateRatio := 0.0
    collectTrace := false }

/-- The first thing wrong with the settings, if any: the threshold and the ratio have to be finite
and not negative, the damping finite and positive. -/
def issue? (s : FitSettings) : Option SettingsIssue :=
  if !(s.minDeltaChi2.isFinite && decide (0.0 ≤ s.minDeltaChi2)) then
    some (.minDeltaChi2 s.minDeltaChi2)
  else if !(s.initialLambda.isFinite && decide (0.0 < s.initialLambda)) then
    some (.initialLambda s.initialLambda)
  else if !(s.truncateRatio.isFinite && decide (0.0 ≤ s.truncateRatio)) then
    some (.truncateRatio s.truncateRatio)
  else none

/-- Refuses settings with an issue. -/
def validate (s : FitSettings) : Except FitError Unit :=
  match s.issue? with
  | some issue => .error (.invalidSettings issue)
  | none => .ok ()

end FitSettings

end CurveFit
