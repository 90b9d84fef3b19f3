import CurveFit.Fit.Solver

/-!
# Fitting a dataset

One dataset on a given backend, or on the one that the gate selects.
-/

namespace CurveFit

namespace Solver

/-- A solver in binary64; settings with an issue are refused first. -/
def new (u : VectorUnit) (model : Model Float) (x y initial : List Float) (settings : FitSettings) :
    Except FitError (Solver Float) := do
  settings.validate
  start u model x y initial settings

end Solver

/-- The report of a fit on a backend. -/
def fitWithBackend (b : Backend) (model : Model Float) (x y initial : List Float)
    (settings : FitSettings) : Except Failure (FitReport Float) := do
  let solver ← orRefused (Solver.new b.unit model x y initial settings)
  let (report, _) ← orFaulted solver.fit
  pure report

/-- The report of a fit on the backend selected for the dataset, with that backend. -/
def fitDataset (model : Model Float) (x y initial : List Float) (settings : FitSettings) :
    Except Failure (Backend × FitReport Float) := do
  let b := selectBackend x.length settings
  let report ← fitWithBackend b model x y initial settings
  pure (b, report)

end CurveFit
