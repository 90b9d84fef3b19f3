/-!
# Reports

What a fit returns: where it ended, why it stopped, and on demand a record of every pass.
-/

namespace CurveFit

/-- Why a fit stopped. -/
inductive Termination where
  /-- A trial hardly changed the sum of squares. -/
  | converged
  /-- The passes ran out. -/
  | iterationLimit
  /-- A trial had no finite sum of squares. -/
  | diverged
deriving DecidableEq, Repr

namespace Termination

/-- The name of a termination in files. -/
def name : Termination → String
  | .converged => "converged"
  | .iterationLimit => "iteration-limit"
  | .diverged => "diverged"

/-- The wording of a termination in summaries. -/
def label : Termination → String
  | .converged => "converged"
  | .iterationLimit => "iteration limit"
  | .diverged => "diverged"

/-- Every termination. -/
def all : List Termination := [.converged, .iterationLimit, .diverged]

/-- The termination of a name. -/
def ofName? (s : String) : Option Termination := all.find? (·.name == s)

end Termination

/-- One pass of a fit. -/
structure PassRecord (α : Type) where
  iteration : Nat
  /-- The sum of squares the pass started from. -/
  chi2 : α
  /-- The sum of squares at the trial. -/
  trialChi2 : α
  /-- The damping after the pass. -/
  lambda : α
  accepted : Bool
deriving DecidableEq

/-- The outcome of a fit. -/
structure FitReport (α : Type) where
  parameters : List α
  /-- The sum of squares at the parameters. -/
  chi2 : α
  iterations : Nat
  lambda : α
  termination : Termination
  /-- The number of points fitted. -/
  points : Nat
  /-- A record of every pass, where one was asked for. -/
  trace : Option (List (PassRecord α))
deriving DecidableEq

/-- The root of the mean square of the residuals; not a number when there are no points. -/
def FitReport.rmse (r : FitReport Float) : Float :=
  if r.points = 0 then 0.0 / 0.0 else (r.chi2 / Float.ofNat r.points).sqrt

end CurveFit
