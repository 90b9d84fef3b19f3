import CurveFit.Fit.Backend
import CurveFit.Fit.NormalEquations
import CurveFit.Fit.Report
import CurveFit.Model.Basic

/-!
# The damped least-squares solver

A solver holds one model over one list of points and improves the parameters pass by pass.  A pass
evaluates the sum of squares at the parameters, solves the damped normal equations for an increment,
and evaluates the sum of squares at the trial.  A better trial is accepted and the damping divided
by ten; any other is rejected and the damping multiplied by ten; then every parameter is moved onto
its constraint.  A trial without a finite sum of squares ends the fit and changes nothing.

The buffers a pass computes with are kept in a workspace and written over by the next pass, so a
solver can be loaded with other observations and used again.
-/

namespace CurveFit

/-- A model, the points it is fitted to, and how far the fit has come. -/
structure Solver (α : Type) where
  unit : VectorUnit
  model : Model α
  settings : Settings α
  /-- The number of points given, dropped ones included. -/
  sourceLength : Nat
  x : List α
  y : LaneVector α
  workspace : Workspace α
  parameters : List α
  lambda : α
  /-- The records of the fit that is running. -/
  trace : Array (PassRecord α)

/-- What a pass finds before it decides. -/
structure Attempt (α : Type) where
  /-- The sum of squares at the parameters. -/
  chi2 : α
  trial : List α
  /-- The sum of squares at the trial. -/
  trialChi2 : α

/-- Whether a trial is better than what it was tried against. -/
def Attempt.isBetter {α : Type} [LT α] [DecidableLT α] (a : Attempt α) : Bool :=
  decide (a.trialChi2 < a.chi2)

/-- How a pass ended. -/
inductive Verdict where
  | running
  | stopped (t : Termination)
deriving DecidableEq, Repr

namespace Solver

variable {α : Type}

/-- The number of points fitted. -/
def points (s : Solver α) : Nat := s.x.length

/-- Adds a record where a trace is wanted. -/
def record (s : Solver α) (r : PassRecord α) : Solver α :=
  if s.settings.collectTrace then { s with trace := s.trace.push r } else s

section Start

variable [OfNat α 0] [OfNat α 1] [Add α] [Mul α] [LE α] [DecidableLE α] [FitScalar α]

/-- A solver over the points `(x, y)`, starting from `initial`.  A dataset that exceeds the capacity
by no more than the permitted fraction is cut down to it. -/
def start (u : VectorUnit) (model : Model α) (x y initial : List α) (settings : Settings α) :
    Except FitError (Solver α) := do
  if x.length ≠ y.length then throw (.lengthMismatch x.length y.length)
  if initial.length ≠ model.parameterCount then
    throw (.parameterCount model.parameterCount initial.length)
  if x.isEmpty then throw .emptyDataset
  if !withinCapacity x.length u.capacity settings.truncateRatio then
    throw (.capacityExceeded x.length u.capacity)
  let points := min x.length u.capacity
  let blank ← u.zeros points
  let observed ← u.ofList (y.take points)
  pure
    { unit := u
      model := model
      settings := settings
      sourceLength := x.length
      x := x.take points
      y := observed
      workspace := .setUp blank model.parameterCount initial
      parameters := initial
      lambda := settings.initialLambda
      trace := #[] }

end Start

/-- The solver with other observations over the same points, starting anew from `initial`.  The
observations have to be as many as were given at the start. -/
def reload (s : Solver α) (y initial : List α) : Except FitError (Solver α) := do
  if y.length ≠ s.sourceLength then throw (.lengthMismatch s.sourceLength y.length)
  if initial.length ≠ s.parameters.length then
    throw (.parameterCount s.parameters.length initial.length)
  pure
    { s with
      y := s.y.write (y.take s.points)
      workspace := { s.workspace with trial := initial }
      parameters := initial
      lambda := s.settings.initialLambda
      trace := #[] }

section Evaluate

variable [OfNat α 0] [Add α] [Sub α] [Mul α] [Div α] [Neg α]

/-- The sum of squares at the given parameter values.  The model goes into the estimate, what it
misses into the residual, and the squares into the scratch vector. -/
def chiSquared (s : Solver α) (values : List α) (w : Workspace α) :
    Except Fault (α × Workspace α) := do
  let f ← s.model.curve values
  let estimate := w.estimate.write (s.x.map f)
  let residual ← s.unit.kernel.apply .sub s.y estimate w.residual
  let squares ← s.unit.kernel.apply .mul residual residual w.scratch
  pure (s.unit.kernel.total squares, { w with estimate, residual, scratch := squares })

/-- The derivatives at the current parameters, one vector for each parameter. -/
def fillColumns (s : Solver α) (w : Workspace α) : Except Fault (Workspace α) := do
  let d ← s.model.slopes s.parameters
  let rows ← derivativeRows d w.row s.x
  let columns := w.columns.mapIdx fun p v => v.write (rows.map fun row => row.getD p 0)
  pure { w with columns, row := rows.getLastD w.row }

end Evaluate

section Damping

variable [OfNat α 10] [Mul α] [Div α] [LT α] [DecidableLT α] [FitScalar α]

/-- The damping after an accepted pass: a tenth, but not below the floor. -/
def relax (lambda : α) : α :=
  let tenth := lambda / 10
  if FitScalar.lambdaFloor < tenth then tenth else FitScalar.lambdaFloor

/-- The damping after a rejected pass: tenfold. -/
def tighten (lambda : α) : α := lambda * 10

end Damping

section Fit

variable [OfNat α 0] [OfNat α 1] [OfNat α 10] [Add α] [Sub α] [Mul α] [Div α] [Neg α] [BEq α]
  [LE α] [DecidableLE α] [LT α] [DecidableLT α] [FitScalar α]

/-- The workspace with the parameters to try in it: the current ones moved by the increment that
solves the damped normal equations.  The residual has to be in the workspace. -/
def propose (s : Solver α) (w : Workspace α) : Except Fault (Workspace α) := do
  let w ← s.fillColumns w
  let w ← w.assemble s.unit.kernel s.lambda
  let (w, _) ← w.solve
  pure { w with trial := overwrite w.trial (List.zipWith (· + ·) s.parameters w.gradient) }

/-- What a pass finds, and the workspace as it leaves it: the sum of squares at the parameters, the
trial, and the sum of squares there. -/
def attempt (s : Solver α) : Except Fault (Attempt α × Workspace α) := do
  let (chi2, w) ← s.chiSquared s.parameters s.workspace
  let w ← s.propose w
  let trial := w.trial
  let (trialChi2, w) ← s.chiSquared trial w
  pure (⟨chi2, trial, trialChi2⟩, w)

/-- The solver after a trial with a finite sum of squares has been accepted or rejected. -/
def settle (s : Solver α) (accepted : Bool) (trial : List α) : Solver α :=
  { s with
    parameters := s.model.project (if accepted then trial else s.parameters)
    lambda := if accepted then relax s.lambda else tighten s.lambda }

/-- The solver after a pass has found what it found, and whether the fit goes on. -/
def conclude (s : Solver α) (iteration : Nat) (a : Attempt α) : Solver α × Verdict :=
  if FitScalar.isFinite a.trialChi2 then
    let s := s.settle a.isBetter a.trial
    let s := s.record ⟨iteration, a.chi2, a.trialChi2, s.lambda, a.isBetter⟩
    if FitScalar.abs (a.chi2 - a.trialChi2) < s.settings.minDeltaChi2 then
      (s, .stopped .converged)
    else (s, .running)
  else (s.record ⟨iteration, a.chi2, a.trialChi2, s.lambda, false⟩, .stopped .diverged)

/-- One pass. -/
def pass (s : Solver α) (iteration : Nat) : Except Fault (Solver α × Verdict) := do
  let (a, workspace) ← s.attempt
  pure ({ s with workspace }.conclude iteration a)

/-- Passes until one stops the fit or `budget` passes have followed the first: the solver, the
number of passes, and why it stopped. -/
def passes (s : Solver α) (iteration : Nat) (budget : Nat) :
    Except Fault (Solver α × Nat × Termination) := do
  let (s, verdict) ← s.pass iteration
  match verdict with
  | .stopped t => pure (s, iteration + 1, t)
  | .running =>
    match budget with
    | 0 => pure (s, iteration + 1, .iterationLimit)
    | budget + 1 => s.passes (iteration + 1) budget

/-- Improves the current parameters: the report, and the solver as the fit leaves it.  A trace that
was asked for goes into the report. -/
def fit (s : Solver α) : Except Fault (FitReport α × Solver α) := do
  let (s, iterations, termination) ← s.passes 0 s.settings.maxIterations
  let (chi2, w) ← s.chiSquared s.parameters s.workspace
  let report : FitReport α :=
    { parameters := s.parameters
      chi2 := chi2
      iterations := iterations
      lambda := s.lambda
      termination := termination
      points := s.points
      trace := if s.settings.collectTrace then some s.trace.toList else none }
  pure (report, { s with workspace := w, trace := if s.settings.collectTrace then #[] else s.trace })

end Fit

end Solver

end CurveFit
