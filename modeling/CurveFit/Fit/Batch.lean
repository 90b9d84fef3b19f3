import CurveFit.Fit.Dataset

/-!
# Fitting many series

Many series of observations over the same points.  The series are distributed over workers; a worker
sets up a solver for its first series and loads the others into it.  Reports come back in the order
of the series, whoever made them.
-/

namespace CurveFit

/-- What all series of a batch share. -/
structure BatchTask where
  unit : VectorUnit
  model : Model Float
  x : List Float
  initial : List Float
  settings : FitSettings

/-- A worker takes a series; both are numbered. -/
structure Turn where
  worker : Nat
  series : Nat
deriving DecidableEq, Repr

/-- A batch under way. -/
structure BatchState where
  /-- The solvers that there are, by worker. -/
  solvers : List (Nat × Solver Float)
  /-- The reports that there are, by series. -/
  reports : Array (Option (FitReport Float))

namespace BatchTask

/-- The report on one series, by a solver that may have fitted others before. -/
def fitNext (task : BatchTask) (slot : Option (Solver Float)) (y : List Float) :
    Except Failure (FitReport Float × Solver Float) := do
  let solver ← orRefused <| match slot with
    | some solver => solver.reload y task.initial
    | none => Solver.new task.unit task.model task.x y task.initial task.settings
  orFaulted solver.fit

/-- The batch before any turn, for `n` series. -/
def before (n : Nat) : BatchState := ⟨[], .replicate n none⟩

/-- The batch after a turn.  The worker fits the series with its own solver and keeps it. -/
def takeTurn (task : BatchTask) (ys : List (List Float)) (b : BatchState) (t : Turn) :
    Except Failure BatchState :=
  match ys[t.series]? with
  | none => .ok b
  | some y => do
    let (report, solver) ← task.fitNext (b.solvers.lookup t.worker) y
    pure
      { solvers := (t.worker, solver) :: b.solvers.filter (·.1 != t.worker)
        reports := b.reports.setIfInBounds t.series (some report) }

/-- The reports that the given turns make, in the order of the series; the first failure ends the
batch.  Turns of different workers do not touch each other, so their order stands for any way of
running the workers at the same time. -/
def run (task : BatchTask) (ys : List (List Float)) (turns : List Turn) :
    Except Failure (List (FitReport Float)) := do
  let b ← turns.foldlM (task.takeTurn ys) (before ys.length)
  pure (b.reports.toList.filterMap id)

end BatchTask

/-- The reports on every series, with the backend selected for their points, when the workers take
the given turns. -/
def fitBatchBy (turns : List Turn) (model : Model Float) (x : List Float) (ys : List (List Float))
    (initial : List Float) (settings : FitSettings) :
    Except Failure (Backend × List (FitReport Float)) := do
  let b := selectBackend x.length settings
  let reports ← BatchTask.run ⟨b.unit, model, x, initial, settings⟩ ys turns
  pure (b, reports)

/-- The turns of a single worker that takes `n` series in their order. -/
def singleWorker (n : Nat) : List Turn := (List.range n).map fun i => ⟨0, i⟩

/-- The reports on every series by a single worker. -/
def fitBatch (model : Model Float) (x : List Float) (ys : List (List Float)) (initial : List Float)
    (settings : FitSettings) : Except Failure (Backend × List (FitReport Float)) :=
  fitBatchBy (singleWorker ys.length) model x ys initial settings

end CurveFit
