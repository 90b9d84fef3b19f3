import CurveFit.Lanes.Vector
import CurveFit.Linear.Elimination

/-!
# The workspace of a solver

The buffers that the passes of a fit write over.  They are set up once for a number of points and a
number of parameters; what a pass leaves in them is of no interest to the next one.
-/

namespace CurveFit

/-- The buffers that passes write over. -/
structure Workspace (α : Type) where
  /-- The values of the curve. -/
  estimate : LaneVector α
  /-- What the curve misses of the observations. -/
  residual : LaneVector α
  /-- The lanes of products. -/
  scratch : LaneVector α
  /-- One vector of derivatives for each parameter. -/
  columns : List (LaneVector α)
  /-- The derivatives at one point. -/
  row : List α
  /-- The matrix of the normal equations, which solving them destroys. -/
  matrix : DenseMatrix α
  /-- The right-hand side of the normal equations, which solving them turns into the increment. -/
  gradient : List α
  /-- The parameters that a pass tries. -/
  trial : List α

/-- The workspace for vectors like `blank` and `n` parameters, before any pass. -/
def Workspace.setUp {α : Type} [OfNat α 0] (blank : LaneVector α) (n : Nat) (initial : List α) :
    Workspace α :=
  { estimate := blank
    residual := blank
    scratch := blank
    columns := List.replicate n blank
    row := List.replicate n 0
    matrix := .ofFn n n fun _ _ => 0
    gradient := List.replicate n 0
    trial := initial }

end CurveFit
