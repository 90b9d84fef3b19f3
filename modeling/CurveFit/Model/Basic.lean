import CurveFit.Error
import CurveFit.Lanes.Kernel
import CurveFit.Model.Constraint

/-!
# Models

A model is a list of named parameters together with a curve and its partial derivatives, both as
functions of the parameter values.  The functions have no answer when there are fewer values than
they look at.
-/

namespace CurveFit

/-- A named parameter with its starting value. -/
structure Parameter (α : Type) where
  name : String
  initial : α
  constraint : Constraint

/-- A curve with parameters. -/
structure Model (α : Type) where
  parameters : List (Parameter α)
  /-- The curve at the given parameter values. -/
  curve? : List α → Option (α → α)
  /-- The partial derivatives, by parameter, at the given parameter values. -/
  slopes? : List α → Option (α → List α)

variable {α : Type}

namespace Model

/-- The number of parameters. -/
def parameterCount (m : Model α) : Nat := m.parameters.length

/-- The declared starting point. -/
def initialValues (m : Model α) : List α := m.parameters.map (·.initial)

/-- The constraint of a parameter. -/
def constraintAt? (m : Model α) (i : Nat) : Except Fault Constraint :=
  match m.parameters[i]? with
  | some p => .ok p.constraint
  | none => .error .outOfRange

/-- The curve, or a fault when values are missing. -/
def curve (m : Model α) (values : List α) : Except Fault (α → α) :=
  match m.curve? values with
  | some f => .ok f
  | none => .error .outOfRange

/-- The partial derivatives, or a fault when values are missing. -/
def slopes (m : Model α) (values : List α) : Except Fault (α → List α) :=
  match m.slopes? values with
  | some d => .ok d
  | none => .error .outOfRange

/-- The curve at every given point. -/
def predict (m : Model α) (values x : List α) : Except Fault (List α) := do
  let f ← m.curve values
  pure (x.map f)

/-- Every value moved onto the constraint of its parameter. -/
def project [OfNat α 0] [LE α] [DecidableLE α] [LT α] [DecidableLT α] [FitScalar α] (m : Model α)
    (values : List α) : List α :=
  List.zipWith (fun p v => p.constraint.project v) m.parameters values

end Model

/-- A row of derivatives written over a buffer; a row longer than the buffer has slots that are not
there. -/
def writeRow (buffer row : List α) : Except Fault (List α) :=
  if row.length ≤ buffer.length then .ok (overwrite buffer row) else .error .outOfRange

/-- The rows of derivatives at every given point.  One buffer serves all points, so a slot that the
model leaves out keeps its value from the point before. -/
def derivativeRows (d : α → List α) : List α → List α → Except Fault (List (List α))
  | _, [] => .ok []
  | buffer, x :: rest => do
    let row ← writeRow buffer (d x)
    let rows ← derivativeRows d row rest
    pure (row :: rows)

end CurveFit
