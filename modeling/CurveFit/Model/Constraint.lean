import CurveFit.Scalar

/-!
# Constraints on parameters

A constraint names the values a parameter may have.  `project` moves a value onto them and `admits`
tests for them.
-/

namespace CurveFit

/-- The values a parameter may have. -/
inductive Constraint where
  | none
  | positive
  | nonNegative
  | integer
deriving DecidableEq, Repr

namespace Constraint

/-- The name of a constraint. -/
def name : Constraint → String
  | .none => "none"
  | .positive => "positive"
  | .nonNegative => "nonnegative"
  | .integer => "integer"

/-- Every constraint. -/
def all : List Constraint := [.none, .positive, .nonNegative, .integer]

/-- The constraint of a name. -/
def ofName? (s : String) : Option Constraint := all.find? (·.name == s)

/-- The value moved onto the constraint: what has to be positive is raised to a small floor, what
must not be negative is cut off at zero, and whole numbers are rounded to. -/
def project {α : Type} [OfNat α 0] [LE α] [DecidableLE α] [LT α] [DecidableLT α] [FitScalar α]
    (c : Constraint) (value : α) : α :=
  match c with
  | .none => value
  | .positive => if value ≤ 0 then FitScalar.positiveFloor else value
  | .nonNegative => if 0 < value then value else 0
  | .integer => FitScalar.round value

/-- Whether the constraint allows a value. -/
def admits (c : Constraint) (value : Float) : Bool :=
  match c with
  | .none => true
  | .positive => 0.0 < value
  | .nonNegative => 0.0 ≤ value
  | .integer => Binary64.isWhole value

end Constraint

end CurveFit
