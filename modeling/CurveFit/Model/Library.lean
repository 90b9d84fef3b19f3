import CurveFit.Model.Basic

/-!
# The built-in models

Four curves with closed forms and derivatives: a line, an exponential decay, a Gaussian peak and a
sum of two decays.  Lifetimes and widths are kept positive.
-/

namespace CurveFit

/-- The built-in curves. -/
inductive ModelKind where
  | linear
  | exponential
  | gaussian
  | biExponential
deriving DecidableEq, Repr

namespace ModelKind

/-- Every kind. -/
def all : List ModelKind := [.linear, .exponential, .gaussian, .biExponential]

/-- The name of a kind in arguments and files. -/
def name : ModelKind → String
  | .linear => "linear"
  | .exponential => "exponential"
  | .gaussian => "gaussian"
  | .biExponential => "bi-exponential"

/-- The kind of a name. -/
def ofName? (s : String) : Option ModelKind := all.find? (·.name == s)

/-- The name of a kind in headings. -/
def displayName : ModelKind → String
  | .linear => "linear"
  | .exponential => "exponential decay"
  | .gaussian => "gaussian peak"
  | .biExponential => "bi-exponential decay"

/-- The parameters of a kind in order: their names and constraints. -/
def signature : ModelKind → List (String × Constraint)
  | .linear => [("slope", .none), ("intercept", .none)]
  | .exponential => [("amplitude", .none), ("lifetime", .positive), ("offset", .none)]
  | .gaussian => [("amplitude", .none), ("center", .none), ("width", .positive), ("offset", .none)]
  | .biExponential =>
    [("amplitude_fast", .none), ("lifetime_fast", .positive), ("amplitude_slow", .none),
     ("lifetime_slow", .positive), ("offset", .none)]

/-- The number of parameters of a kind. -/
def parameterCount (kind : ModelKind) : Nat := kind.signature.length

/-- Parameters that suit the range from zero to ten, for demonstrations. -/
def demoTruth : ModelKind → List Float
  | .linear => [1.5, -0.5]
  | .exponential => [5.0, 2.0, 1.0]
  | .gaussian => [3.0, 5.0, 1.2, 0.5]
  | .biExponential => [4.0, 0.5, 2.0, 4.0, 0.2]

section Curves

variable {α : Type} [OfNat α 1] [OfNat α 2] [Add α] [Sub α] [Mul α] [Div α] [Neg α] [ExpScalar α]

open ExpScalar

/-- The curve of a kind at the given parameter values. -/
def curve? (kind : ModelKind) (values : List α) : Option (α → α) :=
  match kind, values with
  | .linear, m :: b :: _ => some fun x => m * x + b
  | .exponential, a :: tau :: c :: _ => some fun x => a * exp ((-x) / tau) + c
  | .gaussian, a :: mu :: sigma :: c :: _ => some fun x =>
    let d := x - mu
    a * exp (((-d) * d) / ((2 * sigma) * sigma)) + c
  | .biExponential, a1 :: t1 :: a2 :: t2 :: c :: _ => some fun x =>
    a1 * exp ((-x) / t1) + a2 * exp ((-x) / t2) + c
  | _, _ => none

/-- The partial derivatives of a kind at the given parameter values, in the order of its
parameters.  Parameters that the derivatives do not depend on may be missing at the end. -/
def slopes? (kind : ModelKind) (values : List α) : Option (α → List α) :=
  match kind, values with
  | .linear, _ => some fun x => [x, 1]
  | .exponential, a :: tau :: _ => some fun x =>
    let e := exp ((-x) / tau)
    [e, a * e * x / (tau * tau), 1]
  | .gaussian, a :: mu :: sigma :: _ => some fun x =>
    let d := x - mu
    let s2 := sigma * sigma
    let g := exp (((-d) * d) / (2 * s2))
    [g, a * g * d / s2, a * g * d * d / (s2 * sigma), 1]
  | .biExponential, a1 :: t1 :: a2 :: t2 :: _ => some fun x =>
    let e1 := exp ((-x) / t1)
    let e2 := exp ((-x) / t2)
    [e1, a1 * e1 * x / (t1 * t1), e2, a2 * e2 * x / (t2 * t2), 1]
  | _, _ => none

/-- The model of a kind with the given starting values, one for each parameter. -/
def model (kind : ModelKind) (initial : List α) : Except FitError (Model α) :=
  if initial.length = kind.parameterCount then
    .ok
      { parameters := List.zipWith (fun (name, c) v => ⟨name, v, c⟩) kind.signature initial
        curve? := kind.curve?
        slopes? := kind.slopes? }
  else .error (.parameterCount kind.parameterCount initial.length)

end Curves

end ModelKind

end CurveFit
