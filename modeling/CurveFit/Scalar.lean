import CurveFit.Binary64.Bits
import CurveFit.Binary64.Integral

/-!
# The numbers a fit computes with

Vectors, elimination and the fit itself are written over any type with the four operations, zero,
one and an order; binary64 is the type they run in, and an ordered field is the type their algebra
is about.  `FitScalar` lists what a fit asks of its numbers beyond that, and `ExpScalar` the
exponential function that some model curves need.
-/

namespace CurveFit

/-- What a fit asks of its numbers beyond the four operations and the order. -/
class FitScalar (α : Type) where
  /-- Whether a value counts as a number. -/
  isFinite : α → Bool
  /-- The absolute value. -/
  abs : α → α
  /-- The nearest whole number. -/
  round : α → α
  /-- A count as a number. -/
  ofCount : Nat → α
  /-- The damping is not made smaller than this. -/
  lambdaFloor : α
  /-- What a parameter that has to be positive is raised to. -/
  positiveFloor : α

/-- The exponential function. -/
class ExpScalar (α : Type) where
  exp : α → α

instance : FitScalar Float where
  isFinite := Float.isFinite
  abs := Float.abs
  round := Binary64.roundWhole
  ofCount := Float.ofNat
  lambdaFloor := Binary64.leastNormal
  positiveFloor := 1e-10

instance : ExpScalar Float where
  exp := Float.exp

instance : ExpScalar Binary64.Bits where
  exp b := b.handOn b.value.exp

end CurveFit
