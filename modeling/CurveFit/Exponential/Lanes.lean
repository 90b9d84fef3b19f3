import CurveFit.Exponential.Fast
import CurveFit.Lanes.Kernel

/-!
# The exponential, four lanes at a time

The AVX2 kernel computes the table-driven exponential for four lanes in one pass, and the scalar one
for the lanes after the last whole group.  A lane is clamped by the register's minimum and maximum,
which return their second operand when either is NaN, and the exponent is shifted without regard to
its sign; for a clamped argument it is never negative.
-/

namespace CurveFit.Exponential

/-- The larger of two lanes, or the second when either is NaN or both are zeros. -/
def laneMax (a b : Float) : Float := if b < a then a else b

/-- The smaller of two lanes, or the second when either is NaN or both are zeros. -/
def laneMin (a b : Float) : Float := if a < b then a else b

/-- A lane kept inside the range the table covers. -/
def laneClamp (x : Float) : Float := laneMin maxArgument (laneMax minArgument x)

/-- The number of table steps of a lane, as an unsigned word. -/
def laneSteps (x : Float) : UInt64 := (x * scale + shift).toBits - shift.toBits

/-- One lane of the vectorised exponential. -/
def lane (x : Float) : Float :=
  let x := laneClamp x
  let k := laneSteps x
  let exponent := ((k + scaledBias) >>> 11) <<< 52
  Float.ofBits (exponent ||| fractionAt table k) * quadratic 0.5 (remainder x)

/-- The vectorised exponential of a list written over a destination. -/
def lanes (source out : List Float) : List Float :=
  mapGroups (fun x0 x1 x2 x3 => [lane x0, lane x1, lane x2, lane x3]) (mapLanes fast) source out #[]

end CurveFit.Exponential

namespace CurveFit

/-- The portable kernel computes the exact exponential, the AVX2 kernel the table-driven one. -/
instance : LaneExp Float where
  run
    | .portable => mapLanes Float.exp
    | .avx2 => Exponential.lanes

end CurveFit
