import CurveFit.Binary64.Parts
import CurveFit.Text.Rounding

/-!
# The shortest decimal that reads back

Among all decimals that round to a given binary64 number, `shortest` is one with the fewest digits,
and of those the nearest.  The numbers that round to `x` fill an interval around it: half the
distance to each neighbour, the ends included when the significand is even.  For one, two, … digits
the two neighbours of `x` on that decimal grid are tried; the first grid with a hit wins.
-/

namespace CurveFit.Text

open CurveFit.Binary64

/-- The decimal number `digits * 10 ^ exponent`. -/
structure Decimal where
  digits : Nat
  exponent : Int
deriving DecidableEq, Repr

/-- Ten to the power `p` as a quotient. -/
def powerOfTen (p : Int) : Nat × Nat := (Nat.pow 10 p.toNat, Nat.pow 10 (-p).toNat)

/-- The number of decimal digits of a natural number. -/
def digitCount (n : Nat) : Nat := (Nat.toDigits 10 n).length

/-- For a positive quotient, the `k` with `10 ^ (k - 1) ≤ num / den < 10 ^ k`. -/
def decimalOrder (num den : Nat) : Int :=
  if den ≤ num then digitCount (num / den)
  else
    let zeros := digitCount (den / num)
    if num * Nat.pow 10 (zeros - 1) = den then 2 - (zeros : Int) else 1 - (zeros : Int)

/-- Trailing zeros of the digits moved into the exponent. -/
def Decimal.stripped (d : Decimal) : Decimal :=
  if h : d.digits ≠ 0 ∧ d.digits % 10 = 0 then
    Decimal.stripped ⟨d.digits / 10, d.exponent + 1⟩
  else d
termination_by d.digits
decreasing_by omega

/-- The interval of values that round to a number, over one common denominator. -/
structure RoundingInterval where
  low : Nat
  value : Nat
  high : Nat
  den : Nat
  closed : Bool

/-- The interval around a positive number.  Below a power of two the neighbour is only half as far
away, unless the number is at the bottom of its range. -/
def roundingInterval (p : Parts) : RoundingInterval :=
  let e := p.exponent - 2
  let unit := Nat.pow 2 e.toNat
  let gap := if p.significand = hiddenBit ∧ p.exponent ≠ -1074 then 1 else 2
  { low := (4 * p.significand - gap) * unit
    value := 4 * p.significand * unit
    high := (4 * p.significand + 2) * unit
    den := Nat.pow 2 (-e).toNat
    closed := p.significand % 2 == 0 }

/-- Whether `a` lies at or below `b`, the bound itself counting only in a closed interval. -/
def RoundingInterval.below (i : RoundingInterval) (a b : Nat) : Bool :=
  if i.closed then decide (a ≤ b) else decide (a < b)

/-- The best decimal in the interval on the grid `10 ^ (-p)`, if that grid has one. -/
def RoundingInterval.hit? (i : RoundingInterval) (p : Int) (tie : Tie) : Option Decimal :=
  let (up, down) := powerOfTen p
  let unit := i.den * down
  let value := i.value * up
  let floor := value / unit
  let lowHit := i.below (i.low * up) (floor * unit)
  let highHit := i.below ((floor + 1) * unit) (i.high * up)
  match lowHit, highHit with
  | false, false => none
  | true, false => some ⟨floor, -p⟩
  | false, true => some ⟨floor + 1, -p⟩
  | true, true => some ⟨roundQuotient value unit tie, -p⟩

/-- The shortest decimal of a positive number. -/
def shortestOf (p : Parts) (tie : Tie) : Decimal :=
  let i := roundingInterval p
  let order := decimalOrder i.value i.den
  let found := (List.range 17).findSome? fun (n : Nat) => i.hit? ((n : Int) + 1 - order) tie
  (found.getD ⟨p.significand, p.exponent⟩).stripped

end CurveFit.Text
