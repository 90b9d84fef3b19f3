/-!
# The parts of a binary64 number

A finite number is `±significand * 2 ^ exponent` with an integer significand below `2 ^ 53`.  Every
exact rule of the library (rounding to an integer, decimal text) starts from these parts, so that it
is a statement about integers.
-/

namespace CurveFit.Binary64

/-- Sign, significand and binary exponent of a finite number. -/
structure Parts where
  negative : Bool
  significand : Nat
  exponent : Int
deriving DecidableEq, Repr

/-- The eleven exponent bits. -/
def exponentField (x : Float) : Nat := ((x.toBits >>> 52) &&& 0x7ff).toNat

/-- The fifty-two fraction bits. -/
def fractionField (x : Float) : Nat := (x.toBits &&& 0xfffffffffffff).toNat

/-- The sign bit, which zeros carry too. -/
def isNegative (x : Float) : Bool := x.toBits >>> 63 == 1

/-- The leading bit of a full significand, which is not stored. -/
def hiddenBit : Nat := 0x10000000000000

/-- The parts of a finite number.  A zero exponent field marks the subnormal range, which has no
hidden bit. -/
def parts (x : Float) : Parts :=
  if exponentField x = 0 then ⟨isNegative x, fractionField x, -1074⟩
  else ⟨isNegative x, hiddenBit + fractionField x, (exponentField x : Int) - 1075⟩

theorem fractionField_lt (x : Float) : fractionField x < hiddenBit := by
  unfold fractionField hiddenBit
  rw [UInt64.toNat_and]
  exact Nat.lt_of_le_of_lt Nat.and_le_right (by decide)

theorem significand_parts_lt (x : Float) : (parts x).significand < 2 * hiddenBit := by
  have h := fractionField_lt x
  unfold parts
  split
  · exact Nat.lt_of_lt_of_le h (by omega)
  · simp only
    omega

/-- The absolute value as a quotient of natural numbers: numerator and denominator. -/
def Parts.quotient (p : Parts) : Nat × Nat :=
  (p.significand * Nat.pow 2 p.exponent.toNat, Nat.pow 2 (-p.exponent).toNat)

/-! ## Choosing between two numbers -/

/-- The smaller of two numbers; a NaN gives way to the other, and so does the first of two equal
ones, which differ if they are zeros. -/
def least (a b : Float) : Float := if a < b then a else if b.isNaN then a else b

/-- The larger of two numbers; a NaN gives way to the other, and so does the first of two equal
ones, which differ if they are zeros. -/
def greatest (a b : Float) : Float := if b < a then a else if b.isNaN then a else b

/-! ## Named values -/

/-- Positive infinity. -/
def infinity : Float := 1.0 / 0.0

/-- A number that is not a number. -/
def notANumber : Float := 0.0 / 0.0

/-- The distance from one to the next larger number. -/
def epsilon : Float := Float.ofBits 0x3cb0000000000000

/-- The least positive number with a full significand. -/
def leastNormal : Float := Float.ofBits 0x0010000000000000

end CurveFit.Binary64
