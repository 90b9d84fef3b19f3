import CurveFit.Binary64.Parts

/-!
# Whole numbers among the binary64 numbers

Rounding to a whole number, halves away from zero, and the test for a whole number.  Both are read
off the parts: with exponent `-k` the number is `significand / 2 ^ k`, so its whole part and its
half are integer quotients.
-/

namespace CurveFit.Binary64

/-- The quotient `m / 2 ^ k` rounded to the nearest natural number, halves up. -/
def roundHalfUp (m k : Nat) : Nat := (2 * m + Nat.pow 2 k) / Nat.pow 2 (k + 1)

/-- Rounding to the nearest whole number, halves away from zero.  The sign is kept, also that of a
zero, and what is not finite is left alone. -/
def roundWhole (x : Float) : Float :=
  if !x.isFinite then x
  else
    let p := parts x
    if 0 ≤ p.exponent then x
    else
      let magnitude := Float.ofNat (roundHalfUp p.significand (-p.exponent).toNat)
      if p.negative then -magnitude else magnitude

/-- Finite with no fractional part. -/
def isWhole (x : Float) : Bool :=
  x.isFinite &&
    (let p := parts x
     decide (0 ≤ p.exponent) || p.significand % Nat.pow 2 (-p.exponent).toNat == 0)

/-- Whole multiples stay as they are. -/
theorem roundHalfUp_mul (n k : Nat) : roundHalfUp (n * Nat.pow 2 k) k = n := by
  have hk : 0 < Nat.pow 2 k := Nat.two_pow_pos k
  have hs : Nat.pow 2 (k + 1) = Nat.pow 2 k * 2 := rfl
  unfold roundHalfUp
  rw [hs]
  generalize Nat.pow 2 k = m at hk
  have h : 2 * (n * m) + m = m + m * 2 * n := by
    rw [Nat.mul_comm m 2, Nat.mul_assoc, Nat.mul_comm n m]
    omega
  rw [h, Nat.add_mul_div_left _ _ (by omega), Nat.div_eq_of_lt (by omega), Nat.zero_add]

end CurveFit.Binary64
