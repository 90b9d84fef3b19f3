/-!
# Rounding a quotient

`roundQuotient num den tie` is the integer nearest to `num / den`; a tie goes to the even neighbour
or to the upper one.
-/

namespace CurveFit.Text

/-- Where a value half way between two neighbours goes. -/
inductive Tie where
  | toEven
  | up
deriving DecidableEq, Repr

/-- The upper neighbour wins against `low` on an exact tie. -/
def Tie.takesUpper (tie : Tie) (low : Nat) : Bool :=
  match tie with
  | .toEven => low % 2 == 1
  | .up => true

/-- The natural number nearest to `num / den`. -/
def roundQuotient (num den : Nat) (tie : Tie) : Nat :=
  let low := num / den
  let rest := num % den
  if 2 * rest < den then low
  else if den < 2 * rest then low + 1
  else if tie.takesUpper low then low + 1 else low

/-- The rounded quotient is within half a unit. -/
theorem roundQuotient_near (num den : Nat) (tie : Tie) (hden : 0 < den) :
    2 * (roundQuotient num den tie * den) ≤ 2 * num + den ∧
      2 * num ≤ 2 * (roundQuotient num den tie * den) + den := by
  have h := Nat.div_add_mod num den
  rw [Nat.mul_comm] at h
  have hr := Nat.mod_lt num hden
  simp only [roundQuotient]
  split
  · constructor <;> omega
  · split
    · rw [Nat.add_mul]
      constructor <;> omega
    · split
      · rw [Nat.add_mul]
        constructor <;> omega
      · constructor <;> omega

end CurveFit.Text
