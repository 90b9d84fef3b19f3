import CurveFit.Proofs.Exponential.Range

/-!
# How close the exponential is

Over the real numbers, with a table of the true powers of two, the split of a count of table steps into
exponent and index loses nothing: the power that is put together is the exponential of the steps
(`truePower_eq`).  What is left is the distance of the quadratic from the exponential of the remainder,
which is at most half a step (`abs_compose_sub_lt`).
-/

namespace CurveFit.Exponential

section Accuracy

variable {r x : ℝ} {k : ℤ}

/-- **Range reduction**: exponent and index of a count make up the exponential of its steps. -/
theorem truePower_eq (hlower : -(1023 * 2048) ≤ k) (hupper : k < 2 ^ 62) :
    truePower (biasedExponent (Int64.ofInt k)) (tableIndex (Int64.ofInt k).toUInt64) =
      Real.exp (k * (Real.log 2 / 2048)) := by
  have hexponent := toNat_biasedExponent hlower hupper
  have hindex := toNat_tableIndex k
  have hsplit : 2048 * ((biasedExponent (Int64.ofInt k)).toNat - 1023 : ℤ) +
      tableIndex (Int64.ofInt k).toUInt64 = k := by omega
  unfold truePower
  generalize ((biasedExponent (Int64.ofInt k)).toNat - 1023 : ℤ) = e at hsplit ⊢
  generalize tableIndex (Int64.ofInt k).toUInt64 = j at hsplit ⊢
  have hcount : (k : ℝ) = 2048 * e + j := by exact_mod_cast hsplit.symm
  rw [← Real.rpow_intCast, ← Real.rpow_add two_pos, Real.rpow_def_of_pos two_pos, hcount]
  congr 1
  ring

/-- The distance of the quadratic from the exponential, by the first term that is left out. -/
theorem abs_quadratic_sub_le (hr : |r| ≤ 1) : |quadratic (1 / 2) r - Real.exp r| ≤ |r| ^ 3 := by
  have hbound := Real.exp_bound hr (n := 3) (by norm_num)
  have hsum : ∑ m ∈ Finset.range 3, r ^ m / m.factorial = quadratic (1 / 2) r := by
    unfold quadratic
    simp only [Finset.sum_range_succ, Finset.sum_range_zero, Nat.factorial]
    push_cast
    ring
  rw [hsum, abs_sub_comm] at hbound
  refine hbound.trans (mul_le_of_le_one_right (by positivity) ?_)
  norm_num [Nat.factorial]

/-- At most half a step is left of the argument. -/
theorem abs_remainder_le (h : StepCount 0 x k) : |x - k * (Real.log 2 / 2048)| ≤ 1 / 4096 := by
  obtain ⟨hlower, hupper⟩ := stepCount_iff.mp h
  have hlog := Real.log_two_lt_d9
  rw [abs_le]
  constructor <;> linarith

/-- **The accuracy** of the table-driven exponential: with the true powers of two and exact
arithmetic, it is off by less than one part in a million. -/
theorem abs_compose_sub_lt (hx : InRange x) (hk : StepCount 0 x k) :
    |compose truePower (1 / 2) (Int64.ofInt k) (x - k * (Real.log 2 / 2048)) - Real.exp x| <
      1e-6 * Real.exp x := by
  have hslack : StepCount (2 ^ (-20 : ℤ)) x k := hk.trans (by norm_num)
  obtain ⟨hlower, hupper⟩ := hslack.range hx
  have hsmall := abs_remainder_le hk
  generalize hr : x - k * (Real.log 2 / 2048) = r at hsmall ⊢
  have hquadratic := abs_quadratic_sub_le (hsmall.trans (by norm_num))
  have hexp : Real.exp x = Real.exp (k * (Real.log 2 / 2048)) * Real.exp r := by
    rw [← Real.exp_add, ← hr, add_sub_cancel]
  have hcube : |r| ^ 3 ≤ (1 / 4096) ^ 3 := pow_le_pow_left₀ (abs_nonneg r) hsmall 3
  have hclose : |quadratic (1 / 2) r - Real.exp r| < 1e-6 * Real.exp r := by
    have hbelow := Real.add_one_le_exp r
    have hneg := (abs_le.mp hsmall).1
    norm_num at hcube hneg ⊢
    linarith
  have hpos := Real.exp_pos (k * (Real.log 2 / 2048))
  unfold compose
  rw [truePower_eq (by omega) (by omega), hexp, ← mul_sub, abs_mul, abs_of_pos hpos, mul_left_comm]
  exact mul_lt_mul_of_pos_left hclose hpos

/-- A negative argument, whose steps are negative too. -/
theorem abs_compose_sub_lt_neg_one :
    InRange (-1) ∧ StepCount 0 (-1) (-2955) ∧
      |compose truePower (1 / 2) (Int64.ofInt (-2955)) (-1 - (-2955 : ℤ) * (Real.log 2 / 2048)) -
        Real.exp (-1)| < 1e-6 * Real.exp (-1) := by
  have hrange : InRange (-1) := by
    unfold InRange
    rw [value_minArgument, value_maxArgument]
    norm_num
  have hcount : StepCount 0 (-1) (-2955) := by
    have hlower := Real.log_two_gt_d9
    have hupper := Real.log_two_lt_d9
    rw [stepCount_iff]
    push_cast
    constructor <;> linarith
  exact ⟨hrange, hcount, abs_compose_sub_lt hrange hcount⟩

end Accuracy

end CurveFit.Exponential
