import CurveFit.Proofs.Binary64.Arithmetic

/-!
# Quotients of the binary64 numbers

The quotient of finite numbers is what the exact quotient rounds to (`div_isRounded`).  The dividend
is shifted until the quotient of the mantissas has all the digits it can have; what is left over
after their division tells on which side of a half the rest lies (`stands_fraction`).  A quotient of
mantissas that is zero belongs to a number below the least digit.
-/

namespace CurveFit.Binary64

open Float.Model Float.Model.UnpackedFloat

section Mantissas

variable {m m' n d : ℕ} {e e' : ℤ}

/-- The remainder of a division says where the exact quotient lies. -/
theorem stands_fraction (hd : 0 < d) :
    Stands (.ofMantissaAndAccuracy (n / d) (accuracyOfFraction (n % d) d)) ((n : ℚ) / d) := by
  have hd' : (0 : ℚ) < d := Nat.cast_pos.mpr hd
  have hdivision : (n : ℚ) / d = (n / d : ℕ) + (n % d : ℕ) / d := by
    rw [eq_comm, ← mul_div_cancel_left₀ ((n / d : ℕ) : ℚ) hd'.ne', ← add_div]
    exact congrArg (· / (d : ℚ)) (by exact_mod_cast Nat.div_add_mod n d)
  rw [hdivision]
  unfold accuracyOfFraction
  by_cases hexact : n % d = 0
  · rw [if_pos hexact, hexact, Nat.cast_zero, zero_div, add_zero]
    exact stands_exact _
  have hpos : (0 : ℚ) < (n % d : ℕ) / d :=
    div_pos (Nat.cast_pos.mpr (Nat.pos_of_ne_zero hexact)) hd'
  have hbelow : ((n % d : ℕ) : ℚ) / d < 1 := by
    rw [div_lt_one hd']
    exact_mod_cast Nat.mod_lt n hd
  rw [if_neg hexact]
  rcases hhalf : compare (2 * (n % d)) d with _ | _ | _
  · have hlt : (2 * (n % d : ℕ) : ℚ) < d := by exact_mod_cast compare_lt_iff_lt.mp hhalf
    refine ⟨lt_add_of_pos_right _ hpos, add_lt_add_right ?_ _⟩
    rw [div_lt_div_iff₀ hd' two_pos]
    linarith
  · have heq : (2 * (n % d : ℕ) : ℚ) = d := by exact_mod_cast compare_eq_iff_eq.mp hhalf
    refine congrArg (_ + ·) ?_
    rw [div_eq_div_iff hd'.ne' two_ne_zero]
    linarith
  · have hgt : (d : ℚ) < 2 * (n % d : ℕ) := by exact_mod_cast compare_gt_iff_gt.mp hhalf
    refine ⟨add_lt_add_right ?_ _, add_lt_add_right hbelow _⟩
    rw [div_lt_div_iff₀ two_pos hd']
    linarith

/-- The size of a quotient, by the sizes of the dividend and the divisor. -/
theorem two_zpow_le_quotient (hm : 0 < m) (hm' : 0 < m') (e e' : ℤ) :
    (2 : ℚ) ^ (totalExponent m e - totalExponent m' e' - 1) ≤ m * 2 ^ e / (m' * 2 ^ e') := by
  have hlower : (2 : ℚ) ^ m.log2 ≤ m := by exact_mod_cast Nat.log2_self_le hm.ne'
  have hupper : (m' : ℚ) ≤ 2 ^ (m'.log2 + 1) := by exact_mod_cast Nat.lt_log2_self.le
  have hsplit : totalExponent m e - totalExponent m' e' - 1 =
      m.log2 + e - ((m'.log2 + 1 : ℕ) + e') := by
    unfold totalExponent
    push_cast
    ring
  rw [hsplit, zpow_sub₀ two_ne_zero, zpow_add₀ two_ne_zero, zpow_add₀ two_ne_zero, zpow_natCast,
    zpow_natCast]
  have hdivisor : (0 : ℚ) < m' * 2 ^ e' := mul_pos (Nat.cast_pos.mpr hm') (two_zpow_pos e')
  exact div_le_div₀ (mul_nonneg (Nat.cast_nonneg m) (two_zpow_pos e).le)
    (mul_le_mul_of_nonneg_right hlower (two_zpow_pos e).le) hdivisor
    (mul_le_mul_of_nonneg_right hupper (two_zpow_pos e').le)

theorem targetExponent_def (t : ℤ) : Format.binary64.targetExponent t = max (t - 53) (-1074) := rfl

/-- A quotient of mantissas that starts early enough has the last digit of the exact quotient. -/
theorem targetExponent_quotient {y : ℚ} {t total : ℤ} (hlower : m ≤ y) (hupper : y < m + 1)
    (hsize : (2 : ℚ) ^ (total - 1) ≤ y * 2 ^ t) (ht : t ≤ Format.binary64.targetExponent total) :
    Format.binary64.targetExponent (totalExponent m t) = lastDigit (y * 2 ^ t) := by
  rcases Nat.eq_zero_or_pos m with rfl | hm
  · -- the exact quotient lies below `2 ^ t`, so `t` is at most the least exponent
    have hpos : 0 < y * 2 ^ t := (two_zpow_pos _).trans_le hsize
    have hbelow : y * 2 ^ t < 2 ^ t := by
      rw [Nat.cast_zero, zero_add] at hupper
      exact mul_lt_of_lt_one_left (two_zpow_pos t) hupper
    have htotal : total - 1 < t := (zpow_lt_zpow_iff_right₀ one_lt_two).mp (hsize.trans_lt hbelow)
    have hlog : Int.log 2 (y * 2 ^ t) < t := (Int.lt_zpow_iff_log_lt one_lt_two hpos).mp hbelow
    rw [targetExponent_def] at ht
    rw [targetExponent_eq, Nat.log2_zero]
    unfold lastDigit
    rw [abs_of_pos hpos]
    omega
  · exact targetExponent_eq_lastDigit hm hlower hupper t

theorem targetExponent_le_lastDigit {q : ℚ} {total : ℤ} (hsize : (2 : ℚ) ^ (total - 1) ≤ q) :
    Format.binary64.targetExponent total ≤ lastDigit q := by
  have hpos : 0 < q := (two_zpow_pos _).trans_le hsize
  have hlog : total - 1 ≤ Int.log 2 q := (Int.zpow_le_iff_le_log one_lt_two hpos).mp hsize
  rw [targetExponent_def]
  unfold lastDigit
  rw [abs_of_pos hpos]
  omega

/-- The quotient of two mantissas with exponents is rounded to the nearest number. -/
theorem divCore_rounds (s : Sign) (hm : 0 < m) (hm' : 0 < m') :
    Rounds (let (q, t, acc) := divCore Format.binary64 m e m' e'
      roundWithAccuracy Format.binary64 s q t acc) (signed s (m * 2 ^ e / (m' * 2 ^ e'))) := by
  let total := totalExponent m e - totalExponent m' e'
  let t := min (e - e') (Format.binary64.targetExponent total)
  let k := (e - e' - t).toNat
  have hshift : e - e' - (k : ℤ) = t := by omega
  have hquotient : ((m <<< k : ℕ) : ℚ) / m' * 2 ^ t = m * 2 ^ e / (m' * 2 ^ e') := by
    rw [div_mul_eq_mul_div, ← hshift, shiftLeft_value, zpow_sub₀ two_ne_zero, ← mul_div_assoc,
      div_div, mul_comm (2 ^ e')]
  have hsize : (2 : ℚ) ^ (total - 1) ≤ ((m <<< k : ℕ) : ℚ) / m' * 2 ^ t := by
    rw [hquotient]
    exact two_zpow_le_quotient hm hm' e e'
  have hpos : 0 < ((m <<< k : ℕ) : ℚ) / m' :=
    pos_of_mul_pos_left ((two_zpow_pos _).trans_le hsize) (two_zpow_pos t).le
  have hstands := stands_fraction (n := m <<< k) hm'
  obtain ⟨hlower, hupper⟩ := hstands.bounds
  rw [← hquotient]
  exact roundWithAccuracy_rounds_of_target s hpos hstands
    (targetExponent_quotient hlower hupper hsize (min_le_right _ _))
    ((min_le_right _ _).trans (targetExponent_le_lastDigit hsize))

end Mantissas

/-! ## Operations -/

theorem signed_div (s s' : Sign) (q q' : ℚ) :
    signed s q / signed s' q' = signed (s / s') (q / q') := by
  cases s <;> cases s'
  · exact neg_div_neg_eq q q'
  · exact neg_div q' q
  · exact div_neg q
  · rfl

theorem div_rounds {u v : UnpackedFloat} (hu : u.isFinite) (hv : v.isFinite)
    (hzero : valueOf v ≠ 0) : Rounds (UnpackedFloat.div Format.binary64 u v) (valueOf u / valueOf v) := by
  cases v with
  | notANumber => cases hv
  | infinity s => cases hv
  | zero s => exact absurd rfl hzero
  | finite s' m' e' hm' =>
    cases u with
    | notANumber => cases hu
    | infinity s => cases hu
    | zero s =>
      refine ⟨trivial, rfl, ?_⟩
      show 0 = rounded (0 / _)
      rw [zero_div, rounded_zero]
    | finite s m e hm =>
      show Rounds _ (signed s (m * 2 ^ e) / signed s' (m' * 2 ^ e'))
      rw [signed_div]
      exact divCore_rounds (s / s') hm hm'

section Float

variable {a b : Float}

theorem div_isRounded (ha : a.isFinite) (hb : b.isFinite) (hzero : value b ≠ 0) :
    IsRounded (a / b) (value a / value b) :=
  (div_rounds ha hb hzero).pack

/-- A quotient by a number that is at least one is no more than the dividend. -/
theorem div_le_of_one_le (ha : a.isFinite) (ha₀ : 0 ≤ value a) (hb : b.isFinite)
    (hone : 1 ≤ value b) : a / b ≤ a :=
  (div_isRounded ha hb (one_pos.trans_le hone).ne').mono (value_isRounded (isNaN_of_isFinite ha))
    (div_le_self ha₀ hone)

end Float

end CurveFit.Binary64
