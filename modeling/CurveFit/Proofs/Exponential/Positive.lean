import CurveFit.Proofs.Binary64.Special
import CurveFit.Proofs.Exponential.Steps

/-!
# The exponential is a positive number

The approximate exponential of every number is positive, whatever the table holds.  Only the last places
of a table of powers of two could carry the largest exponent to the infinity, and the range of the
arguments ends before them, so with such a table it is finite as well (`words_and_positive`).
-/

namespace CurveFit.Exponential

open CurveFit.Binary64

/-! ## Powers of two -/

/-- A power of two as a machine gives it: one at zero, and close to the true power at the places of
the table. -/
structure PowerOfTwo (exp2 : Float → Float) : Prop where
  zero : value (exp2 0) = 1
  close : ∀ j < tableSize,
    |(value (exp2 (Float.ofNat j / 2048.0)) : ℝ) - 2 ^ (j / 2048 : ℝ)| ≤ 1 / 2 ^ 12

section Powers

variable {j : ℕ}

theorem two_rpow_eq (j : ℕ) : (2 : ℝ) ^ (j / 2048 : ℝ) = Real.exp (j / 2048 * Real.log 2) := by
  rw [Real.rpow_def_of_pos two_pos, mul_comm]

theorem lt_two_rpow (hj : 0 < j) : 1 + 1 / 2 ^ 12 < (2 : ℝ) ^ (j / 2048 : ℝ) := by
  have hone : (1 : ℝ) ≤ j := by exact_mod_cast hj
  have hlog := Real.log_two_gt_d9
  have hstep : (1 : ℝ) / 2048 * 0.6931471803 ≤ j / 2048 * Real.log 2 :=
    mul_le_mul (by linarith) hlog.le (by norm_num) (by positivity)
  rw [two_rpow_eq]
  calc (1 : ℝ) + 1 / 2 ^ 12 < j / 2048 * Real.log 2 + 1 := by norm_num at hstep ⊢; linarith
    _ ≤ Real.exp (j / 2048 * Real.log 2) := Real.add_one_le_exp _

/-- The powers stay below two by what is missing to the end of the table. -/
theorem two_rpow_le {n : ℕ} (hj : j + n ≤ 2048) :
    (2 : ℝ) ^ (j / 2048 : ℝ) * (1 + n / 2048 * 0.6931471803) ≤ 2 := by
  have hlog := Real.log_two_gt_d9
  have hsum : (j : ℝ) / 2048 + n / 2048 ≤ 1 := by
    rw [← add_div, div_le_one (by norm_num)]
    exact_mod_cast hj
  have hrest : 1 + n / 2048 * 0.6931471803 ≤ (2 : ℝ) ^ (n / 2048 : ℝ) := by
    rw [two_rpow_eq]
    have hle := mul_le_mul_of_nonneg_left hlog.le (by positivity : (0 : ℝ) ≤ n / 2048)
    linarith [Real.add_one_le_exp (n / 2048 * Real.log 2)]
  calc (2 : ℝ) ^ (j / 2048 : ℝ) * (1 + n / 2048 * 0.6931471803)
      ≤ (2 : ℝ) ^ (j / 2048 : ℝ) * (2 : ℝ) ^ (n / 2048 : ℝ) :=
        mul_le_mul_of_nonneg_left hrest (by positivity)
    _ = (2 : ℝ) ^ (j / 2048 + n / 2048 : ℝ) := (Real.rpow_add two_pos _ _).symm
    _ ≤ (2 : ℝ) ^ (1 : ℝ) := Real.rpow_le_rpow_of_exponent_le one_le_two hsum
    _ = 2 := Real.rpow_one 2

end Powers

section Table

variable {exp2 : Float → Float} {j : ℕ}

/-- The powers of two in the table start with a one before the point. -/
theorem PowerOfTwo.bounds (h : PowerOfTwo exp2) (hj : j < tableSize) :
    1 ≤ value (exp2 (Float.ofNat j / 2048.0)) ∧ value (exp2 (Float.ofNat j / 2048.0)) < 2 := by
  obtain ⟨hlower, hupper⟩ := abs_le.mp (h.close j hj)
  constructor
  · rcases Nat.eq_zero_or_pos j with rfl | hpos
    · have hzero : Float.ofNat 0 / 2048.0 = 0 := by decide +kernel
      rw [hzero, h.zero]
    · have hone : (1 : ℝ) ≤ value (exp2 (Float.ofNat j / 2048.0)) := by
        linarith [lt_two_rpow hpos]
      exact_mod_cast hone
  · have hle := two_rpow_le (n := 1) (show j + 1 ≤ 2048 from hj)
    have htwo : (value (exp2 (Float.ofNat j / 2048.0)) : ℝ) < 2 := by
      norm_num at hle hupper
      linarith
    exact_mod_cast htwo

/-- The significand with a stored fraction is the power of two at its place. -/
theorem PowerOfTwo.significand_eq (h : PowerOfTwo exp2) (hj : j < tableSize) :
    1 + ((tableEntry exp2 j).toNat : ℚ) / 2 ^ 52 = value (exp2 (Float.ofNat j / 2048.0)) := by
  obtain ⟨hlower, hupper⟩ := h.bounds hj
  rw [toNat_tableEntry, ← fractionField_mod, fractionField_of_value hlower hupper]
  ring

/-- The last seven places of the table, which the largest exponent never meets, hold the powers that
are nearest to two. -/
theorem PowerOfTwo.value_le (h : PowerOfTwo exp2) (hj : j ≤ 2040) :
    value (exp2 (Float.ofNat j / 2048.0)) ≤ 399 / 200 := by
  obtain ⟨-, hupper⟩ := abs_le.mp (h.close j (Nat.lt_of_le_of_lt hj (by decide)))
  have hle := two_rpow_le (n := 8) (show j + 8 ≤ 2048 by omega)
  have hreal : (value (exp2 (Float.ofNat j / 2048.0)) : ℝ) ≤ (399 / 200 : ℚ) := by
    push_cast
    norm_num at hle hupper
    linarith
  exact_mod_cast hreal

end Table

/-! ## The quadratic -/

section Quadratic

variable {a b r : Float}

theorem one_add_close (ha : a.isFinite) (hsize : |value a| ≤ 1 / 2) :
    (1 + a).isFinite ∧ |value (1 + a) - (1 + value a)| ≤ 1 / 2 ^ 53 := by
  have hone : (1 : Float).isFinite := by decide +kernel
  obtain ⟨hlower, hupper⟩ := abs_le.mp hsize
  have hsum := (add_isRounded hone ha).value_of_lt (n := 1) (by norm_num) (by norm_num)
    (by rw [value_one, abs_lt]; constructor <;> norm_num <;> linarith)
  rw [value_one] at hsum
  norm_num at hsum ⊢
  exact hsum

theorem mul_close (ha : a.isFinite) (hb : b.isFinite) (hsize : |value a * value b| < 1) :
    (a * b).isFinite ∧ |value (a * b) - value a * value b| ≤ 1 / 2 ^ 54 := by
  have hproduct := (mul_isRounded ha hb).value_of_lt (n := 0) (by norm_num) (by norm_num)
    (by rwa [zpow_zero])
  norm_num at hproduct ⊢
  exact hproduct

/-- The factor of a small remainder. -/
theorem slope_near_one (hr : r.isFinite) (hsize : |value r| ≤ 1 / 2 ^ 12) :
    (1 + 0.5 * r).isFinite ∧ |value (1 + 0.5 * r)| ≤ 1 + 1 / 2 ^ 11 := by
  have hhalf : (0.5 : Float).isFinite ∧ value 0.5 = 1 / 2 := by decide +kernel
  have hsmall : |value 0.5 * value r| ≤ 1 / 2 ^ 13 := by
    rw [hhalf.2, abs_mul, abs_of_pos one_half_pos]
    linarith
  obtain ⟨hproduct, hclose⟩ := mul_close hhalf.1 hr (hsmall.trans_lt (by norm_num))
  have hhalved : |value (0.5 * r)| ≤ 1 / 2 ^ 12 := by
    linarith [abs_sub_abs_le_abs_sub (value (0.5 * r)) (value 0.5 * value r)]
  obtain ⟨hsum, hclose'⟩ := one_add_close hproduct (hhalved.trans (by norm_num))
  obtain ⟨hlower, hupper⟩ := abs_le.mp hhalved
  obtain ⟨hlower', hupper'⟩ := abs_le.mp hclose'
  exact ⟨hsum, abs_le.mpr ⟨by linarith, by linarith⟩⟩

/-- A small remainder changes the result by less than one part in two thousand. -/
theorem quadratic_near_one (hr : r.isFinite) (hsize : |value r| ≤ 1 / 2 ^ 12) :
    (quadratic 0.5 r).isFinite ∧ |value (quadratic 0.5 r) - 1| ≤ 1 / 2 ^ 11 := by
  obtain ⟨hfinite, hslope⟩ := slope_near_one hr hsize
  have hsmall : |value r * value (1 + 0.5 * r)| ≤ 1 / 2 ^ 12 * (1 + 1 / 2 ^ 11) := by
    rw [abs_mul]
    exact mul_le_mul hsize hslope (abs_nonneg _) (by norm_num)
  obtain ⟨hproduct, hclose⟩ := mul_close hr hfinite (hsmall.trans_lt (by norm_num))
  have hchange : |value (r * (1 + 0.5 * r))| ≤ 1 / 2 ^ 12 * (1 + 1 / 2 ^ 10) := by
    linarith [abs_sub_abs_le_abs_sub (value (r * (1 + 0.5 * r))) (value r * value (1 + 0.5 * r))]
  obtain ⟨hsum, hclose'⟩ := one_add_close hproduct (hchange.trans (by norm_num))
  obtain ⟨hlower, hupper⟩ := abs_le.mp hchange
  obtain ⟨hlower', hupper'⟩ := abs_le.mp hclose'
  unfold quadratic
  exact ⟨hsum, abs_le.mpr ⟨by linarith, by linarith⟩⟩

end Quadratic

/-! ## The product -/

/-- Below the largest number there is room for the quadratic. -/
theorem product_le {e : ℕ} {v w : ℚ} (he : e ≤ 2046) (hv : 0 ≤ v) (hv' : v ≤ 2)
    (htop : e = 2046 → v ≤ 399 / 200) (hw : 0 ≤ w) (hw' : w ≤ 1 + 1 / 2 ^ 11) :
    2 ^ (e - 1023 : ℤ) * v * w ≤ (2 ^ 53 - 1) * 2 ^ (971 : ℤ) := by
  have hpow := two_zpow_pos 971
  have hvw : v * w ≤ v * (1 + 1 / 2 ^ 11) := mul_le_mul_of_nonneg_left hw' hv
  rw [mul_assoc]
  rcases he.lt_or_eq with hlow | rfl
  · have hle : (2 : ℚ) ^ (e - 1023 : ℤ) ≤ 2 ^ (51 + 971 : ℤ) :=
      zpow_le_zpow_right₀ one_le_two (by omega)
    rw [zpow_add₀ two_ne_zero] at hle
    calc (2 : ℚ) ^ (e - 1023 : ℤ) * (v * w)
        ≤ 2 ^ (51 : ℤ) * 2 ^ (971 : ℤ) * (v * w) :=
          mul_le_mul_of_nonneg_right hle (mul_nonneg hv hw)
      _ = 2 ^ (51 : ℤ) * (v * w) * 2 ^ (971 : ℤ) := by ring
      _ ≤ (2 ^ 53 - 1) * 2 ^ (971 : ℤ) :=
          mul_le_mul_of_nonneg_right (by norm_num at hvw ⊢; linarith) hpow.le
  · have hv'' := htop rfl
    have hsplit : (2 : ℚ) ^ ((2046 : ℕ) - 1023 : ℤ) = 2 ^ (52 : ℤ) * 2 ^ (971 : ℤ) := by
      rw [← zpow_add₀ two_ne_zero]
      norm_num
    calc (2 : ℚ) ^ ((2046 : ℕ) - 1023 : ℤ) * (v * w)
        = 2 ^ (52 : ℤ) * (v * w) * 2 ^ (971 : ℤ) := by rw [hsplit]; ring
      _ ≤ (2 ^ 53 - 1) * 2 ^ (971 : ℤ) :=
          mul_le_mul_of_nonneg_right (by norm_num at hvw ⊢; linarith) hpow.le

/-- A product of a normal number and one that is not small does not vanish. -/
theorem product_pos {b c : Float} (hb : b.isFinite) (hc : c.isFinite)
    (hb' : 2 ^ (-1022 : ℤ) ≤ value b) (hc' : 1 / 2 ≤ value c) : 0 < b * c := by
  have hnormal := two_zpow_pos (-1022)
  have hsize : (2 : ℚ) ^ (-1023 : ℤ) ≤ value b * value c := by
    calc (2 : ℚ) ^ (-1023 : ℤ) = 2 ^ (-1022 : ℤ) * (1 / 2) := by
          rw [one_div, ← zpow_neg_one, ← zpow_add₀ two_ne_zero]
          norm_num
      _ ≤ value b * value c := mul_le_mul hb' hc' (by norm_num) (hnormal.le.trans hb')
  have hleast := rounded_of_digits (n := 1) (e := -1023) (by norm_num) (by norm_num)
  rw [Int.cast_one, one_mul] at hleast
  have hrounded := rounded_mono hsize
  rw [hleast] at hrounded
  have hpos := (two_zpow_pos (-1023)).trans_le hrounded
  rw [pos_iff, (mul_isRounded hb hc).value, clamped_of_nonneg hpos.le]
  exact lt_min hpos limit_pos

/-! ## The exponential -/

section Exponential

variable {exp2 : Float → Float} {x : Float} {k : ℤ}

theorem fastBy_eq {stored : Array UInt64} (hx : x.isNaN = false) (hk : steps (clamp x) = Int64.ofInt k) :
    fastBy stored x =
      assemble (biasedExponent (Int64.ofInt k)) (fractionAt stored (Int64.ofInt k).toUInt64) *
        quadratic 0.5 (remainder (clamp x)) := by
  have hnan : ¬ x.isNaN = true := by rw [hx]; decide
  unfold fastBy compose
  rw [if_neg hnan]
  simp only [hk]
  rfl

theorem fractionAt_bounds (exp2 : Float → Float) (k : UInt64) :
    0 ≤ ((fractionAt (tableOf exp2) k).toNat : ℚ) / 2 ^ 52 ∧
      ((fractionAt (tableOf exp2) k).toNat : ℚ) / 2 ^ 52 ≤ 1 := by
  have hlt := toNat_fractionAt_lt exp2 k
  generalize (fractionAt (tableOf exp2) k).toNat = f at hlt ⊢
  refine ⟨by positivity, ?_⟩
  rw [div_le_one (by norm_num)]
  exact_mod_cast hlt.le

/-- Whatever the table holds, the exponential is positive. -/
theorem fastBy_pos (hx : x.isNaN = false) : 0 < fastBy (tableOf exp2) x := by
  obtain ⟨hfinite, hrange⟩ := clamp_inRange hx
  obtain ⟨k, hcount, hsteps, hremainder, hsmall⟩ := exists_stepCount hfinite hrange
  have hword := placed_of_stepCount exp2 hrange hcount
  obtain ⟨hquadratic, hnear⟩ := quadratic_near_one hremainder hsmall
  have hone := hword.one_le
  have hpow : (2 : ℚ) ^ (-1022 : ℤ) ≤ 2 ^ ((biasedExponent (Int64.ofInt k)).toNat - 1023 : ℤ) :=
    zpow_le_zpow_right₀ one_le_two (by omega)
  rw [fastBy_eq hx hsteps]
  refine product_pos hword.isFinite hquadratic ?_ (by linarith [(abs_le.mp hnear).1])
  rw [hword.value_eq]
  exact hpow.trans (le_mul_of_one_le_right (two_zpow_pos _).le
    (le_add_of_nonneg_right (fractionAt_bounds exp2 _).1))

/-- With powers of two in the table, it is finite. -/
theorem PowerOfTwo.isFinite_fastBy (h : PowerOfTwo exp2) (hx : x.isNaN = false) :
    (fastBy (tableOf exp2) x).isFinite := by
  obtain ⟨hfinite, hrange⟩ := clamp_inRange hx
  obtain ⟨k, hcount, hsteps, hremainder, hsmall⟩ := exists_stepCount hfinite hrange
  have hword := placed_of_stepCount exp2 hrange hcount
  have hlast := (hcount.range hrange).2
  have hparts := hword.parts
  obtain ⟨hquadratic, hnear⟩ := quadratic_near_one hremainder hsmall
  obtain ⟨hlower, hupper⟩ := abs_le.mp hnear
  obtain ⟨hfraction, hfraction'⟩ := fractionAt_bounds exp2 (Int64.ofInt k).toUInt64
  have htop : (biasedExponent (Int64.ofInt k)).toNat = 2046 →
      1 + ((fractionAt (tableOf exp2) (Int64.ofInt k).toUInt64).toNat : ℚ) / 2 ^ 52 ≤ 399 / 200 := by
    intro he
    have hindex := tableIndex_lt (Int64.ofInt k).toUInt64
    unfold fractionAt
    rw [getD_tableOf exp2 hindex, h.significand_eq hindex]
    -- the count ends before the last seven places
    exact h.value_le (by omega)
  have hproduct := product_le hword.le_max (by linarith) (by linarith) htop (by linarith)
    (by linarith : value (quadratic 0.5 (remainder (clamp x))) ≤ 1 + 1 / 2 ^ 11)
  have hnonneg : 0 ≤ value (quadratic 0.5 (remainder (clamp x))) := by linarith
  rw [fastBy_eq hx hsteps]
  refine ((mul_isRounded hword.isFinite hquadratic).value_eq (abs_rounded_lt_limit ?_ ?_)).1
  · rw [hword.value_eq]
    exact mul_nonneg (mul_nonneg (two_zpow_pos _).le (by linarith)) hnonneg
  · rwa [hword.value_eq]

end Exponential

/-- **The words** of the table-driven exponential are those of normal numbers, for every real argument
in range and every whole number near its steps.  The steps of a number are such a count, so that its
exponential is positive, and finite with powers of two in the table.  The exponential of the machine is
the one with the machine's own power of two. -/
theorem words_and_positive (exp2 : Float → Float) :
    (∀ (x : ℝ) (k : ℤ), InRange x → StepCount (2 ^ (-20 : ℤ)) x k → Placed (tableOf exp2) k) ∧
      (∀ x : Float, x.isNaN = false → InRange (value (clamp x)) ∧
        (∃ k, StepCount (2 ^ (-20 : ℤ)) (value (clamp x)) k ∧ steps (clamp x) = Int64.ofInt k ∧
          Placed (tableOf exp2) k) ∧ 0 < fastBy (tableOf exp2) x) ∧
      (PowerOfTwo exp2 → ∀ x : Float, x.isNaN = false → (fastBy (tableOf exp2) x).isFinite) := by
  refine ⟨fun x k hx hk => placed_of_stepCount exp2 hx hk, fun x hx => ?_,
    fun h x hx => h.isFinite_fastBy hx⟩
  obtain ⟨hfinite, hrange⟩ := clamp_inRange hx
  obtain ⟨k, hcount, hsteps, -, -⟩ := exists_stepCount hfinite hrange
  exact ⟨hrange, ⟨k, hcount, hsteps, placed_of_stepCount exp2 hrange hcount⟩, fastBy_pos hx⟩

/-! ### A power of two -/

section Nearest

/-- The power of two for an exponent from zero to one, rounded to 52 places. -/
noncomputable def nearestPower (y : Float) : Float :=
  Float.ofBits (UInt64.ofNat (1023 * 2 ^ 52 + nearestFraction (value y)))

theorem value_nearestPower {y : Float} {n : ℕ} (hn : n < 2 ^ 52) (h : nearestFraction (value y) = n) :
    value (nearestPower y) = 1 + n / 2 ^ 52 := by
  have hword : (UInt64.ofNat (1023 * 2 ^ 52 + n)).toNat = 1023 * 2 ^ 52 + n :=
    Nat.mod_eq_of_lt (by omega)
  unfold nearestPower
  rw [h, (value_ofBits hword (by norm_num) (by norm_num) hn).2]
  norm_num

theorem value_place {j : ℕ} (hj : j < tableSize) : value (Float.ofNat j / 2048.0) = j / 2048 := by
  have hsteps : (2048.0 : Float).isFinite ∧ value 2048.0 = 2048 := by decide +kernel
  have hj' : j < 2048 := hj
  obtain ⟨hfinite, hvalue⟩ := value_ofNat (n := j) (by omega)
  have hquotient := div_isRounded hfinite hsteps.1 (by rw [hsteps.2]; norm_num)
  have hdigits := rounded_of_digits (n := j) (e := -11) (abs_lt.mpr ⟨by omega, by omega⟩) (by norm_num)
  have hexact : ((j : ℤ) : ℚ) * 2 ^ (-11 : ℤ) = j / 2048 := by norm_num; ring
  rw [hvalue, hsteps.2] at hquotient
  rw [hexact] at hdigits
  have hsize : |(j : ℚ) / 2048| < 2 ^ (0 : ℤ) := by
    have hcast : (j : ℚ) < 2048 := by exact_mod_cast hj'
    rw [zpow_zero, abs_of_nonneg (by positivity), div_lt_one (by norm_num)]
    exact hcast
  obtain ⟨hfinite', -⟩ := hquotient.value_of_lt (by norm_num) (by norm_num) hsize
  rw [hquotient.value_of_isFinite hfinite', hdigits]

theorem powerOfTwo_nearestPower : PowerOfTwo nearestPower := by
  constructor
  · have hfraction : nearestFraction (value 0) = 0 := by
      have hzero : value 0 = 0 := rfl
      unfold nearestFraction
      rw [hzero, Rat.cast_zero, Real.rpow_zero, sub_self, zero_mul, zero_add, Nat.floor_eq_zero]
      norm_num
    rw [value_nearestPower (by norm_num) hfraction]
    norm_num
  · intro j hj
    have hplace : ((value (Float.ofNat j / 2048.0) : ℚ) : ℝ) = j / 2048 := by
      rw [value_place hj]
      push_cast
      rfl
    have hle := two_rpow_le (n := 1) (show j + 1 ≤ 2048 from hj)
    have hone : 1 ≤ (2 : ℝ) ^ (j / 2048 : ℝ) := Real.one_le_rpow one_le_two (by positivity)
    obtain ⟨n, hfraction⟩ : ∃ n, nearestFraction (j / 2048) = n := ⟨_, rfl⟩
    have hfloor : ⌊((2 : ℝ) ^ (j / 2048 : ℝ) - 1) * 2 ^ 52 + 1 / 2⌋₊ = n := hfraction
    have hbelow := Nat.floor_le (a := ((2 : ℝ) ^ (j / 2048 : ℝ) - 1) * 2 ^ 52 + 1 / 2) (by linarith)
    have habove := Nat.lt_floor_add_one (((2 : ℝ) ^ (j / 2048 : ℝ) - 1) * 2 ^ 52 + 1 / 2)
    rw [hfloor] at hbelow habove
    have hn : n < 2 ^ 52 := by
      have hcast : (n : ℝ) < 2 ^ 52 := by
        norm_num at hle hbelow
        linarith
      exact_mod_cast hcast
    rw [value_nearestPower hn (by rw [hplace]; exact hfraction), abs_le]
    push_cast
    constructor <;> linarith

/-- At the lower end of the range, where nineteen steps are left above the numbers that are not
normal. -/
theorem words_and_positive_at_minArgument :
    InRange (value minArgument) ∧ Placed (tableOf nearestPower) (-2093037) ∧
      0 < fastBy (tableOf nearestPower) minArgument ∧ PowerOfTwo nearestPower ∧
      (fastBy (tableOf nearestPower) minArgument).isFinite := by
  have hrange : InRange (value minArgument) := ⟨le_rfl, Rat.cast_le.mpr minArgument_le_maxArgument⟩
  have hcount : StepCount (2 ^ (-20 : ℤ)) (value minArgument) (-2093037) := by
    have hlower := Real.log_two_gt_d9
    have hupper := Real.log_two_lt_d9
    rw [stepCount_iff, value_minArgument]
    push_cast
    constructor <;> norm_num <;> linarith
  obtain ⟨hwords, hpositive, hfinite⟩ := words_and_positive nearestPower
  exact ⟨hrange, hwords _ _ hrange hcount, (hpositive minArgument rfl).2.2, powerOfTwo_nearestPower,
    hfinite powerOfTwo_nearestPower minArgument rfl⟩

end Nearest

end CurveFit.Exponential
