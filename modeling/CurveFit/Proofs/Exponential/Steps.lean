import CurveFit.Proofs.Exponential.Range

/-!
# Table steps of the binary64 numbers

The sum of `1.5 * 2 ^ 52` and a number below `2 ^ 50` has no fraction: it is the nearest whole number,
held in the low bits, and taking `1.5 * 2 ^ 52` away again is exact (`exists_whole`).  So the word that
is read from the bits of the sum is the nearest whole number of table steps, up to the rounding of the
product and of the constants (`exists_stepCount`), and little is left of the argument.
-/

namespace CurveFit.Exponential

open CurveFit.Binary64

/-! ## The shifted sum -/

theorem value_shift : value shift = 3 * 2 ^ 51 := by decide +kernel

theorem toNat_shift : shift.toBits.toNat = 1075 * 2 ^ 52 + 2 ^ 51 := by decide +kernel

/-- **Shifting** a number rounds it to a whole one, which the bits of the sum count. -/
theorem exists_whole {x : Float} (hx : x.isFinite) (hsize : |value x| ≤ 2 ^ 50) :
    ∃ k : ℤ, |k - value x| ≤ 1 / 2 ∧ ((x + shift).toBits.toNat : ℤ) = shift.toBits.toNat + k ∧
      (x + shift - shift).isFinite ∧ value (x + shift - shift) = k := by
  obtain ⟨hlower, hupper⟩ := abs_le.mp hsize
  have hshift : shift.isFinite := by decide +kernel
  have hsum := add_isRounded hx hshift
  rw [value_shift] at hsum
  obtain ⟨m, hm, hm', hclose, hfinite, hvalue⟩ := hsum.exists_whole (by linarith) (by linarith)
  have hparts : parts (x + shift) = ⟨false, m, 0⟩ :=
    parts_of_value hfinite (by omega) ⟨hm', by norm_num, .inl hm⟩ (by rw [hvalue, zpow_zero, mul_one])
  have hdifference := sub_isRounded hfinite hshift
  have hexact : value (x + shift) - value shift = ((m - 3 * 2 ^ 51 : ℤ) : ℚ) := by
    rw [hvalue, value_shift]
    push_cast
    ring
  rw [hexact] at hdifference
  have hcloseness : ((m - 3 * 2 ^ 51 : ℤ) : ℚ) - value x = m - (value x + 3 * 2 ^ 51) := by
    push_cast
    ring
  refine ⟨m - 3 * 2 ^ 51, ?_, ?_, hdifference.value_of_int (abs_lt.mpr ⟨?_, ?_⟩)⟩
  · rwa [hcloseness]
  · rw [toNat_toBits hm hparts, toNat_shift]
    push_cast
    ring
  · omega
  · omega

/-! ## Constants -/

theorem value_scale : value scale = 6497320848556798 / 2 ^ 41 := by decide +kernel

theorem value_inverseScale : value inverseScale = 6243314768165359 / 2 ^ 64 := by decide +kernel

theorem value_ln2 : value ln2 = 6243314768165359 / 2 ^ 53 := by decide +kernel

/-- The stored logarithm of two, by 52 terms of the series at one half. -/
theorem abs_log_two_sub_le : |Real.log 2 - value ln2| ≤ 1 / 2 ^ 50 := by
  have hseries := Real.abs_log_sub_add_sum_range_le (x := 1 / 2) (by norm_num [abs_of_pos]) 52
  have hhalf : Real.log (1 - 1 / 2) = -Real.log 2 := by
    rw [← Real.log_inv]
    norm_num
  rw [hhalf] at hseries
  rw [value_ln2]
  norm_num [Finset.sum_range_succ, abs_of_pos] at hseries ⊢
  rw [abs_le] at hseries ⊢
  constructor <;> linarith [hseries.1, hseries.2]

/-- The steps of one unit of the argument. -/
theorem abs_scale_sub_le : |(value scale : ℝ) - 2048 / Real.log 2| ≤ 1 / 2 ^ 37 := by
  obtain ⟨hlower, hupper⟩ := abs_le.mp abs_log_two_sub_le
  rw [value_ln2] at hlower hupper
  push_cast at hlower hupper
  have hhalf : 1 / 2 ≤ Real.log 2 := by linarith [Real.log_two_gt_d9]
  have hpos : 0 < Real.log 2 := by linarith
  have hproduct : |(value scale : ℝ) * Real.log 2 - 2048| ≤ 1 / 2 ^ 38 := by
    rw [value_scale, abs_le]
    push_cast
    constructor <;> linarith
  rw [sub_div' hpos.ne', abs_div, abs_of_pos hpos, div_le_iff₀ hpos]
  linarith

/-! ## Clamped arguments -/

section Clamp

variable {x : Float}

theorem minArgument_le_maxArgument : value minArgument ≤ value maxArgument := by
  rw [value_minArgument, value_maxArgument]
  norm_num

/-- What is clamped lies in the range of the table. -/
theorem clamp_inRange (hx : x.isNaN = false) : (clamp x).isFinite ∧ InRange (value (clamp x)) := by
  have hmin : minArgument.isFinite := by decide +kernel
  have hmax : maxArgument.isFinite := by decide +kernel
  have hle : (value minArgument : ℝ) ≤ value maxArgument := Rat.cast_le.mpr minArgument_le_maxArgument
  unfold clamp
  split_ifs with hbelow habove
  · exact ⟨hmin, le_rfl, hle⟩
  · exact ⟨hmax, hle, le_rfl⟩
  · have hlower : value minArgument ≤ value x :=
      not_lt.mp fun h => hbelow (lt_iff_value.mpr ⟨hx, rfl, h⟩)
    have hupper : value x ≤ value maxArgument :=
      not_lt.mp fun h => habove (lt_iff_value.mpr ⟨rfl, hx, h⟩)
    refine ⟨?_, Rat.cast_le.mpr hlower, Rat.cast_le.mpr hupper⟩
    exact isFinite_of_le hmin hmax (le_iff_value.mpr ⟨rfl, hx, hlower⟩)
      (le_iff_value.mpr ⟨hx, rfl, hupper⟩)

end Clamp

/-! ## From the argument to its steps -/

section Steps

variable {x : Float}

theorem InRange.abs_value_le (hx : InRange (value x)) : |value x| ≤ 710 := by
  obtain ⟨hmin, hmax⟩ := hx
  rw [Rat.cast_le, value_minArgument] at hmin
  rw [Rat.cast_le, value_maxArgument] at hmax
  exact abs_le.mpr ⟨by linarith, by linarith⟩

/-- The difference of two words that are read as signed ones. -/
theorem toInt64_sub {a b : UInt64} {k : ℤ} (h : (a.toNat : ℤ) = b.toNat + k) :
    a.toInt64 - b.toInt64 = Int64.ofInt k := by
  have hword : ∀ w : UInt64, w.toInt64 = Int64.ofInt w.toNat := by
    intro w
    apply Int64.toBitVec_inj.mp
    show w.toBitVec = BitVec.ofInt 64 w.toBitVec.toNat
    rw [BitVec.ofInt_natCast, BitVec.ofNat_toNat, BitVec.setWidth_eq]
  have hk : k = a.toNat - b.toNat := by omega
  rw [hword, hword, hk, Int64.ofInt_sub]

/-- The product with the steps of one unit. -/
theorem scaled_of_inRange (hfinite : x.isFinite) (hx : InRange (value x)) :
    (x * scale).isFinite ∧ |value (x * scale) - value x * value scale| ≤ 1 / 2 ^ 32 := by
  obtain ⟨hlower, hupper⟩ := abs_le.mp hx.abs_value_le
  have hscale : scale.isFinite := by decide +kernel
  have hsize : |value x * value scale| < 2 ^ (22 : ℤ) := by
    rw [value_scale, abs_lt]
    constructor <;> norm_num <;> linarith
  have hproduct := (mul_isRounded hfinite hscale).value_of_lt (by norm_num) (by norm_num) hsize
  norm_num at hproduct ⊢
  exact hproduct

/-- The nearest whole number of the machine is near the true number of steps. -/
theorem stepCount_of_near {k : ℤ} (hfinite : x.isFinite) (hx : InRange (value x))
    (hk : |k - value (x * scale)| ≤ 1 / 2) : StepCount (2 ^ (-20 : ℤ)) (value x) k := by
  have hscaled := (Rat.cast_le (K := ℝ)).mpr (scaled_of_inRange hfinite hx).2
  have hnear := (Rat.cast_le (K := ℝ)).mpr hk
  have hsize := (Rat.cast_le (K := ℝ)).mpr hx.abs_value_le
  push_cast at hscaled hnear hsize
  have hconstant : |(value x : ℝ) * value scale - value x * (2048 / Real.log 2)| ≤
      710 * (1 / 2 ^ 37) := by
    rw [← mul_sub, abs_mul]
    exact mul_le_mul hsize abs_scale_sub_le (abs_nonneg _) (by norm_num)
  unfold StepCount
  rw [mul_div_assoc]
  calc |(k : ℝ) - value x * (2048 / Real.log 2)|
      ≤ |(k : ℝ) - value (x * scale)| + |(value (x * scale) : ℝ) - value x * (2048 / Real.log 2)| :=
        abs_sub_le ..
    _ ≤ |(k : ℝ) - value (x * scale)| + (|(value (x * scale) : ℝ) - value x * value scale| +
          |(value x : ℝ) * value scale - value x * (2048 / Real.log 2)|) :=
        add_le_add_right (abs_sub_le ..) _
    _ ≤ 1 / 2 + 2 ^ (-20 : ℤ) := by norm_num at hnear hscaled hconstant ⊢; linarith

/-- What is left of the argument. -/
theorem remainder_of_near {k : ℤ} (hfinite : x.isFinite) (hx : InRange (value x))
    (hk : |k - value (x * scale)| ≤ 1 / 2) (hwhole : (x * scale + shift - shift).isFinite)
    (hvalue : value (x * scale + shift - shift) = k) :
    (remainder x).isFinite ∧ |value (remainder x)| ≤ 1 / 2 ^ 12 := by
  obtain ⟨hlower, hupper⟩ := abs_le.mp hx.abs_value_le
  obtain ⟨hlower', hupper'⟩ := abs_le.mp (scaled_of_inRange hfinite hx).2
  obtain ⟨hbelow, habove⟩ := abs_le.mp hk
  rw [value_scale] at hlower' hupper'
  have hinverse : inverseScale.isFinite := by decide +kernel
  have hsize : |value (x * scale + shift - shift) * value inverseScale| < 2 ^ (10 : ℤ) := by
    rw [hvalue, value_inverseScale, abs_lt]
    constructor <;> norm_num <;> linarith
  obtain ⟨hproduct, hclose⟩ :=
    (mul_isRounded hwhole hinverse).value_of_lt (by norm_num) (by norm_num) hsize
  rw [hvalue, value_inverseScale, abs_le] at hclose
  norm_num at hclose
  obtain ⟨hclose, hclose'⟩ := hclose
  have hsmall : |value x - value ((x * scale + shift - shift) * inverseScale)| < 2 ^ (-12 : ℤ) := by
    rw [abs_lt]
    constructor <;> norm_num <;> linarith
  obtain ⟨hremainder, hrest⟩ :=
    (sub_isRounded hfinite hproduct).value_of_lt (by norm_num) (by norm_num) hsmall
  refine ⟨hremainder, ?_⟩
  unfold remainder
  rw [abs_le] at hrest ⊢
  norm_num at hrest ⊢
  constructor <;> linarith

/-- **The steps** of an argument in range are a count near it, and less than a step is left. -/
theorem exists_stepCount (hfinite : x.isFinite) (hx : InRange (value x)) :
    ∃ k, StepCount (2 ^ (-20 : ℤ)) (value x) k ∧ steps x = Int64.ofInt k ∧
      (remainder x).isFinite ∧ |value (remainder x)| ≤ 1 / 2 ^ 12 := by
  obtain ⟨hscaled, hclose⟩ := scaled_of_inRange hfinite hx
  have hsize : |value (x * scale)| ≤ 2 ^ 50 := by
    obtain ⟨hlower, hupper⟩ := abs_le.mp hx.abs_value_le
    rw [value_scale, abs_le] at hclose
    exact abs_le.mpr ⟨by linarith [hclose.1], by linarith [hclose.2]⟩
  obtain ⟨k, hnear, hbits, hwhole, hvalue⟩ := exists_whole hscaled hsize
  exact ⟨k, stepCount_of_near hfinite hx hnear, toInt64_sub hbits,
    remainder_of_near hfinite hx hnear hwhole hvalue⟩

end Steps

end CurveFit.Exponential
