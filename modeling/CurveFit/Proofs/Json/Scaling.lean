import CurveFit.Proofs.Json.Reals

/-!
# Reading real numbers

A real number is read by one multiplication or division by a power of ten.  The product stays below
the limit of the format for what has been written of a finite number (`isSome_reread?`), and there is
no rounding but the last one if the digits and the power of ten are numbers of the format
(`reread?_of_brief`).
-/

namespace CurveFit.Json

open Text Binary64 Float.Model

/-! ## Powers of ten -/

/-- The first powers of ten are numbers of the format. -/
theorem tenTo_exact : ∀ n < 23, (tenTo n).isFinite ∧ value (tenTo n) = 10 ^ n := by
  decide +kernel

theorem tenTo_isRounded {n : ℕ} (hn : n ≤ 2 ^ 11) : IsRounded (tenTo n) (10 ^ n) := by
  rcases lt_or_ge n 23 with hlt | hge
  · obtain ⟨hfinite, hvalue⟩ := tenTo_exact n hlt
    rw [← hvalue]
    exact value_isRounded (isNaN_of_isFinite hfinite)
  · have hfloat : tenTo n = ⟨Float.Model.ofScientific 1 n⟩ := by
      unfold tenTo Float.ofScientific
      rw [dif_neg (by omega)]
      rfl
    have hrounds := (ofScientific_rounds one_pos hn).pack
    rw [one_mul] at hrounds
    rw [hfloat]
    exact_mod_cast hrounds

/-! ## Room for two roundings -/

section Size

variable {q : ℚ}

/-- What lies near a number with room above it has room for two roundings. -/
theorem mul_le_of_near {m : ℕ} {e : ℤ} (hdigits : Digits m e) (he : e ≤ 971)
    (hlarge : e = 971 → m ≤ 2 ^ 53 - 4) (h : Near m e q) :
    q * (1 + 1 / 2 ^ 53) ^ 2 ≤ (2 ^ 53 - 1) * 2 ^ (971 : ℤ) := by
  have hupper := mul_le_mul_of_nonneg_right h.upper (by positivity : (0 : ℚ) ≤ (1 + 1 / 2 ^ 53) ^ 2)
  refine hupper.trans ?_
  rw [mul_right_comm]
  rcases he.eq_or_lt with rfl | hlt
  · have hm : (m : ℚ) ≤ 2 ^ 53 - 4 := by
      have hcast : (m : ℚ) ≤ ((2 ^ 53 - 4 : ℕ) : ℚ) := Nat.cast_le.mpr (hlarge rfl)
      norm_num at hcast ⊢
      exact hcast
    refine mul_le_mul_of_nonneg_right ?_ (two_zpow_pos _).le
    calc ((m : ℚ) + 1 / 2) * (1 + 1 / 2 ^ 53) ^ 2
        ≤ (2 ^ 53 - 4 + 1 / 2) * (1 + 1 / 2 ^ 53) ^ 2 :=
          mul_le_mul_of_nonneg_right (by linarith) (by positivity)
      _ ≤ 2 ^ 53 - 1 := by norm_num
  · have hm : (m : ℚ) + 1 ≤ 2 ^ 53 := by exact_mod_cast hdigits.upper
    have hhalf : (2 : ℚ) ^ e ≤ 2 ^ (971 : ℤ) / 2 := by
      rw [div_eq_mul_inv, ← zpow_sub_one₀ (two_ne_zero' ℚ)]
      exact zpow_le_zpow_right₀ one_le_two (by omega)
    calc ((m : ℚ) + 1 / 2) * (1 + 1 / 2 ^ 53) ^ 2 * 2 ^ e
        ≤ 2 ^ 53 * (1 + 1 / 2 ^ 53) ^ 2 * (2 ^ (971 : ℤ) / 2) :=
          mul_le_mul (mul_le_mul_of_nonneg_right (by linarith) (by positivity)) hhalf
            (two_zpow_pos _).le (by positivity)
      _ = 2 ^ 53 * (1 + 1 / 2 ^ 53) ^ 2 / 2 * 2 ^ (971 : ℤ) := by ring
      _ ≤ (2 ^ 53 - 1) * 2 ^ (971 : ℤ) :=
          mul_le_mul_of_nonneg_right (by norm_num) (two_zpow_pos _).le

end Size

/-! ## Digits and powers of ten -/

theorem ofNat_ne_zero {n : ℕ} (hn : 0 < n) : ¬ Float.ofNat n == 0.0 :=
  not_beq_zero (one_pos.trans_le (one_le_value_ofNat hn))

/-- The digits of a numeral are rounded once. -/
theorem value_ofNat_of_le {n : ℕ} (hn : n ≤ 10 ^ 17) :
    (Float.ofNat n).isFinite ∧ value (Float.ofNat n) = rounded n := by
  refine (ofNat_isRounded n).value_eq (abs_rounded_lt_limit (Nat.cast_nonneg n) ?_)
  calc (n : ℚ) ≤ 10 ^ 17 := by exact_mod_cast hn
    _ ≤ (2 ^ 53 - 1) * 2 ^ (10 : ℤ) := by norm_num
    _ ≤ (2 ^ 53 - 1) * 2 ^ (971 : ℤ) :=
        mul_le_mul_of_nonneg_left (zpow_le_zpow_right₀ one_le_two (by norm_num)) (by norm_num)

/-- So is a power of ten that the reader uses. -/
theorem value_tenTo {n : ℕ} (hn : n ≤ 308) :
    (tenTo n).isFinite ∧ value (tenTo n) = rounded (10 ^ n) := by
  have hlargest : 10 ^ 308 ≤ (2 ^ 53 - 1) * 2 ^ 971 := by decide +kernel
  have hbound : (10 : ℚ) ^ 308 ≤ (2 ^ 53 - 1) * 2 ^ (971 : ℤ) := by
    have hcast : ((10 ^ 308 : ℕ) : ℚ) ≤ (((2 ^ 53 - 1) * 2 ^ 971 : ℕ) : ℚ) := Nat.cast_le.mpr hlargest
    rwa [Nat.cast_mul, Nat.cast_pow, Nat.cast_pow 2 971, ← zpow_natCast _ 971,
      Nat.cast_sub Nat.one_le_two_pow, Nat.cast_pow] at hcast
  exact (tenTo_isRounded (by omega)).value_eq (abs_rounded_lt_limit (by positivity)
    ((pow_le_pow_right₀ (by norm_num) hn).trans hbound))

/-! ## Scaling -/

theorem scale?_of_nonneg (f : Float) {e : ℤ} (he : 0 ≤ e) (he' : e ≤ 308) :
    scale? f e = if (f * tenTo e.toNat).isInf then none else some (f * tenTo e.toNat) := by
  rw [scale?, if_pos he, if_pos he']

theorem scale?_of_neg (f : Float) {e : ℤ} (he : e < 0) (he' : -308 ≤ e) :
    scale? f e = some (f / tenTo (-e).toNat) := by
  rw [scale?, if_neg he.not_ge, if_pos he']

theorem scale?_of_far {f : Float} {e : ℤ} (hf : ¬ f == 0.0) (he : e < -308) :
    scale? f e = scale? (f / tenTo 308) (e + 308) := by
  rw [scale?, if_neg (by omega), if_neg he.not_ge, if_neg hf]

/-- What is scaled upwards has an exponent within the range, and stays finite. -/
theorem scale?_nonneg_eq_some {f y : Float} {e : ℤ} (hf : ¬ f == 0.0) (he : 0 ≤ e)
    (h : scale? f e = some y) : e ≤ 308 ∧ y = f * tenTo e.toNat ∧ y.isInf = false := by
  rcases le_or_gt e 308 with hsmall | hlarge
  · rw [scale?_of_nonneg f he hsmall] at h
    split_ifs at h with hinf
    cases h
    exact ⟨hsmall, rfl, Bool.eq_false_iff.mpr hinf⟩
  · rw [scale?, if_pos he, if_neg hlarge.not_ge, if_neg hf] at h
    cases h

theorem div_ten_pow_toNat (q : ℚ) {e : ℤ} (he : e ≤ 0) : q / 10 ^ (-e).toNat = q * 10 ^ e := by
  rw [← zpow_natCast, Int.toNat_of_nonneg (by omega), zpow_neg, div_inv_eq_mul]

/-- Scaling downwards is never refused. -/
theorem isSome_scale?_of_neg (f : Float) {e : ℤ} (he : e < 0) : (scale? f e).isSome := by
  rw [scale?, if_neg he.not_ge]
  split_ifs with hnear hzero
  · rfl
  · rfl
  · exact isSome_scale?_of_neg _ (by omega)
termination_by (-e).toNat

section Range

variable {m : ℕ} {e : ℤ} {d : Decimal}

/-- Scaling what lies near a number is not refused, unless the number is one of the largest three. -/
theorem isSome_scale?_of_near (hpos : 0 < d.digits) (hle : d.digits ≤ 10 ^ 17)
    (hexp : 0 ≤ d.exponent) (hdigits : Digits m e) (he : e ≤ 971)
    (hlarge : e = 971 → m ≤ 2 ^ 53 - 4) (hnear : Near m e d.value) :
    (scale? (Float.ofNat d.digits) d.exponent).isSome := by
  have hfirst : (1 : ℚ) ≤ d.digits := by exact_mod_cast hpos
  have hten : (1 : ℚ) ≤ 10 ^ d.exponent := one_le_zpow₀ (by norm_num) hexp
  have htwice := mul_le_of_near hdigits he hlarge hnear
  have hvalue : d.value ≤ (2 ^ 53 - 1) * 2 ^ (971 : ℤ) := by
    refine le_trans (le_mul_of_one_le_right ?_ (by norm_num)) htwice
    exact mul_nonneg (by linarith) (by linarith)
  have hpower : (10 : ℚ) ^ d.exponent ≤ (2 ^ 53 - 1) * 2 ^ (971 : ℤ) :=
    (le_mul_of_one_le_left (ten_zpow_pos _).le hfirst).trans hvalue
  have hnat : (10 : ℚ) ^ d.exponent.toNat = 10 ^ d.exponent := by
    rw [← zpow_natCast, Int.toNat_of_nonneg hexp]
  have hsmall : d.exponent ≤ 308 := by
    by_contra hbig
    have hnat' : 2 ^ 1024 < 10 ^ 309 := by decide +kernel
    have hlimit : limit < 10 ^ (309 : ℤ) := by
      have hcast : ((2 ^ 1024 : ℕ) : ℚ) < ((10 ^ 309 : ℕ) : ℚ) := Nat.cast_lt.mpr hnat'
      rwa [Nat.cast_pow, Nat.cast_pow, ← zpow_natCast, ← zpow_natCast] at hcast
    have hless := lt_limit
    have hmono : (10 : ℚ) ^ (309 : ℤ) ≤ 10 ^ d.exponent :=
      zpow_le_zpow_right₀ (by norm_num) (by omega)
    exact (hmono.trans (hpower.trans hless.le)).not_gt hlimit
  obtain ⟨hfinite, hfirst'⟩ := value_ofNat_of_le hle
  obtain ⟨hfinite', hten'⟩ := value_tenTo (n := d.exponent.toNat) (by omega)
  have hproduct := mul_isRounded hfinite hfinite'
  rw [hfirst', hten', hnat] at hproduct
  have hbound : rounded d.digits * rounded (10 ^ d.exponent) ≤ (2 ^ 53 - 1) * 2 ^ (971 : ℤ) := by
    calc rounded d.digits * rounded (10 ^ d.exponent)
        ≤ d.digits * (1 + 1 / 2 ^ 53) * (10 ^ d.exponent * (1 + 1 / 2 ^ 53)) :=
          mul_le_mul (rounded_le_mul hfirst) (rounded_le_mul hten)
            (rounded_nonneg (ten_zpow_pos _).le) (by positivity)
      _ = d.value * (1 + 1 / 2 ^ 53) ^ 2 := by
          unfold Decimal.value
          ring
      _ ≤ _ := htwice
  obtain ⟨hfinite'', -⟩ := hproduct.value_eq (abs_rounded_lt_limit
    (mul_nonneg (rounded_nonneg (Nat.cast_nonneg _)) (rounded_nonneg (ten_zpow_pos _).le)) hbound)
  rw [scale?_of_nonneg _ hexp hsmall, (isFinite_iff_special.mp hfinite'').2]
  rfl

/-- The largest three numbers are scaled without becoming infinite. -/
theorem largest_scaled : ∀ k < 3, ∀ negative,
    let d := shortestOf ⟨negative, 2 ^ 53 - 1 - k, 971⟩ .toEven
    0 ≤ d.exponent ∧ d.exponent ≤ 308 ∧
      (Float.ofNat d.digits * tenTo d.exponent.toNat).isInf = false := by
  decide +kernel

end Range

/-- **The reader refuses no number** that has been written. -/
theorem isSome_reread? {x : Float} (hx : x.isFinite) : (reread? x).isSome := by
  unfold reread?
  rw [Option.isSome_map]
  unfold written
  split_ifs with hzero
  · exact isSome_scale?_of_neg _ (by decide)
  obtain ⟨hpos, hdigits, he⟩ := parts_spec hx hzero
  obtain ⟨hfirst, hle, hnear⟩ := shortestOf_spec hpos hdigits.upper .toEven
  unfold shown
  split_ifs with hwhole
  · exact isSome_scale?_of_neg _ (show (-1 : ℤ) < 0 by decide)
  rcases lt_or_ge (shortestOf (parts x) .toEven).exponent 0 with hneg | hnonneg
  · exact isSome_scale?_of_neg _ hneg
  by_cases hlarge : (parts x).exponent = 971 → (parts x).significand ≤ 2 ^ 53 - 4
  · exact isSome_scale?_of_near hfirst hle hnonneg hdigits he hlarge hnear
  · obtain ⟨hexp, hsig⟩ := Classical.not_imp.mp hlarge
    have hparts : parts x = ⟨(parts x).negative,
        2 ^ 53 - 1 - (2 ^ 53 - 1 - (parts x).significand), 971⟩ := by
      rw [Nat.sub_sub_self (Nat.le_sub_one_of_lt hdigits.upper), ← hexp]
    have hlast := largest_scaled (2 ^ 53 - 1 - (parts x).significand) (by omega) (parts x).negative
    rw [← hparts] at hlast
    obtain ⟨-, hsmall, hinf⟩ := hlast
    show (scale? _ _).isSome
    rw [scale?_of_nonneg _ hnonneg hsmall, hinf]
    rfl

/-! ## Exact scaling -/

section Exact

variable {n : ℕ} {e : ℤ}

/-- Digits and a power of ten that are numbers of the format are rounded once. -/
theorem scale?_isRounded (hn : n < 2 ^ 53) (he : |e| ≤ 22) {y : Float}
    (h : scale? (Float.ofNat n) e = some y) : y.isFinite ∧ value y = rounded (n * 10 ^ e) := by
  obtain ⟨hlower, hupper⟩ := abs_le.mp he
  obtain ⟨hfinite, hvalue⟩ := value_ofNat hn
  have hn' : (n : ℚ) ≤ 2 ^ 53 - 1 := by
    have hcast : (n : ℚ) + 1 ≤ 2 ^ 53 := by exact_mod_cast hn
    linarith
  have hround : IsRounded y (n * 10 ^ e) := by
    rcases lt_or_ge e 0 with hneg | hnonneg
    · obtain ⟨hfinite', hvalue'⟩ := tenTo_exact (-e).toNat (by omega)
      rw [scale?_of_neg _ hneg (by omega)] at h
      cases h
      have hquotient := div_isRounded hfinite hfinite' (by
        rw [hvalue']
        positivity)
      rwa [hvalue, hvalue', div_ten_pow_toNat _ hneg.le] at hquotient
    · obtain ⟨hfinite', hvalue'⟩ := tenTo_exact e.toNat (by omega)
      rw [scale?_of_nonneg _ hnonneg (by omega)] at h
      split_ifs at h
      cases h
      have hproduct := mul_isRounded hfinite hfinite'
      rwa [hvalue, hvalue', ← zpow_natCast, Int.toNat_of_nonneg hnonneg] at hproduct
  refine hround.value_eq (abs_rounded_lt_limit (mul_nonneg (Nat.cast_nonneg n) (ten_zpow_pos e).le) ?_)
  calc (n : ℚ) * 10 ^ e ≤ (2 ^ 53 - 1) * 10 ^ (22 : ℤ) :=
        mul_le_mul hn' (zpow_le_zpow_right₀ (by norm_num) hupper) (ten_zpow_pos e).le (by norm_num)
    _ ≤ (2 ^ 53 - 1) * 2 ^ (74 : ℤ) := mul_le_mul_of_nonneg_left (by norm_num) (by norm_num)
    _ ≤ (2 ^ 53 - 1) * 2 ^ (971 : ℤ) :=
        mul_le_mul_of_nonneg_left (zpow_le_zpow_right₀ one_le_two (by norm_num)) (by norm_num)

end Exact

/-- A zero is read back with its sign. -/
theorem reread?_of_zero {x : Float} (hx : IsZero x) : reread? x = some x := by
  have hquotient : parts (Float.ofNat 0 / tenTo 1) = ⟨false, 0, -1074⟩ ∧
      (Float.ofNat 0 / tenTo 1).isFinite := by decide +kernel
  obtain ⟨hparts, hfinite⟩ := hquotient
  have hscaled : scale? (Float.ofNat 0) (-1) = some (Float.ofNat 0 / tenTo 1) :=
    scale?_of_neg _ (by decide) (by decide)
  have hwritten : written x = (0, -1) := if_pos (beq_zero_iff.mpr hx)
  obtain ⟨s, hs⟩ := hx
  have hx' : parts x = ⟨isMinus s, 0, -1074⟩ := by rw [parts_eq (IsZero.isFinite ⟨s, hs⟩), hs]; rfl
  unfold reread?
  rw [hwritten]
  show (scale? _ _).map _ = _
  rw [hscaled, Option.map_some, ← parts_negative, hx']
  refine congrArg some (eq_of_parts_eq ?_)
  cases s with
  | positive => exact hparts.trans hx'.symm
  | negative => exact ((parts_neg hfinite).trans (by rw [hparts]; rfl)).trans hx'.symm

/-- **A number with few digits**, and no large exponent, is read back. -/
theorem reread?_of_brief {x : Float} (hx : x.isFinite) (hdigits : (written x).1 < 2 ^ 53)
    (hexp : |(written x).2| ≤ 22) : reread? x = some x := by
  by_cases hzero : x == 0.0
  · exact reread?_of_zero (beq_zero_iff.mp hzero)
  obtain ⟨hpos, hstored, -⟩ := parts_spec hx hzero
  obtain ⟨-, hnear⟩ := near_written hx hzero
  obtain ⟨z, hz⟩ := Option.isSome_iff_exists.mp (isSome_reread? hx)
  obtain ⟨y, hy, rfl⟩ := Option.map_eq_some_iff.mp hz
  obtain ⟨hfinite, hvalue⟩ := scale?_isRounded hdigits hexp hy
  rw [hnear.rounded_eq hpos hstored] at hvalue
  have hparts := parts_of_value hfinite hpos hstored hvalue
  rw [hz]
  refine congrArg some (eq_of_parts_eq ?_)
  by_cases hnegative : isNegative x
  · rw [if_pos hnegative, parts_neg hfinite, hparts]
    rw [← parts_negative] at hnegative
    exact congrArg (Parts.mk · _ _) hnegative.symm
  · rw [if_neg hnegative, hparts]
    rw [← parts_negative, Bool.not_eq_true] at hnegative
    exact congrArg (Parts.mk · _ _) hnegative.symm

end CurveFit.Json
