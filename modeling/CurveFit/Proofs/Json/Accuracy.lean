import CurveFit.Proofs.Json.Scaling

/-!
# How far off a number is read

A rounding moves a number by at most its `slack`: half a unit of the last of 53 digits, or half the
least positive number.  What has been written of a number lies within one slack of it, and the reader
rounds the digits, at most two powers of ten and at most two results.  So what is read lies within a few
slacks of the number (`reread?_close`).
-/

namespace CurveFit.Json

open Text Binary64 Float.Model

/-! ## Errors -/

/-- A bound on the error of one rounding. -/
def slack (v : ℚ) : ℚ := |v| / 2 ^ 53 + 2 ^ (-1075 : ℤ)

/-- One number is off another by at most `k` roundings. -/
def Close (k : ℕ) (y v : ℚ) : Prop := |y - v| ≤ k * slack v

section Errors

variable {k l : ℕ} {y v w q s t : ℚ}

theorem slack_pos (v : ℚ) : 0 < slack v := add_pos_of_nonneg_of_pos (by positivity) (two_zpow_pos _)

theorem abs_div_le_slack (v : ℚ) : |v| / 2 ^ 53 ≤ slack v :=
  le_add_of_nonneg_right (two_zpow_pos _).le

theorem slack_le_add (y v : ℚ) : slack y ≤ slack v + |y - v| / 2 ^ 53 := by
  have htriangle := div_le_div_of_nonneg_right (abs_sub_abs_le_abs_sub y v)
    (by positivity : (0 : ℚ) ≤ 2 ^ 53)
  rw [sub_div] at htriangle
  unfold slack
  linarith

theorem Close.mono (h : Close k y v) (hkl : k ≤ l) : Close l y v :=
  h.trans (mul_le_mul_of_nonneg_right (Nat.cast_le.mpr hkl) (slack_pos v).le)

theorem Close.within (h : Close k y v) (hk : k ≤ 16) :
    |y - v| ≤ |v| / 2 ^ 49 + 2 ^ (-1071 : ℤ) := by
  have hsixteen : (2 : ℚ) ^ (4 : ℤ) = 16 := by norm_num
  refine (h.mono hk).trans_eq ?_
  unfold slack
  rw [show (-1071 : ℤ) = 4 + -1075 from rfl, zpow_add₀ two_ne_zero, hsixteen, mul_add]
  congr 1
  ring

/-- Errors add up, and one more slack covers what they do to each other. -/
theorem Close.trans (hy : Close k y v) (hv : Close l v w) (hsmall : k * l ≤ 2 ^ 53) :
    Close (k + l + 1) y w := by
  have hproduct : (k : ℚ) * l / 2 ^ 53 ≤ 1 := by
    rw [div_le_one (by positivity)]
    exact_mod_cast hsmall
  have hslack : slack v ≤ slack w + l * slack w / 2 ^ 53 :=
    (slack_le_add v w).trans (add_le_add_right (div_le_div_of_nonneg_right hv (by positivity)) _)
  unfold Close
  push_cast
  calc |y - w| ≤ |y - v| + |v - w| := abs_sub_le y v w
    _ ≤ k * slack v + l * slack w := add_le_add hy hv
    _ ≤ k * (slack w + l * slack w / 2 ^ 53) + l * slack w :=
        add_le_add_left (mul_le_mul_of_nonneg_left hslack (Nat.cast_nonneg k)) _
    _ = (k + l + k * l / 2 ^ 53) * slack w := by ring
    _ ≤ (k + l + 1) * slack w :=
        mul_le_mul_of_nonneg_right (add_le_add_right hproduct _) (slack_pos w).le

theorem half_leastPower : (2 : ℚ) ^ (-1074 : ℤ) / 2 = 2 ^ (-1075 : ℤ) := by
  rw [show (-1075 : ℤ) = -1074 - 1 from rfl, zpow_sub_one₀ (two_ne_zero' ℚ), div_eq_mul_inv]

/-- **One rounding** is off by one slack. -/
theorem close_rounded (q : ℚ) : Close 1 (rounded q) q := by
  unfold Close
  rw [Nat.cast_one, one_mul]
  rcases eq_or_ne q 0 with rfl | hne
  · rw [rounded_zero, sub_self, abs_zero]
    exact (slack_pos 0).le
  refine (abs_rounded_sub_le q).trans ?_
  rcases max_choice (Int.log 2 |q| - 52) (-1074) with hmax | hmax
  · have hdigit : (2 : ℚ) ^ lastDigit q / 2 = 2 ^ Int.log 2 |q| / 2 ^ 53 := by
      unfold lastDigit
      rw [hmax, zpow_sub₀ two_ne_zero, div_div]
      norm_num
    rw [hdigit]
    exact (div_le_div_of_nonneg_right (Int.zpow_log_le_self one_lt_two (abs_pos.mpr hne))
      (by positivity)).trans (abs_div_le_slack q)
  · unfold lastDigit
    rw [hmax, half_leastPower]
    exact le_add_of_nonneg_left (by positivity)

/-- A product of two numbers that are off by one part in `2 ^ 53` each. -/
theorem close_mul (hs : 0 ≤ s) (ht : 0 ≤ t) (hy : |y - s| ≤ s / 2 ^ 53) (hq : |q - t| ≤ t / 2 ^ 53) :
    Close 3 (y * q) (s * t) := by
  have hsize : |q| ≤ 2 * t := by
    linarith [abs_sub_abs_le_abs_sub q t, abs_of_nonneg ht]
  unfold Close
  push_cast
  calc |y * q - s * t| = |(y - s) * q + s * (q - t)| := by
        congr 1
        ring
    _ ≤ |(y - s) * q| + |s * (q - t)| := abs_add_le _ _
    _ = |y - s| * |q| + s * |q - t| := by rw [abs_mul, abs_mul, abs_of_nonneg hs]
    _ ≤ s / 2 ^ 53 * (2 * t) + s * (t / 2 ^ 53) :=
        add_le_add (mul_le_mul hy hsize (abs_nonneg q) (by positivity))
          (mul_le_mul_of_nonneg_left hq hs)
    _ = 3 * (|s * t| / 2 ^ 53) := by
        rw [abs_of_nonneg (mul_nonneg hs ht)]
        ring
    _ ≤ 3 * slack (s * t) := mul_le_mul_of_nonneg_left (abs_div_le_slack _) (by norm_num)

/-- A quotient by a number that is off by one part in `2 ^ 53`. -/
theorem Close.div (hy : Close k y v) (ht : 1 ≤ t) (hq : |q - t| ≤ t / 2 ^ 53) (hk : k + 2 ≤ 2 ^ 53) :
    Close (k + 2) (y / q) (v / t) := by
  have htpos : 0 < t := one_pos.trans_le ht
  have hqpos : 0 < q := by linarith [(abs_le.mp hq).1]
  have hsplit : y / q - v / t = (y - v + v * (t - q) / t) / q := by
    field_simp
    ring
  have hshift : |v * (t - q) / t| ≤ slack v := by
    refine le_trans ?_ (abs_div_le_slack v)
    rw [abs_div, abs_mul, abs_of_pos htpos, abs_sub_comm, div_le_iff₀ htpos, div_mul_eq_mul_div,
      mul_div_assoc]
    exact mul_le_mul_of_nonneg_left hq (abs_nonneg v)
  have hslack : slack v ≤ t * slack (v / t) := by
    have hunderflow : (2 : ℚ) ^ (-1075 : ℤ) ≤ t * 2 ^ (-1075 : ℤ) :=
      le_mul_of_one_le_left (two_zpow_pos _).le ht
    unfold slack
    rw [abs_div, abs_of_pos htpos, mul_add, ← mul_div_assoc, mul_div_cancel₀ _ htpos.ne']
    exact add_le_add_right hunderflow _
  have hfactor : (k + 1 : ℚ) * t ≤ (k + 2) * q := by
    have hk' : (k : ℚ) + 2 ≤ 2 ^ 53 := by exact_mod_cast hk
    have hlower : t - t / 2 ^ 53 ≤ q := by linarith [(abs_le.mp hq).1]
    calc (k + 1 : ℚ) * t = (k + 2) * t - 2 ^ 53 * (t / 2 ^ 53) := by ring
      _ ≤ (k + 2) * t - (k + 2) * (t / 2 ^ 53) :=
          sub_le_sub_left (mul_le_mul_of_nonneg_right hk' (by positivity)) _
      _ = (k + 2) * (t - t / 2 ^ 53) := (mul_sub ..).symm
      _ ≤ (k + 2) * q := mul_le_mul_of_nonneg_left hlower (by positivity)
  unfold Close
  rw [hsplit, abs_div, abs_of_pos hqpos, div_le_iff₀ hqpos]
  push_cast
  calc |y - v + v * (t - q) / t| ≤ |y - v| + |v * (t - q) / t| := abs_add_le _ _
    _ ≤ k * slack v + slack v := add_le_add hy hshift
    _ = (k + 1) * slack v := by ring
    _ ≤ (k + 1) * (t * slack (v / t)) := mul_le_mul_of_nonneg_left hslack (by positivity)
    _ = (k + 1) * t * slack (v / t) := (mul_assoc ..).symm
    _ ≤ (k + 2) * q * slack (v / t) := mul_le_mul_of_nonneg_right hfactor (slack_pos _).le
    _ = (k + 2) * slack (v / t) * q := mul_right_comm ..

end Errors

/-! ## Scaling -/

section Scaling

variable {f y : Float} {k n m : ℕ} {e : ℤ} {v q : ℚ}

/-- A power of ten is off by one part in `2 ^ 53`. -/
theorem tenTo_close (hn : n ≤ 308) :
    (tenTo n).isFinite ∧ 1 ≤ value (tenTo n) ∧ |value (tenTo n) - 10 ^ n| ≤ 10 ^ n / 2 ^ 53 := by
  have hten : (1 : ℚ) ≤ 10 ^ n := one_le_pow₀ (by norm_num)
  obtain ⟨hfinite, hvalue⟩ := value_tenTo hn
  rw [hvalue]
  refine ⟨hfinite, ?_, abs_rounded_sub_le_div hten⟩
  obtain ⟨hone, -⟩ := rounded_natCast (n := 1) (by norm_num)
  rw [Nat.cast_one] at hone
  calc (1 : ℚ) = rounded 1 := hone.symm
    _ ≤ rounded (10 ^ n) := rounded_mono hten

/-- One step downwards. -/
theorem div_tenTo_close (hf : f.isFinite) (hpos : 0 ≤ value f) (hclose : Close k (value f) v)
    (hn : n ≤ 308) (hk : k + 2 ≤ 2 ^ 53) :
    (f / tenTo n).isFinite ∧ 0 ≤ value (f / tenTo n) ∧
      Close (k + 4) (value (f / tenTo n)) (v / 10 ^ n) := by
  obtain ⟨hfinite, hone, hten⟩ := tenTo_close hn
  have hquotient := div_isRounded hf hfinite (one_pos.trans_le hone).ne'
  have hnonneg : 0 ≤ value f / value (tenTo n) := div_nonneg hpos (zero_le_one.trans hone)
  have hbelow : rounded (value f / value (tenTo n)) ≤ value f := by
    calc rounded (value f / value (tenTo n)) ≤ rounded (value f) :=
          rounded_mono (div_le_self hpos hone)
      _ = value f := ((value_isRounded (isNaN_of_isFinite hf)).value_of_isFinite hf).symm
  have hlimit : |rounded (value f / value (tenTo n))| < limit := by
    rw [abs_of_nonneg (rounded_nonneg hnonneg)]
    exact hbelow.trans_lt (lt_of_abs_lt (isFinite_iff.mp hf).2)
  obtain ⟨hfinite', hvalue⟩ := hquotient.value_eq hlimit
  rw [hvalue]
  refine ⟨hfinite', rounded_nonneg hnonneg, ?_⟩
  exact ((close_rounded _).trans (hclose.div (one_le_pow₀ (by norm_num)) hten hk)
    (by omega)).mono (by omega)

/-- **Scaling** the digits of a numeral is off by a few roundings. -/
theorem scale?_close (hpos : 0 < n) (hn : n ≤ 10 ^ 17) (he : -616 ≤ e)
    (h : scale? (Float.ofNat n) e = some y) :
    y.isFinite ∧ Close 9 (value y) (n * 10 ^ e) := by
  have hfirst : (1 : ℚ) ≤ n := by exact_mod_cast hpos
  obtain ⟨hfinite, hvalue⟩ := value_ofNat_of_le hn
  have hone := one_le_value_ofNat hpos
  have hdigits : Close 1 (value (Float.ofNat n)) n := hvalue ▸ close_rounded n
  rcases lt_or_ge e 0 with hneg | hup
  · rcases le_or_gt (-308) e with hnear | hfar
    · rw [scale?_of_neg _ hneg hnear] at h
      cases h
      obtain ⟨hfinite', -, hclose⟩ := div_tenTo_close hfinite (zero_le_one.trans hone) hdigits
        (show (-e).toNat ≤ 308 by omega) (by norm_num)
      rw [div_ten_pow_toNat _ hneg.le] at hclose
      exact ⟨hfinite', hclose.mono (by norm_num)⟩
    · rw [scale?_of_far (ofNat_ne_zero hpos) hfar, scale?_of_neg _ (by omega) (by omega)] at h
      cases h
      obtain ⟨hfinite', hnonneg, hclose⟩ := div_tenTo_close hfinite (zero_le_one.trans hone)
        hdigits le_rfl (by norm_num)
      obtain ⟨hfinite'', -, hclose'⟩ := div_tenTo_close hfinite' hnonneg hclose
        (show (-(e + 308)).toNat ≤ 308 by omega) (by norm_num)
      have hsteps : (n : ℚ) / 10 ^ 308 * 10 ^ (e + 308) = n * 10 ^ e := by
        rw [zpow_add₀ (by norm_num), zpow_ofNat, div_mul_eq_mul_div, ← mul_assoc,
          mul_div_cancel_right₀ _ (by positivity)]
      rw [div_ten_pow_toNat _ (by omega), hsteps] at hclose'
      exact ⟨hfinite'', hclose'.mono (by norm_num)⟩
  · obtain ⟨hsmall, rfl, hinf⟩ := scale?_nonneg_eq_some (ofNat_ne_zero hpos) hup h
    obtain ⟨hfinite', -, hten⟩ := tenTo_close (show e.toNat ≤ 308 by omega)
    have hproduct := mul_isRounded hfinite hfinite'
    have hfinite'' := isFinite_iff_special.mpr ⟨hproduct.isNaN, hinf⟩
    rw [hproduct.value_of_isFinite hfinite'']
    refine ⟨hfinite'', ?_⟩
    have hclose := (close_rounded _).trans (close_mul (Nat.cast_nonneg n) (by positivity)
      (hvalue ▸ abs_rounded_sub_le_div hfirst) hten) (by norm_num)
    rw [← zpow_natCast, Int.toNat_of_nonneg hup] at hclose
    exact hclose.mono (by norm_num)

end Scaling

/-! ## Numbers -/

section Numbers

variable {x y : Float} {n m : ℕ} {e : ℤ} {q : ℚ}

theorem reachBelow_le (m : ℕ) (e : ℤ) : reachBelow m e ≤ 1 / 2 := by
  unfold reachBelow
  split_ifs <;> norm_num

/-- What lies near a number is off by one rounding. -/
theorem close_of_near (hdigits : Digits m e) (h : Near m e q) : Close 1 q (m * 2 ^ e) := by
  have hpow := two_zpow_pos e
  have hreach := reachBelow_le m e
  have hhalf : |q - m * 2 ^ e| ≤ 2 ^ e / 2 := by
    have hlower := mul_le_mul_of_nonneg_right hreach hpow.le
    have hlower' := h.lower
    have hupper := h.upper
    rw [sub_mul] at hlower'
    rw [add_mul] at hupper
    exact abs_le.mpr ⟨by linarith, by linarith⟩
  unfold Close
  rw [Nat.cast_one, one_mul]
  refine hhalf.trans ?_
  rcases hdigits.full with hfull | rfl
  · have hm : (2 : ℚ) ^ 52 ≤ m := by exact_mod_cast hfull
    refine le_trans ?_ (abs_div_le_slack _)
    rw [abs_of_nonneg (by positivity), mul_div_right_comm]
    calc (2 : ℚ) ^ e / 2 = 2 ^ 52 / 2 ^ 53 * 2 ^ e := by ring
      _ ≤ m / 2 ^ 53 * 2 ^ e :=
        mul_le_mul_of_nonneg_right (div_le_div_of_nonneg_right hm (by positivity)) hpow.le
  · rw [half_leastPower]
    exact le_add_of_nonneg_left (by positivity)

/-- Few digits that come near a number of the format have no exponent far below its range. -/
theorem exponent_ge_of_near (hm : 0 < m) (hdigits : Digits m e) {d : ℤ} (hn : n ≤ 10 ^ 17)
    (h : Near m e (n * 10 ^ d)) : -616 ≤ d := by
  by_contra hlow
  have hleast : (2 : ℚ) ^ (-1075 : ℤ) ≤ n * 10 ^ d := by
    have hm' : (1 : ℚ) ≤ m := by exact_mod_cast hm
    have hreach := reachBelow_le m e
    calc (2 : ℚ) ^ (-1075 : ℤ) = 1 / 2 * 2 ^ (-1074 : ℤ) := by
          rw [← half_leastPower, one_div_mul_eq_div]
      _ ≤ (m - reachBelow m e) * 2 ^ e :=
          mul_le_mul (by linarith) (zpow_le_zpow_right₀ one_le_two hdigits.least)
            (two_zpow_pos _).le (by linarith)
      _ ≤ n * 10 ^ d := h.lower
  have hmost : (n : ℚ) * 10 ^ d ≤ 10 ^ (-600 : ℤ) := by
    calc (n : ℚ) * 10 ^ d ≤ 10 ^ (17 : ℤ) * 10 ^ (-617 : ℤ) :=
          mul_le_mul (by exact_mod_cast hn) (zpow_le_zpow_right₀ (by norm_num) (by omega))
            (ten_zpow_pos d).le (by positivity)
      _ = 10 ^ (-600 : ℤ) := (zpow_add₀ (by norm_num) _ _).symm
  have hnat : 2 ^ 1075 < 10 ^ 600 := by decide +kernel
  have hgap : (10 : ℚ) ^ (-600 : ℤ) < 2 ^ (-1075 : ℤ) := by
    have hcast : ((2 ^ 1075 : ℕ) : ℚ) < ((10 ^ 600 : ℕ) : ℚ) := Nat.cast_lt.mpr hnat
    rw [Nat.cast_pow, Nat.cast_pow] at hcast
    rw [zpow_neg, zpow_neg]
    exact inv_strictAnti₀ (by positivity) hcast
  exact (hleast.trans hmost).not_gt hgap

/-- **What is read** of a written number is off by a few roundings. -/
theorem reread?_close (hx : x.isFinite) (h : reread? x = some y) :
    y.isFinite ∧ |value y - value x| ≤ |value x| / 2 ^ 49 + 2 ^ (-1071 : ℤ) := by
  by_cases hzero : x == 0.0
  · rw [reread?_of_zero (beq_zero_iff.mp hzero)] at h
    cases h
    rw [sub_self, abs_zero]
    exact ⟨hx, add_nonneg (by positivity) (two_zpow_pos _).le⟩
  obtain ⟨hpos, hstored, -⟩ := parts_spec hx hzero
  obtain ⟨hdigits, hnear⟩ := near_written hx hzero
  obtain ⟨z, hz, rfl⟩ := Option.map_eq_some_iff.mp h
  obtain ⟨hfinite, hclose⟩ := scale?_close hdigits (written_le hx)
    (exponent_ge_of_near hpos hstored (written_le hx) hnear) hz
  have htotal := (hclose.trans (close_of_near hstored hnear) (by norm_num)).within (by norm_num)
  rw [value_parts hx]
  split_ifs
  · rw [value_neg, neg_sub_neg, abs_sub_comm, abs_neg]
    exact ⟨isFinite_neg hfinite, htotal⟩
  · exact ⟨hfinite, htotal⟩

end Numbers

end CurveFit.Json
