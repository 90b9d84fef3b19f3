import Mathlib

/-!
# Rounding to 53 binary digits

`rounded q` is the nearest number to `q` that has 53 binary digits from its first one on, and none
after the digit `2 ^ -1074`; halfway between two such numbers it is the one with an even last digit.
There is no largest number here: what is too large for the format is the business of packing.  The
rounding keeps the order (`rounded_mono`) and leaves alone what has few digits
(`rounded_of_digits`).
-/

namespace CurveFit.Binary64

/-! ## Whole numbers -/

/-- The nearest whole number; halfway between two of them, the even one. -/
def nearestEven (q : ℚ) : ℤ :=
  if q - ⌊q⌋ < 1 / 2 then ⌊q⌋ else if 1 / 2 < q - ⌊q⌋ then ⌊q⌋ + 1 else ⌊q⌋ + ⌊q⌋ % 2

section NearestEven

variable {p q : ℚ}

theorem nearestEven_intCast (n : ℤ) : nearestEven n = n := by
  simp [nearestEven]

theorem floor_le_nearestEven (q : ℚ) : ⌊q⌋ ≤ nearestEven q := by
  unfold nearestEven
  split_ifs <;> omega

theorem nearestEven_le_floor_add_one (q : ℚ) : nearestEven q ≤ ⌊q⌋ + 1 := by
  unfold nearestEven
  split_ifs <;> omega

theorem nearestEven_mono : Monotone nearestEven := by
  intro p q hpq
  rcases (Int.floor_mono hpq).lt_or_eq with hlt | heq
  · calc nearestEven p ≤ ⌊p⌋ + 1 := nearestEven_le_floor_add_one p
      _ ≤ ⌊q⌋ := hlt
      _ ≤ nearestEven q := floor_le_nearestEven q
  · -- between the same two whole numbers
    unfold nearestEven
    rw [heq]
    split_ifs <;> first | omega | (exfalso; linarith)

theorem nearestEven_neg (q : ℚ) : nearestEven (-q) = -nearestEven q := by
  by_cases hq : q = ⌊q⌋
  · rw [hq, ← Int.cast_neg, nearestEven_intCast, nearestEven_intCast]
  · have hlt : (⌊q⌋ : ℚ) < q := lt_of_le_of_ne (Int.floor_le q) (Ne.symm hq)
    have hfloor : ⌊-q⌋ = -⌊q⌋ - 1 := by
      rw [Int.floor_eq_iff]
      push_cast
      have := Int.lt_floor_add_one q
      constructor <;> linarith
    unfold nearestEven
    rw [hfloor]
    push_cast
    split_ifs <;> first | omega | (exfalso; linarith)

theorem le_nearestEven {n : ℤ} (h : n ≤ q) : n ≤ nearestEven q := by
  rw [← nearestEven_intCast n]
  exact nearestEven_mono h

theorem nearestEven_le {n : ℤ} (h : q ≤ n) : nearestEven q ≤ n := by
  rw [← nearestEven_intCast n]
  exact nearestEven_mono h

/-- What is nearest to a whole number rounds to it, halves only if it is even. -/
theorem nearestEven_eq {n : ℤ} (hlower : n - 1 / 2 ≤ q) (hupper : q ≤ n + 1 / 2)
    (hodd : n % 2 = 1 → n - 1 / 2 < q ∧ q < n + 1 / 2) : nearestEven q = n := by
  unfold nearestEven
  rcases lt_or_ge q n with hlt | hge
  · have hfloor : ⌊q⌋ = n - 1 := by
      rw [Int.floor_eq_iff]
      push_cast
      constructor <;> linarith
    rw [hfloor]
    push_cast
    rcases hlower.lt_or_eq with hfar | hhalf
    · rw [if_neg (by linarith), if_pos (by linarith)]
      ring
    · have heven : n % 2 = 0 := by
        by_contra h
        exact (hodd (by omega)).1.ne hhalf
      rw [if_neg (by linarith), if_neg (by linarith)]
      omega
  · have hfloor : ⌊q⌋ = n := by
      rw [Int.floor_eq_iff]
      constructor <;> linarith
    rw [hfloor]
    rcases hupper.lt_or_eq with hnear | hhalf
    · rw [if_pos (by linarith)]
    · have heven : n % 2 = 0 := by
        by_contra h
        exact (hodd (by omega)).2.ne hhalf
      rw [if_neg (by linarith), if_neg (by linarith), heven, add_zero]

theorem nearestEven_le_add_half (q : ℚ) : (nearestEven q : ℚ) ≤ q + 1 / 2 := by
  have hfloor := Int.floor_le q
  unfold nearestEven
  split_ifs with hlow hhigh
  · linarith
  · push_cast
    linarith
  · have hodd : ⌊q⌋ % 2 ≤ 1 := by omega
    have hodd' : ((⌊q⌋ % 2 : ℤ) : ℚ) ≤ 1 := by exact_mod_cast hodd
    rw [Int.cast_add]
    linarith

theorem abs_nearestEven_sub_le (q : ℚ) : |(nearestEven q : ℚ) - q| ≤ 1 / 2 := by
  have hneg := nearestEven_le_add_half (-q)
  rw [nearestEven_neg, Int.cast_neg] at hneg
  exact abs_le.mpr ⟨by linarith, by linarith [nearestEven_le_add_half q]⟩

end NearestEven

/-! ## Binary digits -/

/-- The exponent of the last digit that is kept of `q`. -/
def lastDigit (q : ℚ) : ℤ := max (Int.log 2 |q| - 52) (-1074)

/-- The nearest number that has no digit after the last one to keep. -/
def rounded (q : ℚ) : ℚ := nearestEven (q / 2 ^ lastDigit q) * 2 ^ lastDigit q

section Rounded

variable {p q : ℚ}

theorem two_zpow_pos (e : ℤ) : (0 : ℚ) < 2 ^ e := zpow_pos two_pos e

theorem rounded_zero : rounded 0 = 0 := by
  unfold rounded
  rw [zero_div, ← Int.cast_zero, nearestEven_intCast, Int.cast_zero, zero_mul]

theorem rounded_neg (q : ℚ) : rounded (-q) = -rounded q := by
  have hdigit : lastDigit (-q) = lastDigit q := by
    unfold lastDigit
    rw [abs_neg]
  unfold rounded
  rw [hdigit, neg_div, nearestEven_neg, Int.cast_neg, neg_mul]

/-- What lies on the grid of the last digit bounds the rounding as it bounds the number. -/
theorem rounded_le {n e : ℤ} (he : lastDigit q ≤ e) (h : q ≤ n * 2 ^ e) : rounded q ≤ n * 2 ^ e := by
  have hsplit : (n : ℚ) * 2 ^ e = (n * 2 ^ (e - lastDigit q).toNat : ℤ) * 2 ^ lastDigit q := by
    push_cast
    rw [mul_assoc, ← zpow_natCast, Int.toNat_of_nonneg (by omega), ← zpow_add₀ two_ne_zero,
      sub_add_cancel]
  rw [hsplit] at h ⊢
  unfold rounded
  have hle := nearestEven_le ((div_le_iff₀ (two_zpow_pos _)).mpr h)
  exact mul_le_mul_of_nonneg_right (Int.cast_le.mpr hle) (two_zpow_pos _).le

theorem le_rounded {n e : ℤ} (he : lastDigit q ≤ e) (h : n * 2 ^ e ≤ q) : n * 2 ^ e ≤ rounded q := by
  have hneg : lastDigit (-q) ≤ e := by
    unfold lastDigit at he ⊢
    rwa [abs_neg]
  have hle := rounded_le (n := -n) hneg (by push_cast; linarith)
  rw [rounded_neg] at hle
  push_cast at hle
  linarith

theorem rounded_nonneg (h : 0 ≤ q) : 0 ≤ rounded q := by
  have hle := le_rounded (n := 0) (e := lastDigit q) le_rfl (by simpa using h)
  simpa using hle

theorem lastDigit_mono (hp : 0 < p) (hpq : p ≤ q) : lastDigit p ≤ lastDigit q := by
  have hlog : Int.log 2 |p| ≤ Int.log 2 |q| := by
    rw [abs_of_pos hp, abs_of_pos (hp.trans_le hpq)]
    exact Int.log_mono_right hp hpq
  unfold lastDigit
  omega

/-- **Rounding** keeps the order. -/
theorem rounded_mono : Monotone rounded := by
  have hpos : ∀ {p q : ℚ}, 0 < p → p ≤ q → rounded p ≤ rounded q := by
    intro p q hp hpq
    have hq := hp.trans_le hpq
    rcases (lastDigit_mono hp hpq).lt_or_eq with hlt | heq
    · -- a power of two lies between the two numbers, and on both grids
      have hdigit : lastDigit q = Int.log 2 q - 52 := by
        unfold lastDigit at hlt ⊢
        rw [abs_of_pos hq] at hlt ⊢
        omega
      have hlog : Int.log 2 p < Int.log 2 q := by
        unfold lastDigit at hlt
        rw [abs_of_pos hp, abs_of_pos hq] at hlt
        omega
      have hbelow : p ≤ 2 ^ Int.log 2 q := ((Int.lt_zpow_iff_log_lt one_lt_two hp).mpr hlog).le
      have habove : (2 : ℚ) ^ Int.log 2 q ≤ q := Int.zpow_log_le_self one_lt_two hq
      calc rounded p ≤ (1 : ℤ) * 2 ^ Int.log 2 q := rounded_le (by omega) (by simpa using hbelow)
        _ ≤ rounded q := le_rounded (by omega) (by simpa using habove)
    · unfold rounded
      rw [heq]
      have hle := nearestEven_mono (div_le_div_of_nonneg_right hpq (two_zpow_pos (lastDigit q)).le)
      exact mul_le_mul_of_nonneg_right (Int.cast_le.mpr hle) (two_zpow_pos _).le
  intro p q hpq
  rcases lt_trichotomy 0 p with hp | rfl | hp
  · exact hpos hp hpq
  · rw [rounded_zero]
    exact rounded_nonneg hpq
  · rcases lt_or_ge q 0 with hq | hq
    · have hle := hpos (neg_pos.mpr hq) (neg_le_neg hpq)
      rw [rounded_neg, rounded_neg] at hle
      exact neg_le_neg_iff.mp hle
    · have hle := rounded_nonneg (neg_pos.mpr hp).le
      rw [rounded_neg] at hle
      exact (neg_nonneg.mp hle).trans (rounded_nonneg hq)

/-- Numbers with at most 53 digits, the last of them no later than `2 ^ -1074`, are left alone. -/
theorem rounded_of_digits {n e : ℤ} (hn : |n| < 2 ^ 53) (he : -1074 ≤ e) :
    rounded (n * 2 ^ e) = n * 2 ^ e := by
  rcases eq_or_ne n 0 with rfl | hne
  · simp [rounded_zero]
  have hpos : (0 : ℚ) < |(n : ℚ) * 2 ^ e| :=
    abs_pos.mpr (mul_ne_zero (Int.cast_ne_zero.mpr hne) (two_zpow_pos e).ne')
  have hsize : |(n : ℚ) * 2 ^ e| < 2 ^ (53 + e) := by
    rw [abs_mul, abs_of_pos (two_zpow_pos e), zpow_add₀ two_ne_zero]
    refine mul_lt_mul_of_pos_right ?_ (two_zpow_pos e)
    exact_mod_cast hn
  have hlog := (Int.lt_zpow_iff_log_lt one_lt_two hpos).mp hsize
  have hdigit : lastDigit (n * 2 ^ e) ≤ e := by
    unfold lastDigit
    omega
  exact le_antisymm (rounded_le hdigit le_rfl) (le_rounded hdigit le_rfl)

theorem log_two_zpow_mul (k : ℤ) (hq : 0 < q) : Int.log 2 (2 ^ k * q) = k + Int.log 2 q := by
  have hpos : 0 < 2 ^ k * q := mul_pos (two_zpow_pos k) hq
  apply le_antisymm
  · rw [← Int.lt_add_one_iff, ← Int.lt_zpow_iff_log_lt one_lt_two hpos, Nat.cast_two, add_assoc,
      zpow_add₀ two_ne_zero]
    exact mul_lt_mul_of_pos_left (Int.lt_zpow_succ_log_self one_lt_two q) (two_zpow_pos k)
  · rw [← Int.zpow_le_iff_le_log one_lt_two hpos, Nat.cast_two, zpow_add₀ two_ne_zero]
    exact mul_le_mul_of_nonneg_left (Int.zpow_log_le_self one_lt_two hq) (two_zpow_pos k).le

/-- Far from the least digit, rounding goes along with a shift of the digits. -/
theorem rounded_two_zpow_mul {k : ℤ} (hk : 0 ≤ k) (hq : 1 ≤ q) :
    rounded (2 ^ k * q) = 2 ^ k * rounded q := by
  have hpos : 0 < q := one_pos.trans_le hq
  have hlog : 0 ≤ Int.log 2 q := Int.log_one_right (R := ℚ) 2 ▸ Int.log_mono_right one_pos hq
  have hdigit : lastDigit (2 ^ k * q) = k + lastDigit q := by
    unfold lastDigit
    rw [abs_of_pos hpos, abs_of_pos (mul_pos (two_zpow_pos k) hpos), log_two_zpow_mul k hpos]
    omega
  unfold rounded
  rw [hdigit, zpow_add₀ two_ne_zero, mul_div_mul_left _ _ (two_zpow_pos k).ne', mul_left_comm]

/-! ### Where a number rounds to -/

theorem lastDigit_eq {e : ℤ} (hq : 0 < q) (he : -1074 ≤ e) (hlower : 2 ^ 52 * 2 ^ e ≤ q ∨ e = -1074)
    (hupper : q < 2 ^ 53 * 2 ^ e) : lastDigit q = e := by
  have habove : Int.log 2 q < 53 + e := by
    rw [← Int.lt_zpow_iff_log_lt one_lt_two hq, Nat.cast_two, zpow_add₀ two_ne_zero]
    exact_mod_cast hupper
  unfold lastDigit
  rw [abs_of_pos hq]
  rcases hlower with hlower | rfl
  · have hbelow : 52 + e ≤ Int.log 2 q := by
      rw [← Int.zpow_le_iff_le_log one_lt_two hq, Nat.cast_two, zpow_add₀ two_ne_zero]
      exact_mod_cast hlower
    omega
  · omega

theorem rounded_eq_of_lastDigit {n e : ℤ} (hdigit : lastDigit q = e)
    (hlower : (n - 1 / 2) * 2 ^ e ≤ q) (hupper : q ≤ (n + 1 / 2) * 2 ^ e)
    (hodd : n % 2 = 1 → (n - 1 / 2) * 2 ^ e < q ∧ q < (n + 1 / 2) * 2 ^ e) :
    rounded q = n * 2 ^ e := by
  have hpow := two_zpow_pos e
  unfold rounded
  rw [hdigit, nearestEven_eq ((le_div_iff₀ hpow).mpr hlower) ((div_le_iff₀ hpow).mpr hupper)
    fun h => ⟨(lt_div_iff₀ hpow).mpr (hodd h).1, (div_lt_iff₀ hpow).mpr (hodd h).2⟩]

/-- A rounding is off by at most half a unit of the last digit. -/
theorem abs_rounded_sub_le (q : ℚ) : |rounded q - q| ≤ 2 ^ lastDigit q / 2 := by
  have hpow := two_zpow_pos (lastDigit q)
  calc |rounded q - q|
      = |(nearestEven (q / 2 ^ lastDigit q) - q / 2 ^ lastDigit q) * 2 ^ lastDigit q| := by
        rw [sub_mul, div_mul_cancel₀ _ hpow.ne']
        rfl
    _ = |(nearestEven (q / 2 ^ lastDigit q) : ℚ) - q / 2 ^ lastDigit q| * 2 ^ lastDigit q := by
        rw [abs_mul, abs_of_pos hpow]
    _ ≤ 1 / 2 * 2 ^ lastDigit q :=
        mul_le_mul_of_nonneg_right (abs_nearestEven_sub_le _) hpow.le
    _ = 2 ^ lastDigit q / 2 := one_div_mul_eq_div ..

/-- Far from the least digit, a rounding is off by at most one part in `2 ^ 53`. -/
theorem abs_rounded_sub_le_div (hq : 1 ≤ q) : |rounded q - q| ≤ q / 2 ^ 53 := by
  have hpos : 0 < q := one_pos.trans_le hq
  have hdigit : lastDigit q = Int.log 2 q - 52 := by
    have hlog : 0 ≤ Int.log 2 q := Int.log_one_right (R := ℚ) 2 ▸ Int.log_mono_right one_pos hq
    unfold lastDigit
    rw [abs_of_pos hpos]
    omega
  have hsize : (2 : ℚ) ^ lastDigit q ≤ q / 2 ^ 52 := by
    rw [hdigit, zpow_sub₀ two_ne_zero]
    exact div_le_div_of_nonneg_right (Int.zpow_log_le_self one_lt_two hpos) (by positivity)
  linarith [abs_rounded_sub_le q]

theorem rounded_le_mul (hq : 1 ≤ q) : rounded q ≤ q * (1 + 1 / 2 ^ 53) := by
  linarith [(abs_le.mp (abs_rounded_sub_le_div hq)).2]

theorem rounded_one : rounded 1 = 1 := by
  have h := rounded_of_digits (n := 1) (e := 0) (by norm_num) (by norm_num)
  rwa [Int.cast_one, one_mul, zpow_zero] at h

/-- A coarse bound for numbers of any size. -/
theorem rounded_le_two_mul_add_one (hq : 0 ≤ q) : rounded q ≤ 2 * q + 1 := by
  rcases le_total 1 q with hone | hone
  · linarith [rounded_le_mul hone]
  · linarith [rounded_mono hone, rounded_one]

/-- The rounding of a number below a power of two. -/
theorem abs_rounded_sub_le_of_lt {n : ℤ} (hn : -1021 ≤ n) (hq : |q| < 2 ^ n) :
    |rounded q - q| ≤ 2 ^ (n - 54) := by
  rcases eq_or_ne q 0 with rfl | hne
  · rw [rounded_zero, sub_self, abs_zero]
    exact (two_zpow_pos _).le
  · have hlog : Int.log 2 |q| < n :=
      (Int.lt_zpow_iff_log_lt one_lt_two (abs_pos.mpr hne)).mp (by exact_mod_cast hq)
    have hdigit : lastDigit q ≤ n - 54 + 1 := by
      unfold lastDigit
      omega
    have hpow := zpow_le_zpow_right₀ (one_le_two (α := ℚ)) hdigit
    rw [zpow_add_one₀ two_ne_zero] at hpow
    linarith [abs_rounded_sub_le q]

end Rounded

end CurveFit.Binary64
