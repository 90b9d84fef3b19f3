import CurveFit.Fit.Backend
import CurveFit.Proofs.Binary64.Arithmetic

/-!
# Datasets that stay within a capacity

The gate compares counts in binary64.  Counts are rounded once, which keeps their order, and the
capacity grows by the permitted fraction; so a capacity that holds every point is always let through
(`withinCapacity_of_count_le`), and no capacity of zero is for a dataset with points.  Without a
permitted fraction nothing but these datasets is let through (`withinCapacity_exact`).  The grown
capacity is rounded twice, but a capacity that is a power of two only once, so what is within its
exact bound is let through (`withinCapacity_of_le_bound`).  A larger capacity lets through whatever a
smaller one does (`withinCapacity_mono`).
-/

namespace CurveFit

open Binary64

variable {settings : FitSettings} {n capacity : ℕ} {ratio : Float}

/-- Settings that nothing is wrong with: the threshold and the permitted fraction are finite and not
negative, the damping is finite and positive. -/
@[mk_iff]
structure FitSettings.Valid (s : FitSettings) : Prop where
  minDeltaChi2 : s.minDeltaChi2.isFinite ∧ 0.0 ≤ s.minDeltaChi2
  initialLambda : s.initialLambda.isFinite ∧ 0.0 < s.initialLambda
  truncateRatio : s.truncateRatio.isFinite ∧ 0.0 ≤ s.truncateRatio

theorem FitSettings.issue?_eq_none_iff : settings.issue? = none ↔ settings.Valid := by
  have hcheck : ∀ (b : Bool) (p : Prop) [Decidable p], (!(b && decide p)) = true ↔ ¬ (b ∧ p) := by
    intro b p _
    cases b <;> simp
  rw [FitSettings.valid_iff]
  unfold FitSettings.issue?
  simp only [hcheck]
  split_ifs <;> simp only [false_iff, true_iff] <;> tauto

/-- The permitted fraction of valid settings is a number that is not negative. -/
theorem FitSettings.truncateRatio_nonneg (hvalid : settings.issue? = none) :
    settings.truncateRatio.isFinite ∧ 0 ≤ value settings.truncateRatio := by
  have hzero : value 0.0 = 0 := by decide +kernel
  obtain ⟨-, -, hfinite, hratio⟩ := issue?_eq_none_iff.mp hvalid
  exact ⟨hfinite, hzero ▸ value_mono hratio⟩

/-- No capacity shrinks. -/
theorem one_le_value_one_add (hfinite : ratio.isFinite) (hratio : 0 ≤ value ratio) :
    1 ≤ value (1 + ratio) := by
  have hgrown : (1 : Float) ≤ 1 + ratio := le_add_of_nonneg (by decide +kernel) hfinite hratio
  exact value_one ▸ value_mono hgrown

/-- A capacity that holds every point is let through. -/
theorem withinCapacity_of_count_le (hcapacity : 0 < capacity) (h : n ≤ capacity)
    (hfinite : ratio.isFinite) (hratio : 0 ≤ value ratio) : withinCapacity n capacity ratio := by
  have hfactor := one_le_value_one_add hfinite hratio
  have hpos : 0 < value (Float.ofNat capacity) := one_pos.trans_le (one_le_value_ofNat hcapacity)
  unfold withinCapacity
  rw [decide_eq_true_iff]
  exact Binary64.le_trans (ofNat_mono h) (le_mul_of_one_le hpos hfactor)

/-- Where no fraction is permitted, the gate counts exactly, however many points there are. -/
theorem withinCapacity_exact (hcapacity : capacity + 1 < 2 ^ 53) (hratio : (ratio == 0) = true) :
    withinCapacity n capacity ratio ↔ n ≤ capacity := by
  have hgrown : (1 + ratio).isFinite ∧ value (1 + ratio) = 1 := by
    obtain ⟨-, -, rfl | ⟨-, hzero⟩ | ⟨rfl, -⟩⟩ := Float.beq_iff_ne_nan_and_eq.mp hratio
    · decide +kernel
    · exact absurd hzero (by decide +kernel)
    · decide +kernel
  obtain ⟨hfinite, hvalue⟩ := value_ofNat (n := capacity) (by omega)
  have hproduct : IsRounded (Float.ofNat capacity * (1 + ratio)) capacity := by
    simpa [hgrown.2, hvalue] using mul_isRounded hfinite hgrown.1
  show decide (Float.ofNat n ≤ Float.ofNat capacity * (1 + ratio)) = true ↔ _
  rw [decide_eq_true_iff]
  constructor
  · intro hle
    by_contra hlarge
    -- one point too many is a number of the format
    have hnext := Binary64.le_trans (ofNat_mono (Nat.lt_of_not_le hlarge)) hle
    have hvalue' := (hproduct.value_eq (rounded_natCast (by omega)).2).2
    rw [(rounded_natCast (by omega)).1] at hvalue'
    have hlt := value_mono hnext
    rw [(value_ofNat hcapacity).2, hvalue'] at hlt
    exact Nat.not_succ_le_self capacity (by exact_mod_cast hlt)
  · intro hle
    exact (ofNat_isRounded n).mono hproduct (Nat.cast_le.mpr hle)

/-- What a capacity lets through, a larger one lets through. -/
theorem withinCapacity_mono (hfinite : ratio.isFinite) (hratio : 0 ≤ value ratio) {larger : ℕ}
    (hle : capacity ≤ larger) (hlarger : larger < 2 ^ 53) (h : withinCapacity n capacity ratio) :
    withinCapacity n larger ratio := by
  have hgrown := isFinite_one_add hfinite hratio
  have hcapacity := (value_ofNat (hle.trans_lt hlarger)).1
  have hproduct : Float.ofNat capacity * (1 + ratio) ≤ Float.ofNat larger * (1 + ratio) := by
    refine (mul_isRounded hcapacity hgrown).mono (mul_isRounded (value_ofNat hlarger).1 hgrown) ?_
    exact mul_le_mul_of_nonneg_right (value_mono (ofNat_mono hle))
      (zero_le_one.trans (one_le_value_one_add hfinite hratio))
  unfold withinCapacity at h ⊢
  rw [decide_eq_true_iff] at h ⊢
  exact Binary64.le_trans h hproduct

/-- A capacity grows to no more than its double unless the permitted fraction exceeds one. -/
theorem le_double_of_withinCapacity (hfinite : ratio.isFinite) (hratio : 0 ≤ value ratio)
    (hone : value ratio ≤ 1) (hcapacity : 2 * capacity + 1 < 2 ^ 53)
    (h : withinCapacity n capacity ratio) : n ≤ 2 * capacity := by
  have htwo : value (2 : Float) = 2 := by decide +kernel
  have hgrown : 1 + ratio ≤ 2 := by
    refine (add_isRounded (by decide +kernel) hfinite).mono (value_isRounded (by decide +kernel)) ?_
    rw [value_one, htwo]
    linarith
  have hfactor : value (1 + ratio) ≤ 2 := htwo ▸ value_mono hgrown
  obtain ⟨hsmall, hvalue⟩ := value_ofNat (n := capacity) (by omega)
  have hproduct : Float.ofNat capacity * (1 + ratio) ≤ Float.ofNat (2 * capacity) := by
    refine (mul_isRounded hsmall (isFinite_one_add hfinite hratio)).mono (ofNat_isRounded _) ?_
    rw [hvalue, Nat.cast_mul, mul_comm]
    exact mul_le_mul_of_nonneg_right hfactor (Nat.cast_nonneg _)
  by_contra hlarge
  -- one point more than the double is a number of the format
  have hnext : Float.ofNat (2 * capacity + 1) ≤ Float.ofNat (2 * capacity) :=
    Binary64.le_trans (ofNat_mono (Nat.lt_of_not_le hlarge))
      (Binary64.le_trans (of_decide_eq_true h) hproduct)
  have hle := value_mono hnext
  rw [(value_ofNat hcapacity).2, (value_ofNat (by omega)).2, Nat.cast_le] at hle
  exact Nat.not_succ_le_self _ hle

/-- A capacity that is a power of two lets through what is within its bound in exact arithmetic. -/
theorem withinCapacity_of_le_bound {k : ℕ} (hk : k < 53) (hfinite : ratio.isFinite)
    (hratio : 0 ≤ value ratio) (h : (n : ℚ) ≤ 2 ^ k * (1 + value ratio)) :
    withinCapacity n (2 ^ k) ratio := by
  have hone : (1 : Float).isFinite := by decide +kernel
  have hgrown := isFinite_one_add hfinite hratio
  have hfactor : value (1 + ratio) = rounded (1 + value ratio) :=
    value_one ▸ (add_isRounded hone hfinite).value_of_isFinite hgrown
  obtain ⟨hcapacity, hvalue⟩ := value_ofNat (n := 2 ^ k) (Nat.pow_lt_pow_right one_lt_two hk)
  have hproduct := mul_isRounded hcapacity hgrown
  have hcount : value (Float.ofNat n) ≤ rounded n := by
    rw [(ofNat_isRounded n).value, clamped_of_nonneg (rounded_nonneg n.cast_nonneg)]
    exact min_le_left _ _
  have hscaled : rounded (2 ^ k * (1 + value ratio)) = 2 ^ k * rounded (1 + value ratio) := by
    rw [← zpow_natCast]
    exact rounded_two_zpow_mul (Int.natCast_nonneg k) (le_add_of_nonneg_right hratio)
  unfold withinCapacity
  rw [decide_eq_true_iff]
  refine (value_isRounded (ofNat_isRounded n).isNaN).mono hproduct ?_
  calc value (Float.ofNat n) ≤ rounded n := hcount
    _ ≤ rounded (2 ^ k * (1 + value ratio)) := rounded_mono h
    _ = value (Float.ofNat (2 ^ k)) * value (1 + ratio) := by
      rw [hscaled, hvalue, hfactor, Nat.cast_pow, Nat.cast_two]

/-- A dataset with points needs a capacity. -/
theorem capacity_pos_of_withinCapacity (hn : 0 < n) (h : withinCapacity n capacity ratio) :
    0 < capacity := by
  by_contra hzero
  obtain rfl : capacity = 0 := Nat.eq_zero_of_not_pos hzero
  unfold withinCapacity at h
  have hle : Float.ofNat n ≤ 0 * (1 + ratio) := of_decide_eq_true h
  have hvalue := (one_le_value_ofNat hn).trans (value_mono hle)
  rw [value_zero_mul] at hvalue
  exact absurd hvalue (by norm_num)

end CurveFit
