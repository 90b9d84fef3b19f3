import CurveFit.Proofs.Binary64.Value

/-!
# Arithmetic of the binary64 numbers

The sum and the product of finite numbers, and the number of a natural number, are what the exact
result rounds to (`add_isRounded`, `mul_isRounded`, `ofNat_isRounded`).  All of them are mantissas
with an exponent that are shifted until 53 digits are left; what was shifted out is remembered by two
bits, which are enough to round (`roundWithAccuracy_rounds`).
-/

namespace CurveFit.Binary64

open Float.Model Float.Model.UnpackedFloat

/-! ## Extended mantissas -/

/-- An extended mantissa stands for a number: its bits say where the number lies between the mantissa
and the next one. -/
def Stands (em : ExtendedMantissa) (y : ℚ) : Prop :=
  match em.roundBit, em.stickyBit with
  | false, false => y = em.mantissa
  | false, true => em.mantissa < y ∧ y < em.mantissa + 1 / 2
  | true, false => y = em.mantissa + 1 / 2
  | true, true => em.mantissa + 1 / 2 < y ∧ y < em.mantissa + 1

variable {em : ExtendedMantissa} {y : ℚ}

theorem Stands.floor (h : Stands em y) : ⌊y⌋ = em.mantissa := by
  rcases em with ⟨m, _ | _, _ | _⟩ <;> simp only [Stands] at h <;> rw [Int.floor_eq_iff] <;>
    push_cast <;> constructor <;> linarith

theorem Stands.roundedMantissa (h : Stands em y) : (em.roundedMantissa : ℤ) = nearestEven y := by
  have hfloor := h.floor
  unfold nearestEven
  rw [hfloor]
  rcases em with ⟨m, _ | _, _ | _⟩ <;> simp only [Stands] at h <;>
    simp only [ExtendedMantissa.roundedMantissa, ExtendedMantissa.accuracy,
      Accuracy.roundToNearestEven]
  all_goals
    push_cast
    split_ifs <;> first | rfl | omega | (exfalso; linarith)

theorem Stands.shiftRightOne (h : Stands em y) : Stands em.shiftRightOne (y / 2) := by
  rcases em with ⟨m, _ | _, _ | _⟩ <;> simp only [Stands] at h <;>
    rcases Nat.even_or_odd' m with ⟨k, rfl | rfl⟩ <;>
    simp [Stands, ExtendedMantissa.shiftRightOne, Nat.mul_add_div] at h ⊢ <;>
    first | linarith | (constructor <;> linarith)

theorem Stands.shiftRight (h : Stands em y) (n : ℕ) : Stands (em >>> n) (y / 2 ^ n) := by
  show Stands (n.repeat ExtendedMantissa.shiftRightOne em) _
  induction n with
  | zero => simpa [Nat.repeat] using h
  | succ n ih =>
    rw [Nat.repeat, pow_succ, ← div_div]
    exact ih.shiftRightOne

/-! ## Where the last digit is -/

theorem targetExponent_eq (m : ℕ) (e : ℤ) :
    Format.binary64.targetExponent (totalExponent m e) = max (m.log2 + e - 52) (-1074) := by
  unfold Format.targetExponent totalExponent
  have hbits : (Format.binary64.mantissaBits : ℤ) = 53 := rfl
  have hleast : Format.binary64.minExponent = -1074 := rfl
  rw [hbits, hleast]
  omega

/-- The format aims at the last digit of what a mantissa stands for. -/
theorem targetExponent_eq_lastDigit {m : ℕ} (hm : 0 < m) (hlower : m ≤ y) (hupper : y < m + 1)
    (e : ℤ) : Format.binary64.targetExponent (totalExponent m e) = lastDigit (y * 2 ^ e) := by
  have hy : 0 < y := (Nat.cast_pos.mpr hm).trans_le hlower
  have hq : 0 < y * 2 ^ e := mul_pos hy (two_zpow_pos e)
  obtain ⟨hlow, hhigh⟩ := (Nat.log2_eq_iff hm.ne').mp rfl
  have hlow' : (2 : ℚ) ^ m.log2 ≤ m := by exact_mod_cast hlow
  have hhigh' : (m + 1 : ℚ) ≤ 2 ^ (m.log2 + 1) := by exact_mod_cast hhigh
  have hlog : Int.log 2 (y * 2 ^ e) = m.log2 + e := by
    apply le_antisymm
    · rw [← Int.lt_add_one_iff, ← Int.lt_zpow_iff_log_lt one_lt_two hq, Nat.cast_two, add_right_comm,
        zpow_add₀ two_ne_zero, ← Nat.cast_succ, zpow_natCast]
      exact mul_lt_mul_of_pos_right (hupper.trans_le hhigh') (two_zpow_pos e)
    · rw [← Int.zpow_le_iff_le_log one_lt_two hq, Nat.cast_two, zpow_add₀ two_ne_zero, zpow_natCast]
      exact mul_le_mul_of_nonneg_right (hlow'.trans hlower) (two_zpow_pos e).le
  rw [targetExponent_eq]
  unfold lastDigit
  rw [abs_of_pos hq, hlog]

/-! ## Rounding -/

/-- An unpacked number is what a rational number rounds to. -/
structure Rounds (u : UnpackedFloat) (q : ℚ) : Prop where
  canonical : Canonical u
  isFinite : u.isFinite
  value : valueOf u = rounded q

/-- The carry of a rounded mantissa is shifted out. -/
theorem exists_shift_carry {r : ℕ} {t : ℤ} (hr : r ≤ 2 ^ 53) (ht : -1074 ≤ t)
    (hfull : 2 ^ 52 ≤ r ∨ t = -1074) :
    ∃ r' t', shiftToTargetExponent Format.binary64 r t .exact = (⟨r', false, false⟩, t') ∧
      (r' : ℚ) * 2 ^ t' = r * 2 ^ t ∧ Digits r' t' := by
  unfold shiftToTargetExponent shiftToExponent
  rw [targetExponent_eq]
  rcases hr.lt_or_eq with hlt | rfl
  · have hlog : r.log2 ≤ 52 := by
      rcases Nat.eq_zero_or_pos r with rfl | hpos
      · decide
      · exact Nat.lt_succ_iff.mp ((Nat.log2_lt hpos.ne').mpr hlt)
    have hstay : (max (r.log2 + t - 52) (-1074) - t).toNat = 0 := by omega
    simp only [hstay]
    exact ⟨r, t + (0 : ℕ), rfl, by rw [Nat.cast_zero, add_zero], hlt, by omega, by omega⟩
  · have hlog : (2 ^ 53).log2 = 53 := Nat.log2_two_pow
    have hmove : (max (((2 ^ 53).log2 : ℤ) + t - 52) (-1074) - t).toNat = 1 := by omega
    simp only [hmove]
    refine ⟨2 ^ 52, t + (1 : ℕ), rfl, ?_, by norm_num, by omega, .inl le_rfl⟩
    rw [zpow_add₀ two_ne_zero]
    push_cast
    ring

theorem nearestEven_scaled_le {q : ℚ} (hq : 0 < q) : nearestEven (q / 2 ^ lastDigit q) ≤ 2 ^ 53 := by
  apply nearestEven_le
  rw [div_le_iff₀ (two_zpow_pos _)]
  have hlog : Int.log 2 q + 1 ≤ 53 + lastDigit q := by
    unfold lastDigit
    rw [abs_of_pos hq]
    omega
  calc q ≤ 2 ^ (Int.log 2 q + 1) := (Int.lt_zpow_succ_log_self one_lt_two q).le
    _ ≤ 2 ^ (53 + lastDigit q) := zpow_le_zpow_right₀ one_le_two hlog
    _ = _ := by
      rw [zpow_add₀ two_ne_zero]
      norm_cast

theorem le_nearestEven_scaled {q : ℚ} (hq : 0 < q) (hdigit : lastDigit q ≠ -1074) :
    2 ^ 52 ≤ nearestEven (q / 2 ^ lastDigit q) := by
  apply le_nearestEven
  rw [le_div_iff₀ (two_zpow_pos _)]
  have hlog : 52 + lastDigit q = Int.log 2 q := by
    unfold lastDigit at hdigit ⊢
    rw [abs_of_pos hq] at hdigit ⊢
    omega
  calc ((2 ^ 52 : ℤ) : ℚ) * 2 ^ lastDigit q = 2 ^ (52 + lastDigit q) := by
        rw [zpow_add₀ two_ne_zero]
        norm_cast
    _ = 2 ^ Int.log 2 q := by rw [hlog]
    _ ≤ q := Int.zpow_log_le_self one_lt_two hq

theorem rounded_signed (s : Sign) (q : ℚ) : rounded (signed s q) = signed s (rounded q) := by
  cases s with
  | negative => exact rounded_neg q
  | positive => rfl

theorem Stands.bounds {m : ℕ} {acc : Accuracy} (hy : Stands (.ofMantissaAndAccuracy m acc) y) :
    (m : ℚ) ≤ y ∧ y < m + 1 := by
  have hmantissa : (ExtendedMantissa.ofMantissaAndAccuracy m acc).mantissa = m := by
    rcases acc with _ | (_ | _ | _) <;> rfl
  have hfloor := hy.floor
  rw [hmantissa, Int.floor_eq_iff] at hfloor
  exact_mod_cast hfloor

/-- The first shift drops the digits after the last one. -/
theorem exists_shift_digits {m : ℕ} {e : ℤ} {acc : Accuracy}
    (hy : Stands (.ofMantissaAndAccuracy m acc) y)
    (htarget : Format.binary64.targetExponent (totalExponent m e) = lastDigit (y * 2 ^ e))
    (he : e ≤ lastDigit (y * 2 ^ e)) :
    ∃ em, shiftToTargetExponent Format.binary64 m e acc = (em, lastDigit (y * 2 ^ e)) ∧
      (em.roundedMantissa : ℤ) = nearestEven (y * 2 ^ e / 2 ^ lastDigit (y * 2 ^ e)) := by
  let q := y * 2 ^ e
  have hsteps : e + ((lastDigit q - e).toNat : ℤ) = lastDigit q := by
    have : e ≤ lastDigit q := he
    omega
  refine ⟨ExtendedMantissa.ofMantissaAndAccuracy m acc >>> (lastDigit q - e).toNat, ?_, ?_⟩
  · unfold shiftToTargetExponent shiftToExponent
    rw [htarget]
    exact congrArg (Prod.mk _) hsteps
  · have hshift := (hy.shiftRight (lastDigit q - e).toNat).roundedMantissa
    have hpower : (2 : ℚ) ^ (lastDigit q - e).toNat * 2 ^ e = 2 ^ lastDigit q := by
      rw [← zpow_natCast, ← zpow_add₀ two_ne_zero, add_comm, hsteps]
    rw [← mul_div_mul_right _ _ (two_zpow_pos e).ne', hpower] at hshift
    exact hshift

/-- **Rounding.**  A mantissa with an accuracy that is shifted to the last digit of what it stands for
is rounded to the nearest number that keeps to the format. -/
theorem roundWithAccuracy_rounds_of_target (s : Sign) {m : ℕ} {e : ℤ} {acc : Accuracy} (hy₀ : 0 < y)
    (hy : Stands (.ofMantissaAndAccuracy m acc) y)
    (htarget : Format.binary64.targetExponent (totalExponent m e) = lastDigit (y * 2 ^ e))
    (he : e ≤ lastDigit (y * 2 ^ e)) :
    Rounds (roundWithAccuracy Format.binary64 s m e acc) (signed s (y * 2 ^ e)) := by
  have hpos : 0 < y * 2 ^ e := mul_pos hy₀ (two_zpow_pos e)
  obtain ⟨em, hfirst, hem⟩ := exists_shift_digits hy htarget he
  -- the second shift makes room for a carry
  obtain ⟨r, t, hsecond, hvalue, hdigits⟩ := exists_shift_carry (r := em.roundedMantissa)
    (t := lastDigit (y * 2 ^ e)) (by exact_mod_cast hem ▸ nearestEven_scaled_le hpos)
    (le_max_right _ _)
    (by
      rw [or_iff_not_imp_right]
      intro hdigit
      exact_mod_cast hem ▸ le_nearestEven_scaled hpos hdigit)
  have hrounded : (r : ℚ) * 2 ^ t = rounded (y * 2 ^ e) := by
    unfold rounded
    rw [hvalue, ← hem]
    rfl
  have hresult : roundWithAccuracy Format.binary64 s m e acc =
      if h : r = 0 then .zero s else .finite s r t (Nat.pos_of_ne_zero h) := by
    unfold roundWithAccuracy
    rw [hfirst]
    simp only [hsecond]
  rw [hresult]
  by_cases hr : r = 0
  · rw [dif_pos hr]
    refine ⟨trivial, rfl, ?_⟩
    rw [rounded_signed]
    show 0 = signed s (rounded (y * 2 ^ e))
    rw [← hrounded, hr, Nat.cast_zero, zero_mul, signed_zero]
  · rw [dif_neg hr]
    refine ⟨hdigits, rfl, ?_⟩
    rw [rounded_signed]
    exact congrArg (signed s) hrounded

/-- A mantissa that is not zero, and has no digit missing, is rounded to the nearest number. -/
theorem roundWithAccuracy_rounds (s : Sign) {m : ℕ} (hm : 0 < m) {e : ℤ} {acc : Accuracy}
    (hy : Stands (.ofMantissaAndAccuracy m acc) y) (he : e ≤ lastDigit (y * 2 ^ e)) :
    Rounds (roundWithAccuracy Format.binary64 s m e acc) (signed s (y * 2 ^ e)) := by
  obtain ⟨hlower, hupper⟩ := hy.bounds
  exact roundWithAccuracy_rounds_of_target s ((Nat.cast_pos.mpr hm).trans_le hlower) hy
    (targetExponent_eq_lastDigit hm hlower hupper e) he

theorem stands_exact (m : ℕ) : Stands (.ofMantissaAndAccuracy m .exact) m := rfl

/-- Missing digits are zeros. -/
theorem shiftLeft_value (m k : ℕ) (e : ℤ) :
    ((m <<< k : ℕ) : ℚ) * 2 ^ (e - (k : ℤ)) = m * 2 ^ e := by
  rw [Nat.shiftLeft_eq]
  push_cast
  rw [mul_assoc, ← zpow_natCast, ← zpow_add₀ two_ne_zero, add_sub_cancel]

/-- What may lack digits is rounded as well: first they are added. -/
theorem round_rounds (s : Sign) {m : ℕ} (hm : 0 < m) (e : ℤ) :
    Rounds (UnpackedFloat.round Format.binary64 s m e) (signed s (m * 2 ^ e)) := by
  have htarget : Format.binary64.targetExponent (totalExponent m e) = lastDigit (m * 2 ^ e) :=
    targetExponent_eq_lastDigit hm le_rfl (lt_add_one _) e
  let k := (e - lastDigit (m * 2 ^ e)).toNat
  have hm' : 0 < m <<< k := by
    rw [Nat.shiftLeft_eq]
    positivity
  have hdigit : e - (k : ℤ) ≤ lastDigit (((m <<< k : ℕ) : ℚ) * 2 ^ (e - (k : ℤ))) := by
    rw [shiftLeft_value]
    omega
  have hrounds := roundWithAccuracy_rounds s hm' (stands_exact _) hdigit
  rw [shiftLeft_value] at hrounds
  unfold UnpackedFloat.round
  rw [htarget]
  exact hrounds

/-! ## Operations -/

theorem signed_eq_apply (s : Sign) (m : ℕ) (e : ℤ) :
    signed s (m * 2 ^ e) = (s.apply m : ℤ) * 2 ^ e := by
  cases s <;> simp [signed, Sign.apply]

theorem normalize_rounds (n e : ℤ) (s : Sign) :
    Rounds (UnpackedFloat.normalize Format.binary64 n e s) (n * 2 ^ e) := by
  unfold UnpackedFloat.normalize
  rcases lt_trichotomy n 0 with hn | rfl | hn
  · rw [compare_lt_iff_lt.mpr hn]
    have hrounds := round_rounds .negative (m := (-n).toNat) (by omega) e
    have hvalue : Sign.negative.apply ((-n).toNat : ℤ) = n := by
      show -((-n).toNat : ℤ) = n
      omega
    rwa [signed_eq_apply, hvalue] at hrounds
  · refine ⟨trivial, rfl, ?_⟩
    rw [Int.cast_zero, zero_mul, rounded_zero]
    rfl
  · rw [compare_gt_iff_gt.mpr hn]
    have hrounds := round_rounds .positive (m := n.toNat) (by omega) e
    have hvalue : Sign.positive.apply (n.toNat : ℤ) = n := by
      show (n.toNat : ℤ) = n
      omega
    rwa [signed_eq_apply, hvalue] at hrounds

theorem decreaseExponent_value {m : ℕ} {e t : ℤ} (h : t ≤ e) :
    ((decreaseExponent m e t).1 : ℚ) * 2 ^ t = m * 2 ^ e := by
  have ht : t = e - ((e - t).toNat : ℤ) := by omega
  rw [← shiftLeft_value m (e - t).toNat e, ← ht]
  rfl

section Operations

variable {u v : UnpackedFloat}

theorem add_rounds (hu : Canonical u) (hv : Canonical v) (hu' : u.isFinite) (hv' : v.isFinite) :
    Rounds (UnpackedFloat.add Format.binary64 u v) (valueOf u + valueOf v) := by
  cases u with
  | notANumber => cases hu'
  | infinity s => cases hu'
  | zero s =>
    cases v with
    | notANumber => cases hv'
    | infinity s => cases hv'
    | zero s' =>
      have hvalue : rounded (valueOf (.zero s) + valueOf (.zero s')) = 0 := by
        show rounded (0 + 0) = 0
        rw [add_zero, rounded_zero]
      cases s <;> cases s' <;> exact ⟨trivial, rfl, hvalue.symm⟩
    | finite s' m e hm =>
      refine ⟨hv, rfl, ?_⟩
      show _ = rounded (0 + valueOf (.finite s' m e hm))
      rw [zero_add, rounded_valueOf hv]
      rfl
  | finite s m e hm =>
    cases v with
    | notANumber => cases hv'
    | infinity s => cases hv'
    | zero s' =>
      refine ⟨hu, rfl, ?_⟩
      show _ = rounded (valueOf (.finite s m e hm) + 0)
      rw [add_zero, rounded_valueOf hu]
      rfl
    | finite s' m' e' hm' =>
      have hrounds := normalize_rounds
        (s.apply (decreaseExponent m e (min e e')).1 + s'.apply (decreaseExponent m' e' (min e e')).1)
        (min e e') .positive
      have hsum : ((s.apply (decreaseExponent m e (min e e')).1 +
          s'.apply (decreaseExponent m' e' (min e e')).1 : ℤ) : ℚ) * 2 ^ min e e' =
          valueOf (.finite s m e hm) + valueOf (.finite s' m' e' hm') := by
        rw [Int.cast_add, add_mul, ← signed_eq_apply, ← signed_eq_apply,
          decreaseExponent_value (min_le_left e e'), decreaseExponent_value (min_le_right e e')]
        rfl
      rw [hsum] at hrounds
      exact hrounds

theorem signed_mul (s s' : Sign) (q q' : ℚ) :
    signed s q * signed s' q' = signed (s * s') (q * q') := by
  cases s <;> cases s'
  · exact neg_mul_neg q q'
  · exact neg_mul q q'
  · exact mul_neg q q'
  · rfl

/-- No digit of a product is missing: one factor has all digits, or both have the least exponent. -/
theorem Digits.mul {m m' : ℕ} {e e' : ℤ} (h : Digits m e) (h' : Digits m' e') (hm : 0 < m)
    (hm' : 0 < m') : e + e' ≤ lastDigit (((m * m' : ℕ) : ℚ) * 2 ^ (e + e')) := by
  have hpos : 0 < m * m' := Nat.mul_pos hm hm'
  rw [← targetExponent_eq_lastDigit hpos le_rfl (lt_add_one _), targetExponent_eq]
  by_cases hfull : 2 ^ 52 ≤ m * m'
  · have hlog := (Nat.le_log2 hpos.ne').mpr hfull
    omega
  · have hshort : ¬ 2 ^ 52 ≤ m := fun h => hfull (h.trans (Nat.le_mul_of_pos_right m hm'))
    have hshort' : ¬ 2 ^ 52 ≤ m' := fun h => hfull (h.trans (Nat.le_mul_of_pos_left m' hm))
    have he := h.full.resolve_left hshort
    have he' := h'.full.resolve_left hshort'
    omega

theorem mul_rounds (hu : Canonical u) (hv : Canonical v) (hu' : u.isFinite) (hv' : v.isFinite) :
    Rounds (UnpackedFloat.mul Format.binary64 u v) (valueOf u * valueOf v) := by
  cases u with
  | notANumber => cases hu'
  | infinity s => cases hu'
  | zero s =>
    cases v with
    | notANumber => cases hv'
    | infinity s => cases hv'
    | _ =>
      refine ⟨trivial, rfl, ?_⟩
      show 0 = rounded (0 * _)
      rw [zero_mul, rounded_zero]
  | finite s m e hm =>
    cases v with
    | notANumber => cases hv'
    | infinity s => cases hv'
    | zero s' =>
      refine ⟨trivial, rfl, ?_⟩
      show 0 = rounded (_ * 0)
      rw [mul_zero, rounded_zero]
    | finite s' m' e' hm' =>
      have hrounds := roundWithAccuracy_rounds (s * s') (Nat.mul_pos hm hm') (stands_exact _)
        (hu.mul hv hm hm')
      have hproduct : signed (s * s') (((m * m' : ℕ) : ℚ) * 2 ^ (e + e')) =
          valueOf (.finite s m e hm) * valueOf (.finite s' m' e' hm') := by
        show _ = signed s (m * 2 ^ e) * signed s' (m' * 2 ^ e')
        rw [signed_mul, zpow_add₀ two_ne_zero, Nat.cast_mul, mul_mul_mul_comm]
      rw [hproduct] at hrounds
      exact hrounds

end Operations

/-! ## Results -/

/-- A number is what a rational number rounds to. -/
structure IsRounded (x : Float) (q : ℚ) : Prop where
  isNaN : x.isNaN = false
  value : Binary64.value x = clamped (rounded q)

theorem Rounds.pack {u : UnpackedFloat} {q : ℚ} (h : Rounds u q) :
    IsRounded ⟨Float.Model.pack u⟩ q := by
  have hunpack : (Float.Model.pack u).unpack = settled u := unpack_pack h.canonical
  constructor
  · show (Float.Model.pack u).unpack.isNaN = false
    rw [hunpack, isNaN_settled]
    cases u with
    | notANumber => cases h.isFinite
    | _ => rfl
  · show valueOf (Float.Model.pack u).unpack = _
    rw [hunpack, valueOf_settled h.canonical, h.value]

section Float

variable {a b : Float} {p q : ℚ}

/-- Rounding keeps the order. -/
theorem IsRounded.mono (ha : IsRounded a p) (hb : IsRounded b q) (h : p ≤ q) : a ≤ b := by
  refine le_iff_value.mpr ⟨ha.isNaN, hb.isNaN, ?_⟩
  rw [ha.value, hb.value]
  exact clamped_mono (rounded_mono h)

/-- Nothing is rounded below zero that is not negative. -/
theorem IsRounded.nonneg (ha : IsRounded a p) (h : 0 ≤ p) : 0 ≤ a := by
  have hzero : IsRounded 0 0 := ⟨rfl, by decide +kernel⟩
  exact hzero.mono ha h

theorem value_isRounded (ha : a.isNaN = false) : IsRounded a (value a) := by
  refine ⟨ha, ?_⟩
  have hstored : Stored a.toModel.unpack := stored_unpack _
  unfold value
  rw [rounded_valueOf hstored.canonical, ← valueOf_settled hstored.canonical, hstored.settled_eq]

theorem add_isRounded (ha : a.isFinite) (hb : b.isFinite) :
    IsRounded (a + b) (value a + value b) :=
  (add_rounds (stored_unpack _).canonical (stored_unpack _).canonical ha hb).pack

theorem mul_isRounded (ha : a.isFinite) (hb : b.isFinite) :
    IsRounded (a * b) (value a * value b) :=
  (mul_rounds (stored_unpack _).canonical (stored_unpack _).canonical ha hb).pack

/-- What is not rounded up to the limit is finite, and has the rounded value. -/
theorem IsRounded.value_eq {x : Float} {q : ℚ} (h : IsRounded x q) (hq : |rounded q| < limit) :
    x.isFinite ∧ Binary64.value x = rounded q := by
  have hvalue : Binary64.value x = rounded q := h.value.trans (clamped_of_lt hq)
  exact ⟨isFinite_iff.mpr ⟨h.isNaN, by rwa [hvalue]⟩, hvalue⟩

/-- What is rounded below a power of two is finite, and off by little. -/
theorem IsRounded.value_of_lt {x : Float} {q : ℚ} {n : ℤ} (h : IsRounded x q) (hn : -1021 ≤ n)
    (hn' : n ≤ 1022) (hq : |q| < 2 ^ n) : x.isFinite ∧ |Binary64.value x - q| ≤ 2 ^ (n - 54) := by
  have hclose := abs_rounded_sub_le_of_lt hn hq
  have hpow : (2 : ℚ) ^ (n - 54) < 2 ^ n := zpow_lt_zpow_right₀ one_lt_two (by omega)
  have hlimit : (2 : ℚ) ^ n + 2 ^ n ≤ limit := by
    unfold limit
    rw [← mul_two, ← zpow_add_one₀ two_ne_zero]
    exact zpow_le_zpow_right₀ one_le_two (by omega)
  have hsize : |rounded q| < limit := by
    have htriangle := abs_sub_abs_le_abs_sub (rounded q) q
    linarith
  obtain ⟨hfinite, hvalue⟩ := h.value_eq hsize
  rw [hvalue]
  exact ⟨hfinite, hclose⟩

/-- What is finite has not been clamped. -/
theorem IsRounded.value_of_isFinite {x : Float} {q : ℚ} (h : IsRounded x q) (hx : x.isFinite) :
    Binary64.value x = rounded q := by
  have hsize := (isFinite_iff.mp hx).2
  rw [h.value] at hsize ⊢
  obtain ⟨hlower, hupper⟩ := abs_lt.mp hsize
  have hmin := (max_lt_iff.mp hupper).2
  have hbelow : rounded q < limit := (min_lt_iff.mp hmin).resolve_right fun h => h.false
  have habove : -limit < min (rounded q) limit := (lt_max_iff.mp hlower).resolve_left fun h => h.false
  exact clamped_of_lt (abs_lt.mpr ⟨(lt_min_iff.mp habove).1, hbelow⟩)

/-- What is no larger than a power of two stays so. -/
theorem IsRounded.abs_value_le {x : Float} {q : ℚ} {k : ℤ} (h : IsRounded x q) (hk : -1074 ≤ k)
    (hk' : k < 1024) (hq : |q| ≤ 2 ^ k) : x.isFinite ∧ |Binary64.value x| ≤ 2 ^ k := by
  have hexact (s : ℤ) (hs : |s| < 2 ^ 53) : rounded (s * 2 ^ k) = s * 2 ^ k :=
    rounded_of_digits hs hk
  have hupper := hexact 1 (by norm_num)
  have hlower := hexact (-1) (by norm_num)
  rw [Int.cast_neg, Int.cast_one, neg_one_mul] at hlower
  rw [Int.cast_one, one_mul] at hupper
  obtain ⟨hq₁, hq₂⟩ := abs_le.mp hq
  have hsize : |rounded q| ≤ 2 ^ k :=
    abs_le.mpr ⟨hlower ▸ rounded_mono hq₁, hupper ▸ rounded_mono hq₂⟩
  have hlimit : (2 : ℚ) ^ k < limit := zpow_lt_zpow_right₀ one_lt_two hk'
  obtain ⟨hfinite, hvalue⟩ := h.value_eq (hsize.trans_lt hlimit)
  exact ⟨hfinite, hvalue ▸ hsize⟩

theorem ofNat_rounds (n : ℕ) : Rounds (UnpackedFloat.ofNat Format.binary64 n) n := by
  have hrounds := normalize_rounds n 0 .positive
  rwa [zpow_zero, mul_one, Int.cast_natCast] at hrounds

/-- A whole number of at most 53 digits is not rounded. -/
theorem rounded_natCast {n : ℕ} (h : n < 2 ^ 53) : rounded n = n ∧ |rounded n| < limit := by
  have hdigits : rounded n = n := by
    have hrounded := rounded_of_digits (n := n) (e := 0) (by rw [Nat.abs_cast]; exact_mod_cast h)
      (by norm_num)
    rwa [zpow_zero, mul_one, Int.cast_natCast] at hrounded
  refine ⟨hdigits, ?_⟩
  rw [hdigits, Nat.abs_cast]
  calc (n : ℚ) < 2 ^ (53 : ℤ) := by exact_mod_cast h
    _ ≤ limit := zpow_le_zpow_right₀ one_le_two (by norm_num)

/-- Where the last digit counts ones, rounding gives the nearest whole number. -/
theorem IsRounded.exists_whole {x : Float} {q : ℚ} (h : IsRounded x q) (hlower : 2 ^ 52 ≤ q)
    (hupper : q ≤ 2 ^ 53 - 1) : ∃ m : ℕ, 2 ^ 52 ≤ m ∧ m < 2 ^ 53 ∧ |(m : ℚ) - q| ≤ 1 / 2 ∧
      x.isFinite ∧ Binary64.value x = m := by
  have hdigit : lastDigit q = 0 :=
    lastDigit_eq (by linarith) (by norm_num) (.inl (by simpa using hlower))
      (by rw [zpow_zero, mul_one]; linarith)
  have hwhole : rounded q = nearestEven q := by
    unfold rounded
    rw [hdigit, zpow_zero, div_one, mul_one]
  have hbelow : 2 ^ 52 ≤ nearestEven q := le_nearestEven (by exact_mod_cast hlower)
  have habove : nearestEven q ≤ 2 ^ 53 - 1 := nearestEven_le (by push_cast; linarith)
  obtain ⟨m, hm⟩ : ∃ m : ℕ, nearestEven q = m := ⟨(nearestEven q).toNat, by omega⟩
  have hcast : (nearestEven q : ℚ) = m := by rw [hm, Int.cast_natCast]
  have hclose := abs_nearestEven_sub_le q
  rw [hcast] at hwhole hclose
  obtain ⟨hrounded, hlimit⟩ := rounded_natCast (n := m) (by omega)
  obtain ⟨hfinite, hvalue⟩ := h.value_eq (by rwa [hwhole, ← hrounded])
  exact ⟨m, by omega, by omega, hclose, hfinite, hvalue.trans hwhole⟩

/-- A whole number of the format is not rounded. -/
theorem IsRounded.value_of_int {x : Float} {n : ℤ} (h : IsRounded x n) (hn : |n| < 2 ^ 53) :
    x.isFinite ∧ Binary64.value x = n := by
  have hrounded : rounded n = n := by
    simpa using rounded_of_digits hn (e := 0) (by norm_num)
  obtain ⟨hfinite, -⟩ := h.value_of_lt (n := 53) (by norm_num) (by norm_num) (by exact_mod_cast hn)
  exact ⟨hfinite, (h.value_of_isFinite hfinite).trans hrounded⟩

/-- Digits with zeros behind them are rounded once. -/
theorem ofScientific_rounds {n k : ℕ} (hn : 0 < n) (hk : k ≤ 2 ^ 11) :
    Rounds (UnpackedFloat.ofScientific Format.binary64 n k) ((n * 10 ^ k : ℕ) : ℚ) := by
  have hunpacked : UnpackedFloat.ofScientific Format.binary64 n k =
      roundWithAccuracy Format.binary64 .positive (n <<< 53 * 10 ^ k) (0 - (53 : ℕ)) .exact := by
    have hsmall : ¬ (k : ℤ) > 2 ^ Format.binary64.exponentBits := not_lt.mpr (by exact_mod_cast hk)
    unfold UnpackedFloat.ofScientific
    rw [dif_neg hn.ne', if_neg hsmall,
      if_neg (not_lt.mpr ((neg_nonpos.mpr (by positivity)).trans (Int.natCast_nonneg k))),
      if_pos (Int.natCast_nonneg k)]
    rfl
  have hvalue : ((n <<< 53 * 10 ^ k : ℕ) : ℚ) * 2 ^ (0 - (53 : ℕ) : ℤ) = (n * 10 ^ k : ℕ) := by
    rw [Nat.cast_mul, mul_right_comm, shiftLeft_value, zpow_zero, mul_one, ← Nat.cast_mul]
  have hone : 1 ≤ n * 10 ^ k := Nat.mul_pos hn (Nat.pow_pos (by decide))
  have hdigit : (0 - (53 : ℕ) : ℤ) ≤ lastDigit (n * 10 ^ k : ℕ) := by
    have hmono := lastDigit_mono (p := 1) (q := (n * 10 ^ k : ℕ)) one_pos (by exact_mod_cast hone)
    have hfirst : lastDigit 1 = -52 := by
      unfold lastDigit
      rw [abs_one, Int.log_one_right]
      rfl
    omega
  have hpos : 0 < n <<< 53 * 10 ^ k := by
    rw [Nat.shiftLeft_eq]
    positivity
  have hrounds := roundWithAccuracy_rounds .positive hpos (stands_exact _) (by rwa [hvalue])
  rw [hvalue] at hrounds
  rw [hunpacked]
  exact hrounds

/-- The digits of a natural number are rounded once, however many there are. -/
theorem ofNat_isRounded (n : ℕ) : IsRounded (Float.ofNat n) n := by
  by_cases hn : n < 2 ^ 53
  · -- a machine number times one
    have hfloat : Float.ofNat n = n.toUInt64.toFloat * Float.ofBits 0x3ff0000000000000 := by
      show Float.ofScientific n false 0 = _
      unfold Float.ofScientific
      rw [dif_pos ⟨hn, by decide⟩]
      rfl
    have hone : value (Float.ofBits 0x3ff0000000000000) = 1 := by decide +kernel
    have hword : n.toUInt64.toNat = n := Nat.mod_eq_of_lt (by omega)
    have hrounded := (ofNat_rounds n.toUInt64.toNat).pack
    rw [hword] at hrounded
    obtain ⟨hdigits, hlimit⟩ := rounded_natCast hn
    obtain ⟨hfinite, hvalue⟩ := hrounded.value_eq hlimit
    have hproduct := mul_isRounded hfinite (b := Float.ofBits 0x3ff0000000000000) (by decide +kernel)
    rw [hvalue, hdigits, hone, mul_one] at hproduct
    rw [hfloat]
    unfold UInt64.toFloat Float.Model.ofUInt64 UnpackedFloat.ofUInt64
    rwa [hword]
  · have hfloat : Float.ofNat n = ⟨Float.Model.ofScientific n 0⟩ := by
      show Float.ofScientific n false 0 = _
      unfold Float.ofScientific
      rw [dif_neg fun h => hn h.1]
      rfl
    have hrounds := ofScientific_rounds (k := 0) (show 0 < n by omega) (by decide)
    rw [pow_zero, mul_one] at hrounds
    rw [hfloat]
    exact hrounds.pack

/-! ## Comparisons -/

theorem ofNat_mono {m n : ℕ} (h : m ≤ n) : Float.ofNat m ≤ Float.ofNat n :=
  (ofNat_isRounded m).mono (ofNat_isRounded n) (Nat.cast_le.mpr h)

theorem ofNat_nonneg (n : ℕ) : 0 ≤ Float.ofNat n := (ofNat_isRounded n).nonneg (Nat.cast_nonneg n)

/-- Counts up to a power of two that is not too large are finite numbers no larger than it. -/
theorem abs_value_ofNat_le {n k : ℕ} (hk : k < 1024) (h : n ≤ 2 ^ k) :
    (Float.ofNat n).isFinite ∧ |value (Float.ofNat n)| ≤ 2 ^ k := by
  have hsize : |(n : ℚ)| ≤ 2 ^ (k : ℤ) := by
    rw [abs_of_nonneg (Nat.cast_nonneg n), zpow_natCast]
    exact_mod_cast h
  have hle := (ofNat_isRounded n).abs_value_le (by omega) (by omega) hsize
  rwa [zpow_natCast] at hle

theorem value_one : value 1 = 1 := by decide +kernel

theorem one_le_value_ofNat {n : ℕ} (h : 0 < n) : 1 ≤ value (Float.ofNat n) := by
  rw [← value_one]
  exact value_mono (ofNat_mono h)

/-- Natural numbers of at most 53 digits are numbers of the format. -/
theorem value_ofNat {n : ℕ} (h : n < 2 ^ 53) :
    (Float.ofNat n).isFinite ∧ value (Float.ofNat n) = n := by
  obtain ⟨hdigits, hlimit⟩ := rounded_natCast h
  obtain ⟨hfinite, hvalue⟩ := (ofNat_isRounded n).value_eq hlimit
  exact ⟨hfinite, hvalue.trans hdigits⟩

/-- The largest finite number. -/
def largestFinite : Float := Float.ofBits 0x7fefffffffffffff

theorem Stored.valueOf_le {u : UnpackedFloat} (hu : Stored u) (hfinite : u.isFinite) :
    valueOf u ≤ (2 ^ 53 - 1) * 2 ^ (971 : ℤ) := by
  have hlargest : (0 : ℚ) ≤ (2 ^ 53 - 1) * 2 ^ (971 : ℤ) :=
    mul_nonneg (by norm_num) (two_zpow_pos _).le
  cases u with
  | notANumber => cases hfinite
  | infinity s => cases hfinite
  | zero s => exact hlargest
  | finite s m e hm =>
    have hsize : 0 ≤ (m : ℚ) * 2 ^ e := mul_nonneg (Nat.cast_nonneg m) (two_zpow_pos e).le
    cases s with
    | negative => exact (neg_nonpos.mpr hsize).trans hlargest
    | positive =>
      have hm' : (m : ℚ) ≤ 2 ^ 53 - 1 := by
        have hlt := hu.1.upper
        rw [le_sub_iff_add_le]
        exact_mod_cast hlt
      exact mul_le_mul hm' (zpow_le_zpow_right₀ one_le_two hu.2) (two_zpow_pos e).le (by norm_num)

theorem le_largestFinite (ha : a.isFinite) : a ≤ largestFinite := by
  have hvalue : value largestFinite = (2 ^ 53 - 1) * 2 ^ (971 : ℤ) := by decide +kernel
  refine le_iff_value.mpr ⟨isNaN_of_isFinite ha, by decide +kernel, ?_⟩
  rw [hvalue]
  exact (stored_unpack _).valueOf_le ha

/-- A number between finite numbers is finite. -/
theorem isFinite_of_le {b c : Float} (ha : a.isFinite) (hc : c.isFinite) (hab : a ≤ b)
    (hbc : b ≤ c) : b.isFinite := by
  obtain ⟨-, hb, hab⟩ := le_iff_value.mp hab
  obtain ⟨-, -, hbc⟩ := le_iff_value.mp hbc
  have hlower := (abs_lt.mp (isFinite_iff.mp ha).2).1
  have hupper := (abs_lt.mp (isFinite_iff.mp hc).2).2
  exact isFinite_iff.mpr ⟨hb, abs_lt.mpr ⟨hlower.trans_le hab, hbc.trans_lt hupper⟩⟩

/-- A sum with a number that is not negative is no less than the other one. -/
theorem le_add_of_nonneg (ha : a.isFinite) (hb : b.isFinite) (h : 0 ≤ value b) : a ≤ a + b :=
  (value_isRounded (isNaN_of_isFinite ha)).mono (add_isRounded ha hb) (le_add_of_nonneg_right h)

/-- One is lost beside the largest number. -/
theorem isFinite_one_add (ha : a.isFinite) (h : 0 ≤ value a) : (1 + a).isFinite := by
  have hone : (1 : Float).isFinite := by decide +kernel
  have hlost : (1 : Float) + largestFinite = largestFinite := by decide +kernel
  have hle : 1 + a ≤ 1 + largestFinite :=
    (add_isRounded hone ha).mono (add_isRounded hone (by decide +kernel))
      (add_le_add_right (value_mono (le_largestFinite ha)) _)
  rw [hlost] at hle
  exact isFinite_of_le hone (by decide +kernel) (le_add_of_nonneg hone ha h) hle

theorem isNaN_of_value_pos (h : 0 < value a) : a.isNaN = false := by
  show a.toModel.unpack.isNaN = false
  rcases positive_of_valueOf_pos h with hu | ⟨m, e, hm, hu⟩ <;> rw [hu] <;> rfl

theorem mul_of_infinite (ha : 0 < value a) (hb : 0 < value b) (h : ¬ (a.isFinite ∧ b.isFinite)) :
    (a * b).toModel.unpack = .infinity .positive := by
  have hmul : UnpackedFloat.mul Format.binary64 a.toModel.unpack b.toModel.unpack =
      .infinity .positive := by
    rcases positive_of_valueOf_pos ha with hu | ⟨m, e, hm, hu⟩ <;>
      rcases positive_of_valueOf_pos hb with hv | ⟨m', e', hm', hv⟩
    · rw [hu, hv]
      rfl
    · rw [hu, hv]
      rfl
    · rw [hu, hv]
      rfl
    · exfalso
      apply h
      show a.toModel.unpack.isFinite ∧ b.toModel.unpack.isFinite
      rw [hu, hv]
      exact ⟨rfl, rfl⟩
  show UnpackedFloat.unpack _ (UnpackedFloat.pack _ (UnpackedFloat.mul _ _ _)) = _
  rw [hmul]
  exact unpack_packedInfinity .positive

/-- A product with a number that is at least one is no less than the other one. -/
theorem le_mul_of_one_le (ha : 0 < value a) (hb : 1 ≤ value b) : a ≤ a * b := by
  have hnan := isNaN_of_value_pos ha
  by_cases h : a.isFinite ∧ b.isFinite
  · exact (value_isRounded hnan).mono (mul_isRounded h.1 h.2) (le_mul_of_one_le_right ha.le hb)
  · have hproduct := mul_of_infinite ha (one_pos.trans_le hb) h
    refine le_iff_value.mpr ⟨hnan, ?_, ?_⟩
    · show (a * b).toModel.unpack.isNaN = false
      rw [hproduct]
      rfl
    · have hvalue : value (a * b) = limit := by
        unfold value
        rw [hproduct]
        rfl
      rw [hvalue, (value_isRounded hnan).value]
      exact max_le (neg_le_self limit_pos.le) (min_le_right _ _)

/-- Nothing times zero is positive. -/
theorem value_zero_mul (b : Float) : value (0 * b) = 0 := by
  have hzero : (0 : Float).toModel.unpack = .zero .positive := rfl
  have hmul : ∃ u, UnpackedFloat.mul Format.binary64 (.zero .positive) b.toModel.unpack = u ∧
      Canonical u ∧ valueOf (settled u) = 0 := by
    refine ⟨_, rfl, ?_⟩
    cases b.toModel.unpack <;> exact ⟨trivial, rfl⟩
  obtain ⟨u, hu, hcanonical, hvalue⟩ := hmul
  show valueOf (UnpackedFloat.unpack _ (UnpackedFloat.pack _
    (UnpackedFloat.mul _ (0 : Float).toModel.unpack b.toModel.unpack))) = 0
  rw [hzero, hu, unpack_pack hcanonical, hvalue]

end Float

end CurveFit.Binary64
