import CurveFit.Proofs.Binary64.Value
import CurveFit.Text.Shortest

/-!
# The shortest decimal lies near the number

For a positive number of the format, the decimal that `shortestOf` finds has at most seventeen digits
and rounds to the number: it lies in `RoundingInterval`, since a grid of seventeen digits is finer
than the interval is wide (`RoundingInterval.isSome_hit?`).
-/

namespace CurveFit.Text

open Binary64

/-- The number that a decimal stands for. -/
def Decimal.value (d : Decimal) : ℚ := d.digits * 10 ^ d.exponent

theorem ten_zpow_pos (e : ℤ) : (0 : ℚ) < 10 ^ e := zpow_pos (by norm_num) e

theorem powerOfTen_eq (p : ℤ) : ((powerOfTen p).1 : ℚ) / (powerOfTen p).2 = 10 ^ p := by
  show ((10 ^ p.toNat : ℕ) : ℚ) / (10 ^ (-p).toNat : ℕ) = _
  push_cast
  rw [← zpow_natCast, ← zpow_natCast, ← zpow_sub₀ (by norm_num)]
  congr 1
  omega

theorem powerOfTen_pos (p : ℤ) : 0 < (powerOfTen p).1 ∧ 0 < (powerOfTen p).2 :=
  ⟨Nat.pow_pos (by decide), Nat.pow_pos (by decide)⟩

/-! ## Decimal orders -/

theorem lt_pow_digitCount (n : ℕ) : n < 10 ^ digitCount n :=
  (Nat.length_toDigits_le_iff (by decide) Nat.length_toDigits_pos).mp le_rfl

theorem digitCount_pos (n : ℕ) : 0 < digitCount n := Nat.length_toDigits_pos

theorem pow_digitCount_le {n : ℕ} (hn : 0 < n) : 10 ^ (digitCount n - 1) ≤ n := by
  rcases Nat.eq_zero_or_pos (digitCount n - 1) with h0 | hpos
  · rw [h0]
    exact hn
  · by_contra hlt
    have hle := (Nat.length_toDigits_le_iff (by decide) hpos).mpr (not_le.mp hlt)
    have hcount : digitCount n ≤ digitCount n - 1 := hle
    omega

/-- The digits of a whole quotient say between which powers of ten the quotient lies. -/
theorem digitCount_quotient {a b : ℕ} (hb : 0 < b) (h : b ≤ a) :
    10 ^ (digitCount (a / b) - 1) * b ≤ a ∧ a < 10 ^ digitCount (a / b) * b := by
  refine ⟨?_, (Nat.div_lt_iff_lt_mul hb).mp (lt_pow_digitCount _)⟩
  exact (Nat.le_div_iff_mul_le hb).mp (pow_digitCount_le (Nat.div_pos h hb))

/-- The decimal order of a quotient. -/
theorem decimalOrder_spec {num den : ℕ} (hnum : 0 < num) (hden : 0 < den) :
    (10 : ℚ) ^ (decimalOrder num den - 1) ≤ num / den ∧
      (num : ℚ) / den < 10 ^ decimalOrder num den := by
  have hnum' : (0 : ℚ) < num := Nat.cast_pos.mpr hnum
  have hden' : (0 : ℚ) < den := Nat.cast_pos.mpr hden
  unfold decimalOrder
  by_cases hle : den ≤ num
  · obtain ⟨hlower, hupper⟩ := digitCount_quotient hden hle
    have hcount := digitCount_pos (num / den)
    have hlower' : (10 : ℚ) ^ (digitCount (num / den) - 1) * den ≤ num := by exact_mod_cast hlower
    have hupper' : (num : ℚ) < 10 ^ digitCount (num / den) * den := by exact_mod_cast hupper
    rw [if_pos hle, le_div_iff₀ hden', div_lt_iff₀ hden', zpow_natCast]
    rw [← zpow_natCast, Nat.cast_sub hcount, Nat.cast_one] at hlower'
    exact ⟨hlower', hupper'⟩
  · obtain ⟨hlower, hupper⟩ := digitCount_quotient hnum (not_le.mp hle).le
    rw [if_neg hle]
    generalize hzeros : digitCount (den / num) = zeros at hlower hupper ⊢
    have hcount : 0 < zeros := hzeros ▸ digitCount_pos _
    have hlower' : (10 : ℚ) ^ ((zeros : ℤ) - 1) * num ≤ den := by
      have hcast : (10 : ℚ) ^ (zeros - 1) * num ≤ den := by exact_mod_cast hlower
      rwa [← zpow_natCast, Nat.cast_sub hcount, Nat.cast_one] at hcast
    have hupper' : (den : ℚ) < 10 ^ (zeros : ℤ) * num := by
      rw [zpow_natCast]
      exact_mod_cast hupper
    -- the orders of the quotient are those of its inverse turned over
    have hle_iff : ∀ k : ℤ, (10 : ℚ) ^ (-k) ≤ num / den ↔ (den : ℚ) ≤ 10 ^ k * num := by
      intro k
      rw [le_div_iff₀ hden', zpow_neg, inv_mul_le_iff₀ (ten_zpow_pos k)]
    have hlt_iff : ∀ k : ℤ, (num : ℚ) / den < 10 ^ (-k) ↔ (10 : ℚ) ^ k * num < den := by
      intro k
      rw [div_lt_iff₀ hden', zpow_neg, ← div_eq_inv_mul, lt_div_iff₀' (ten_zpow_pos k)]
    by_cases hpower : num * Nat.pow 10 (zeros - 1) = den
    · have hpower' : (10 : ℚ) ^ ((zeros : ℤ) - 1) * num = den := by
        have hcast : (num : ℚ) * 10 ^ (zeros - 1) = den := by exact_mod_cast hpower
        rwa [← zpow_natCast, Nat.cast_sub hcount, Nat.cast_one, mul_comm] at hcast
      have hless : (10 : ℚ) ^ ((zeros : ℤ) - 2) * num < den := by
        rw [← hpower']
        exact mul_lt_mul_of_pos_right (zpow_lt_zpow_right₀ (by norm_num) (by omega)) hnum'
      rw [if_pos hpower, show (2 : ℤ) - zeros - 1 = -((zeros : ℤ) - 1) by ring,
        show (2 : ℤ) - zeros = -((zeros : ℤ) - 2) by ring]
      exact ⟨(hle_iff _).mpr hpower'.ge, (hlt_iff _).mpr hless⟩
    · have hne : (10 : ℚ) ^ ((zeros : ℤ) - 1) * num ≠ den := by
        intro heq
        rw [show (zeros : ℤ) - 1 = (zeros - 1 : ℕ) by omega, zpow_natCast, mul_comm] at heq
        exact hpower (by exact_mod_cast heq)
      rw [if_neg hpower, show (1 : ℤ) - zeros - 1 = -(zeros : ℤ) by ring,
        show (1 : ℤ) - zeros = -((zeros : ℤ) - 1) by ring]
      exact ⟨(hle_iff _).mpr hupper'.le, (hlt_iff _).mpr (lt_of_le_of_ne hlower' hne)⟩

/-! ## Grids -/

namespace RoundingInterval

variable {i : RoundingInterval} {a b : ℕ}

theorem le_of_below (h : i.below a b) : a ≤ b := by
  unfold below at h
  split_ifs at h
  · exact of_decide_eq_true h
  · exact (of_decide_eq_true h).le

theorem below_of_lt (h : a < b) : i.below a b := by
  unfold below
  split_ifs
  · exact decide_eq_true h.le
  · exact decide_eq_true h

theorem le_of_not_below (h : i.below a b = false) : b ≤ a := by
  by_contra hlt
  rw [below_of_lt (not_le.mp hlt)] at h
  cases h

/-- The ends of an interval, with the number strictly between them. -/
structure Proper (i : RoundingInterval) : Prop where
  den : 0 < i.den
  low : i.low < i.value
  high : i.value < i.high

/-- `n` units of the grid `10 ^ (-p)` lie in the interval. -/
structure Holds (i : RoundingInterval) (p : ℤ) (n : ℕ) : Prop where
  low : i.below (i.low * (powerOfTen p).1) (n * (i.den * (powerOfTen p).2))
  high : i.below (n * (i.den * (powerOfTen p).2)) (i.high * (powerOfTen p).1)

variable {p : ℤ} {tie : Tie}

theorem roundQuotient_cases (num den : ℕ) (tie : Tie) :
    roundQuotient num den tie = num / den ∨ roundQuotient num den tie = num / den + 1 := by
  unfold roundQuotient
  dsimp only
  split_ifs <;> simp

/-- **A hit** lies in the interval, and beside the number on its grid. -/
theorem hit?_eq_some (hi : i.Proper) {d : Decimal} (h : i.hit? p tie = some d) :
    i.Holds p d.digits ∧ d.exponent = -p ∧
      (d.digits = i.value * (powerOfTen p).1 / (i.den * (powerOfTen p).2) ∨
        d.digits = i.value * (powerOfTen p).1 / (i.den * (powerOfTen p).2) + 1) := by
  obtain ⟨hup, hdown⟩ := powerOfTen_pos p
  have hlow := Nat.mul_lt_mul_of_pos_right hi.low hup
  have hhigh := Nat.mul_lt_mul_of_pos_right hi.high hup
  have hunit : 0 < i.den * (powerOfTen p).2 := Nat.mul_pos hi.den hdown
  have hfloor := Nat.div_mul_le_self (i.value * (powerOfTen p).1) (i.den * (powerOfTen p).2)
  have hceil := (Nat.div_lt_iff_lt_mul hunit).mp
    (Nat.lt_succ_self (i.value * (powerOfTen p).1 / (i.den * (powerOfTen p).2)))
  unfold hit? at h
  dsimp only at h
  split at h
  case h_1 => cases h
  case h_2 hlowHit hhighHit =>
    cases h
    exact ⟨⟨hlowHit, below_of_lt (hfloor.trans_lt hhigh)⟩, rfl, .inl rfl⟩
  case h_3 hlowHit hhighHit =>
    cases h
    exact ⟨⟨below_of_lt (hlow.trans hceil), hhighHit⟩, rfl, .inr rfl⟩
  case h_4 hlowHit hhighHit =>
    cases h
    refine ⟨?_, rfl, roundQuotient_cases ..⟩
    rcases roundQuotient_cases (i.value * (powerOfTen p).1) (i.den * (powerOfTen p).2) tie with
      hround | hround
    · rw [hround]
      exact ⟨hlowHit, below_of_lt (hfloor.trans_lt hhigh)⟩
    · rw [hround]
      exact ⟨below_of_lt (hlow.trans hceil), hhighHit⟩

/-- A grid whose unit is less than the width of the interval has a hit. -/
theorem isSome_hit? (h : i.low * (powerOfTen p).1 + i.den * (powerOfTen p).2 <
    i.high * (powerOfTen p).1) : (i.hit? p tie).isSome := by
  unfold hit?
  dsimp only
  split
  case h_1 hlowHit hhighHit =>
    have hbelow := le_of_not_below hlowHit
    have habove := le_of_not_below hhighHit
    rw [Nat.add_mul, Nat.one_mul] at habove
    omega
  all_goals rfl

end RoundingInterval

/-! ## The numbers that round to a number -/

/-- How far below a number those reach that round to it, in units of its last digit. -/
def reachBelow (m : ℕ) (e : ℤ) : ℚ := if m = hiddenBit ∧ e ≠ -1074 then 1 / 4 else 1 / 2

/-- A number lies where those lie that round to `m * 2 ^ e`. -/
structure Near (m : ℕ) (e : ℤ) (q : ℚ) : Prop where
  lower : (m - reachBelow m e) * 2 ^ e ≤ q
  upper : q ≤ (m + 1 / 2) * 2 ^ e
  odd : m % 2 = 1 → (m - reachBelow m e) * 2 ^ e < q ∧ q < (m + 1 / 2) * 2 ^ e

section Interval

variable {p : Parts}

theorem roundingInterval_den (p : Parts) : 0 < (roundingInterval p).den := Nat.pow_pos (by decide)

theorem roundingInterval_unit (p : Parts) :
    ((2 ^ (p.exponent - 2).toNat : ℕ) : ℚ) / (roundingInterval p).den = 2 ^ p.exponent / 4 := by
  show ((2 ^ (p.exponent - 2).toNat : ℕ) : ℚ) / (2 ^ (-(p.exponent - 2)).toNat : ℕ) = _
  push_cast
  rw [← zpow_natCast, ← zpow_natCast, ← zpow_sub₀ two_ne_zero,
    show ((p.exponent - 2).toNat : ℤ) - ((-(p.exponent - 2)).toNat : ℤ) = p.exponent - 2 by omega,
    zpow_sub₀ two_ne_zero]
  norm_num

theorem roundingInterval_high (p : Parts) :
    ((roundingInterval p).high : ℚ) / (roundingInterval p).den =
      (p.significand + 1 / 2) * 2 ^ p.exponent := by
  show (((4 * p.significand + 2) * 2 ^ (p.exponent - 2).toNat : ℕ) : ℚ) / _ = _
  rw [Nat.cast_mul, mul_div_assoc, roundingInterval_unit]
  push_cast
  ring

theorem roundingInterval_low (hp : 0 < p.significand) :
    ((roundingInterval p).low : ℚ) / (roundingInterval p).den =
      (p.significand - reachBelow p.significand p.exponent) * 2 ^ p.exponent := by
  show (((4 * p.significand - if p.significand = hiddenBit ∧ p.exponent ≠ -1074 then 1 else 2) *
    2 ^ (p.exponent - 2).toNat : ℕ) : ℚ) / _ = _
  rw [Nat.cast_mul, mul_div_assoc, roundingInterval_unit]
  unfold reachBelow
  split_ifs
  · rw [Nat.cast_sub (by omega)]
    push_cast
    ring
  · rw [Nat.cast_sub (by omega)]
    push_cast
    ring

theorem roundingInterval_proper (hp : 0 < p.significand) : (roundingInterval p).Proper := by
  have hunit : 0 < 2 ^ (p.exponent - 2).toNat := Nat.pow_pos (by decide)
  refine ⟨roundingInterval_den p, ?_, ?_⟩
  · refine Nat.mul_lt_mul_of_pos_right ?_ hunit
    split_ifs <;> omega
  · exact Nat.mul_lt_mul_of_pos_right (by omega) hunit

/-- What the interval holds on a grid lies near the number. -/
theorem RoundingInterval.Holds.near (hp : 0 < p.significand) {g : ℤ} {n : ℕ}
    (h : (roundingInterval p).Holds g n) :
    Near p.significand p.exponent (Decimal.value ⟨n, -g⟩) := by
  obtain ⟨hup, hdown⟩ := powerOfTen_pos g
  have hup' : (0 : ℚ) < (powerOfTen g).1 := Nat.cast_pos.mpr hup
  have hden' : (0 : ℚ) < (roundingInterval p).den := Nat.cast_pos.mpr (roundingInterval_den p)
  have hvalue : Decimal.value ⟨n, -g⟩ =
      ((n * ((roundingInterval p).den * (powerOfTen g).2) : ℕ) : ℚ) /
        ((roundingInterval p).den * (powerOfTen g).1) := by
    show (n : ℚ) * 10 ^ (-g) = _
    rw [zpow_neg, ← powerOfTen_eq]
    push_cast
    field_simp
  have hscale : ∀ a : ℕ, (a : ℚ) / (roundingInterval p).den =
      ((a * (powerOfTen g).1 : ℕ) : ℚ) / ((roundingInterval p).den * (powerOfTen g).1) := by
    intro a
    push_cast
    field_simp
  have hpos : (0 : ℚ) < (roundingInterval p).den * (powerOfTen g).1 := mul_pos hden' hup'
  rw [hvalue]
  constructor
  · rw [← roundingInterval_low hp, hscale, div_le_div_iff_of_pos_right hpos]
    exact_mod_cast RoundingInterval.le_of_below h.low
  · rw [← roundingInterval_high, hscale, div_le_div_iff_of_pos_right hpos]
    exact_mod_cast RoundingInterval.le_of_below h.high
  · intro hodd
    have hopen : (roundingInterval p).closed = false := by
      show (p.significand % 2 == 0) = false
      rw [hodd]
      rfl
    have hlow := h.low
    have hhigh := h.high
    unfold RoundingInterval.below at hlow hhigh
    rw [hopen] at hlow hhigh
    rw [← roundingInterval_low hp, ← roundingInterval_high, hscale, hscale,
      div_lt_div_iff_of_pos_right hpos, div_lt_div_iff_of_pos_right hpos]
    exact ⟨by exact_mod_cast of_decide_eq_true hlow, by exact_mod_cast of_decide_eq_true hhigh⟩

end Interval

/-! ## The decimal that is found -/

/-- On the grid for `n` digits after the first, a number has so many whole units. -/
theorem grid_bounds {value den : ℕ} (hvalue : 0 < value) (hden : 0 < den) (n : ℕ) :
    10 ^ n * (den * (powerOfTen (n + 1 - decimalOrder value den)).2) ≤
        value * (powerOfTen (n + 1 - decimalOrder value den)).1 ∧
      value * (powerOfTen (n + 1 - decimalOrder value den)).1 <
        10 ^ (n + 1) * (den * (powerOfTen (n + 1 - decimalOrder value den)).2) := by
  obtain ⟨hlower, hupper⟩ := decimalOrder_spec hvalue hden
  generalize decimalOrder value den = k at hlower hupper ⊢
  have hpow := powerOfTen_eq (n + 1 - k)
  obtain ⟨-, hdown⟩ := powerOfTen_pos (n + 1 - k)
  generalize (powerOfTen (n + 1 - k)).1 = up, (powerOfTen (n + 1 - k)).2 = down at hpow hdown ⊢
  have hten := ten_zpow_pos (n + 1 - k)
  have hunit : (0 : ℚ) < ((den * down : ℕ) : ℚ) := Nat.cast_pos.mpr (Nat.mul_pos hden hdown)
  have hscaled : (value : ℚ) / den * 10 ^ (n + 1 - k) = ((value * up : ℕ) : ℚ) / (den * down : ℕ) := by
    rw [← hpow]
    push_cast
    rw [div_mul_div_comm]
  have hlower' := mul_le_mul_of_nonneg_right hlower hten.le
  have hupper' := mul_lt_mul_of_pos_right hupper hten
  rw [hscaled, ← zpow_add₀ (by norm_num), le_div_iff₀ hunit,
    show k - 1 + ((n : ℤ) + 1 - k) = n by ring, zpow_natCast] at hlower'
  rw [hscaled, ← zpow_add₀ (by norm_num), div_lt_iff₀ hunit,
    show k + ((n : ℤ) + 1 - k) = (n + 1 : ℕ) by push_cast; ring, zpow_natCast] at hupper'
  exact ⟨by exact_mod_cast hlower', by exact_mod_cast hupper'⟩

section Found

variable {p : Parts} {tie : Tie}

/-- Seventeen digits are enough. -/
theorem isSome_hit?_of_order (hp : 0 < p.significand) (hupper : p.significand < 2 ^ 53) :
    ((roundingInterval p).hit?
      (16 + 1 - decimalOrder (roundingInterval p).value (roundingInterval p).den) tie).isSome := by
  have hvalue : 0 < (roundingInterval p).value := Nat.zero_lt_of_lt (roundingInterval_proper hp).low
  have hgrid := (grid_bounds hvalue (roundingInterval_den p) 16).1
  apply RoundingInterval.isSome_hit?
  rw [Nat.cast_ofNat] at hgrid
  obtain ⟨hup, -⟩ := powerOfTen_pos
    (16 + 1 - decimalOrder (roundingInterval p).value (roundingInterval p).den)
  generalize (powerOfTen (16 + 1 - decimalOrder (roundingInterval p).value
    (roundingInterval p).den)).1 = up at hgrid hup ⊢
  generalize (roundingInterval p).den * (powerOfTen (16 + 1 - decimalOrder
    (roundingInterval p).value (roundingInterval p).den)).2 = unit at hgrid ⊢
  have hpow : 0 < 2 ^ (p.exponent - 2).toNat := Nat.pow_pos (by decide)
  have hscale := Nat.mul_pos hpow hup
  -- the ends and the number, in multiples of one scale
  have hvalue : (roundingInterval p).value * up =
      4 * p.significand * (2 ^ (p.exponent - 2).toNat * up) := Nat.mul_assoc ..
  have hlow : (roundingInterval p).low * up =
      (4 * p.significand - if p.significand = hiddenBit ∧ p.exponent ≠ -1074 then 1 else 2) *
        (2 ^ (p.exponent - 2).toNat * up) := Nat.mul_assoc ..
  have hhigh : (roundingInterval p).high * up =
      (4 * p.significand + 2) * (2 ^ (p.exponent - 2).toNat * up) := Nat.mul_assoc ..
  rw [hvalue] at hgrid
  rw [hlow, hhigh]
  generalize 2 ^ (p.exponent - 2).toNat * up = scale at hgrid hscale ⊢
  have hwide : ∀ gap, gap ≤ 4 * p.significand → 4 * p.significand < 10 ^ 16 * (gap + 2) →
      (4 * p.significand - gap) * scale + unit < (4 * p.significand + 2) * scale := by
    intro gap hgap hless
    have hwidth : (4 * p.significand + 2) * scale =
        (4 * p.significand - gap) * scale + (gap + 2) * scale := by
      rw [← Nat.add_mul]
      congr 1
      omega
    have hunit : 10 ^ 16 * unit < 10 ^ 16 * ((gap + 2) * scale) := by
      rw [← Nat.mul_assoc]
      exact hgrid.trans_lt (Nat.mul_lt_mul_of_pos_right hless hscale)
    rw [hwidth]
    exact Nat.add_lt_add_left (Nat.lt_of_mul_lt_mul_left hunit) _
  split_ifs with hpower
  · obtain ⟨hhidden, -⟩ := hpower
    rw [hhidden] at hwide ⊢
    exact hwide 1 (by decide) (by decide)
  · exact hwide 2 (by omega) (by omega)

theorem Decimal.stripped_spec (d : Decimal) :
    d.stripped.value = d.value ∧ d.stripped.digits ≤ d.digits ∧
      (0 < d.digits → 0 < d.stripped.digits) := by
  induction d using Decimal.stripped.induct with
  | case1 d h ih =>
    obtain ⟨hvalue, hle, hpos⟩ := ih
    have hdigits : d.digits = 10 * (d.digits / 10) := by omega
    rw [Decimal.stripped, dif_pos h]
    refine ⟨hvalue.trans ?_, hle.trans (Nat.div_le_self _ _), fun _ => hpos (by
      show 0 < d.digits / 10
      omega)⟩
    show ((d.digits / 10 : ℕ) : ℚ) * 10 ^ (d.exponent + 1) = d.digits * 10 ^ d.exponent
    rw [zpow_add_one₀ (by norm_num)]
    conv_rhs => rw [hdigits]
    push_cast
    ring
  | case2 d h =>
    rw [Decimal.stripped, dif_neg h]
    exact ⟨rfl, le_rfl, id⟩

/-- **The shortest decimal** of a positive number rounds to it and has at most seventeen digits. -/
theorem shortestOf_spec (hp : 0 < p.significand) (hupper : p.significand < 2 ^ 53) (tie : Tie) :
    0 < (shortestOf p tie).digits ∧ (shortestOf p tie).digits ≤ 10 ^ 17 ∧
      Near p.significand p.exponent (shortestOf p tie).value := by
  have hi := roundingInterval_proper hp
  have hvalue : 0 < (roundingInterval p).value := Nat.zero_lt_of_lt hi.low
  have hden := roundingInterval_den p
  have hsome : ((List.range 17).findSome? fun (n : ℕ) => (roundingInterval p).hit?
      (n + 1 - decimalOrder (roundingInterval p).value (roundingInterval p).den) tie).isSome :=
    List.findSome?_isSome_iff.mpr ⟨16, by decide, isSome_hit?_of_order hp hupper⟩
  obtain ⟨d, hfound⟩ := Option.isSome_iff_exists.mp hsome
  have hshortest : shortestOf p tie = d.stripped := by
    unfold shortestOf
    dsimp only
    rw [hfound]
    rfl
  obtain ⟨n, hn, hhit⟩ := List.exists_of_findSome?_eq_some hfound
  obtain ⟨hholds, hexponent, hdigits⟩ := RoundingInterval.hit?_eq_some hi hhit
  obtain ⟨hlower, hupper'⟩ := grid_bounds hvalue hden n
  have hunit := Nat.mul_pos hden (powerOfTen_pos
    (n + 1 - decimalOrder (roundingInterval p).value (roundingInterval p).den)).2
  have hfirst := Nat.pow_pos (n := n) (show 0 < 10 by decide)
  have hlast : 10 ^ (n + 1) ≤ 10 ^ 17 :=
    Nat.pow_le_pow_right (by decide) (List.mem_range.mp hn)
  have hfloor := (Nat.le_div_iff_mul_le hunit).mpr hlower
  have hceil := (Nat.div_lt_iff_lt_mul hunit).mpr hupper'
  have hnear : Near p.significand p.exponent d.value := by
    obtain ⟨digits, exponent⟩ := d
    cases hexponent
    exact hholds.near hp
  obtain ⟨hstripped, hle, hpos⟩ := d.stripped_spec
  rw [hshortest, hstripped]
  refine ⟨hpos ?_, hle.trans ?_, hnear⟩ <;> omega

end Found

/-! ## Rounding -/

section Rounding

variable {m : ℕ} {e : ℤ} {q : ℚ}

/-- **Near a number**, everything rounds to it. -/
theorem Near.rounded_eq (hm : 0 < m) (hdigits : Digits m e) (h : Near m e q) :
    rounded q = m * 2 ^ e := by
  have hpow := two_zpow_pos e
  have hupper : (m : ℚ) + 1 ≤ 2 ^ 53 := by exact_mod_cast hdigits.upper
  have hone : (1 : ℚ) ≤ m := by exact_mod_cast hm
  have hreach : reachBelow m e ≤ 1 / 2 := by
    unfold reachBelow
    split_ifs <;> norm_num
  have hlower' : ((m : ℤ) - 1 / 2 : ℚ) * 2 ^ e ≤ q := by
    refine le_trans (mul_le_mul_of_nonneg_right ?_ hpow.le) h.lower
    push_cast
    linarith
  have hq : 0 < q := by
    refine lt_of_lt_of_le (mul_pos ?_ hpow) h.lower
    linarith
  have hless : q < 2 ^ 53 * 2 ^ e := by
    refine lt_of_le_of_lt h.upper (mul_lt_mul_of_pos_right ?_ hpow)
    linarith
  have hodd : (m : ℤ) % 2 = 1 → ((m : ℤ) - 1 / 2 : ℚ) * 2 ^ e < q ∧ q < ((m : ℤ) + 1 / 2) * 2 ^ e := by
    intro hm2
    obtain ⟨hl, hu⟩ := h.odd (by omega)
    refine ⟨lt_of_le_of_lt (mul_le_mul_of_nonneg_right ?_ hpow.le) hl, by exact_mod_cast hu⟩
    push_cast
    linarith
  by_cases hfull : 2 ^ 52 * 2 ^ e ≤ q ∨ e = -1074
  · have hrounded := rounded_eq_of_lastDigit (n := m) (lastDigit_eq hq hdigits.least hfull hless)
      hlower' (by exact_mod_cast h.upper) hodd
    exact_mod_cast hrounded
  · -- just below a power of two the digits are one place finer
    obtain ⟨hbelow, hleast⟩ := not_or.mp hfull
    have hbelow := not_le.mp hbelow
    have hpower : m = 2 ^ 52 := by
      refine le_antisymm (Nat.le_of_not_lt fun hlarge => ?_) (hdigits.full.resolve_right hleast)
      have hlarge' : (2 : ℚ) ^ 52 + 1 ≤ m := by exact_mod_cast hlarge
      have hle : (2 : ℚ) ^ 52 * 2 ^ e ≤ ((m : ℤ) - 1 / 2 : ℚ) * 2 ^ e := by
        refine mul_le_mul_of_nonneg_right ?_ hpow.le
        push_cast
        linarith
      exact (hle.trans hlower').not_gt hbelow
    have hquarter : reachBelow m e = 1 / 4 := if_pos ⟨hpower, hleast⟩
    have hhalved : (2 : ℚ) ^ e = 2 * 2 ^ (e - 1) := by
      rw [zpow_sub_one₀ two_ne_zero]
      ring
    have hpow' := two_zpow_pos (e - 1)
    have hlower'' := h.lower
    rw [hquarter, hpower, hhalved] at hlower''
    rw [hhalved] at hbelow
    push_cast at hlower''
    have hrounded := rounded_eq_of_lastDigit (q := q) (e := e - 1) (n := 2 ^ 53)
      (lastDigit_eq hq (by have := hdigits.least; omega) (.inl (by linarith)) (by linarith))
      (by push_cast; linarith) (by push_cast; linarith) (fun hodd => absurd hodd (by decide))
    rw [hrounded, hpower, hhalved]
    push_cast
    ring

end Rounding

end CurveFit.Text
