import Mathlib
import CurveFit.Proofs.Binary64.Order
import CurveFit.Proofs.Binary64.Rounding

/-!
# The values of the binary64 numbers

A number that is not a NaN stands for a rational number, an infinity for `2 ^ 1024`, the power of two
after the largest finite number.  Numbers compare as their values do (`lt_iff_value`,
`le_iff_value`).  Packing keeps the value of whatever fits the format, and clamps the others
(`unpack_pack`, `valueOf_settled`).
-/

namespace CurveFit.Binary64

open Float.Model Float.Model.UnpackedFloat

/-! ## Values -/

/-- A number with a sign. -/
def signed : Sign → ℚ → ℚ
  | .negative, q => -q
  | .positive, q => q

theorem signed_zero (s : Sign) : signed s 0 = 0 := by
  cases s with
  | negative => exact neg_zero
  | positive => rfl

/-- The power of two after the largest finite number. -/
def limit : ℚ := 2 ^ (1024 : ℤ)

theorem limit_pos : 0 < limit := two_zpow_pos _

/-- What an unpacked number stands for. -/
def valueOf : UnpackedFloat → ℚ
  | .infinity s => signed s limit
  | .notANumber => 0
  | .zero _ => 0
  | .finite s m e _ => signed s (m * 2 ^ e)

/-- A mantissa of 53 digits, or a shorter one with the least exponent. -/
structure Digits (m : ℕ) (e : ℤ) : Prop where
  upper : m < 2 ^ 53
  least : -1074 ≤ e
  full : 2 ^ 52 ≤ m ∨ e = -1074

/-- An unpacked number that has the digits of the format, but may be too large for it. -/
def Canonical : UnpackedFloat → Prop
  | .finite _ m e _ => Digits m e
  | _ => True

/-- An unpacked number of the format. -/
def Stored : UnpackedFloat → Prop
  | .finite _ m e _ => Digits m e ∧ e ≤ 971
  | _ => True

theorem Stored.canonical {u : UnpackedFloat} (hu : Stored u) : Canonical u := by
  cases u with
  | finite s m e hm => exact hu.1
  | _ => trivial

/-- What has the digits of the format is not rounded. -/
theorem rounded_valueOf {u : UnpackedFloat} (hu : Canonical u) : rounded (valueOf u) = valueOf u := by
  have hsigned : ∀ (s : Sign) (m : ℕ) (e : ℤ), m < 2 ^ 53 → -1074 ≤ e →
      rounded (signed s (m * 2 ^ e)) = signed s (m * 2 ^ e) := by
    intro s m e hm he
    have hdigits := rounded_of_digits (n := m) (by rw [Nat.abs_cast]; exact_mod_cast hm) he
    cases s with
    | negative => exact (rounded_neg _).trans (congrArg Neg.neg hdigits)
    | positive => exact hdigits
  cases u with
  | notANumber => exact rounded_zero
  | zero s => exact rounded_zero
  | infinity s =>
    have hlimit := hsigned s 1 1024 (by norm_num) (by norm_num)
    rwa [Nat.cast_one, one_mul] at hlimit
  | finite s m e hm => exact hsigned s m e hu.upper hu.least

/-! ## Unpacking and packing -/

theorem toNat_implicit (m : BitVec 52) : (1#1 ++ m).toNat = 2 ^ 52 + m.toNat := by
  rw [BitVec.toNat_append, ← Nat.shiftLeft_add_eq_or_of_lt m.isLt]
  rfl

theorem stored_unpack (b : BitVec Format.binary64.numBits) :
    Stored (UnpackedFloat.unpack Format.binary64 b) := by
  unfold UnpackedFloat.unpack
  extract_lets mantissa exponentBits exponent signBit sign
  have hmantissa : mantissa.toNat < 2 ^ 52 := mantissa.isLt
  have hexponent : exponentBits.toNat < 2 ^ 11 := exponentBits.isLt
  have hvalue : exponent = exponentBits.toNat - (1023 + 52) := rfl
  split_ifs with hall hzero hnone hnone'
  · trivial
  · trivial
  · trivial
  · -- without the implicit bit
    have h0 : exponentBits.toNat = 0 := by rw [hnone]; rfl
    exact ⟨⟨by omega, by omega, .inr (by omega)⟩, by omega⟩
  · have h0 : exponentBits.toNat ≠ 0 := fun h => hnone (BitVec.eq_of_toNat_eq h)
    have h1 : exponentBits.toNat ≠ 2047 := fun h => hall (BitVec.eq_of_toNat_eq h)
    have hm : (1#1 ++ mantissa).toNat = 2 ^ 52 + mantissa.toNat := toNat_implicit mantissa
    exact ⟨⟨by omega, by omega, .inl (by omega)⟩, by omega⟩

/-- What packing makes of a number: one that is too large becomes infinite. -/
def settled : UnpackedFloat → UnpackedFloat
  | .finite s m e h => if e ≤ 971 then .finite s m e h else .infinity s
  | u => u

theorem unpack_packedInfinity (s : Sign) :
    UnpackedFloat.unpack Format.binary64 (packedInfinity Format.binary64 s) = .infinity s := by
  simp [UnpackedFloat.unpack, packedInfinity]

section Pack

variable {s : Sign} {m : ℕ}

theorem unpack_normal {biased : ℕ} (hlower : 2 ^ 52 ≤ m) (hupper : m < 2 ^ 53) (hb : 1 ≤ biased)
    (hb' : biased < 2047) :
    UnpackedFloat.unpack Format.binary64 (packComponents Format.binary64 s (BitVec.ofNat _ biased)
      (BitVec.ofNat _ m)) = .finite s m (biased - 1075) (by omega) := by
  have hmantissa : (1#1 ++ BitVec.ofNat 52 m).toNat = m := by
    rw [toNat_implicit, BitVec.toNat_ofNat]
    omega
  have hexponent : (BitVec.ofNat 11 biased).toNat = biased := Nat.mod_eq_of_lt (by omega)
  have hall : BitVec.ofNat 11 biased ≠ -1#11 := fun h => by
    have hnat : biased = 2047 := hexponent.symm.trans (congrArg BitVec.toNat h)
    omega
  have hnone : BitVec.ofNat 11 biased ≠ 0#11 := fun h => by
    have hnat : biased = 0 := hexponent.symm.trans (congrArg BitVec.toNat h)
    omega
  unfold UnpackedFloat.unpack
  simp only [unpackMantissa_packComponents, unpackExponent_packComponents,
    unpackSign_packComponents, Sign.ofBitVec_toBitVec]
  rw [if_neg hall, if_neg hnone]
  congr 1
  rw [hexponent]
  rfl

theorem unpack_subnormal (hm : 0 < m) (hupper : m < 2 ^ 52) :
    UnpackedFloat.unpack Format.binary64 (packComponents Format.binary64 s 0#_ (BitVec.ofNat _ m)) =
      .finite s m (-1074) hm := by
  have hmantissa : (BitVec.ofNat 52 m).toNat = m := Nat.mod_eq_of_lt hupper
  have hnone : BitVec.ofNat 52 m ≠ 0#52 := fun h =>
    hm.ne' (hmantissa.symm.trans (congrArg BitVec.toNat h))
  unfold UnpackedFloat.unpack
  simp only [unpackMantissa_packComponents, unpackExponent_packComponents,
    unpackSign_packComponents, Sign.ofBitVec_toBitVec]
  rw [if_neg (by decide), if_pos trivial, dif_neg hnone]
  congr 1

end Pack

/-- **Packing** loses nothing of what fits the format. -/
theorem unpack_pack {u : UnpackedFloat} (hu : Canonical u) :
    UnpackedFloat.unpack Format.binary64 (UnpackedFloat.pack Format.binary64 u) = settled u := by
  cases u with
  | notANumber => exact unpack_packedNaN
  | infinity s => exact unpack_packedInfinity s
  | zero s => exact unpack_packedZero
  | finite s m e hm =>
    obtain ⟨hupper, hleast, hfull⟩ := hu
    let biased := (e + (1023 : ℕ) + (52 : ℕ)).toNat
    have hbiased : (biased : ℤ) = e + 1075 := by omega
    show UnpackedFloat.unpack _ (if 2 ^ 11 ≤ biased + 1 then packedInfinity _ s
      else if m.log2 + 1 = 53 then packComponents _ s (BitVec.ofNat _ biased) (BitVec.ofNat _ m)
      else packComponents _ s 0#_ (BitVec.ofNat _ m)) =
      if e ≤ 971 then UnpackedFloat.finite s m e hm else .infinity s
    by_cases hlarge : e ≤ 971
    · rw [if_pos hlarge, if_neg (by omega)]
      by_cases hnormal : 2 ^ 52 ≤ m
      · have hlog : m.log2 = 52 := (Nat.log2_eq_iff hm.ne').mpr ⟨hnormal, hupper⟩
        rw [if_pos (by omega), unpack_normal hnormal hupper (by omega) (by omega)]
        congr 1
        omega
      · have hlog : m.log2 < 52 := (Nat.log2_lt hm.ne').mpr (Nat.lt_of_not_le hnormal)
        rw [if_neg (by omega), unpack_subnormal hm (Nat.lt_of_not_le hnormal)]
        congr 1
        exact (hfull.resolve_left hnormal).symm
    · rw [if_neg hlarge, if_pos (by omega)]
      exact unpack_packedInfinity s

/-! ## Values in order -/

section Digits

variable {m m₁ m₂ : ℕ} {e e₁ e₂ : ℤ}

theorem Digits.lt_of_place (h₁ : Digits m₁ e₁) (h₂ : Digits m₂ e₂)
    (h : e₁ < e₂ ∨ e₁ = e₂ ∧ m₁ < m₂) : (m₁ : ℚ) * 2 ^ e₁ < m₂ * 2 ^ e₂ := by
  rcases h with h | ⟨rfl, h⟩
  · -- the second number has all digits
    have hfull : 2 ^ 52 ≤ m₂ := h₂.full.resolve_right (by have := h₁.least; omega)
    calc (m₁ : ℚ) * 2 ^ e₁ < 2 ^ 53 * 2 ^ e₁ :=
          mul_lt_mul_of_pos_right (by exact_mod_cast h₁.upper) (two_zpow_pos _)
      _ = 2 ^ 52 * 2 ^ (e₁ + 1) := by rw [zpow_add₀ two_ne_zero]; ring
      _ ≤ 2 ^ 52 * 2 ^ e₂ :=
          mul_le_mul_of_nonneg_left (zpow_le_zpow_right₀ one_le_two (by omega)) (by positivity)
      _ ≤ m₂ * 2 ^ e₂ :=
          mul_le_mul_of_nonneg_right (by exact_mod_cast hfull) (two_zpow_pos _).le
  · exact mul_lt_mul_of_pos_right (Nat.cast_lt.mpr h) (two_zpow_pos _)

theorem Digits.lt_limit (h : Digits m e) (he : e ≤ 971) : (m : ℚ) * 2 ^ e < limit := by
  calc (m : ℚ) * 2 ^ e < 2 ^ 53 * 2 ^ e :=
        mul_lt_mul_of_pos_right (by exact_mod_cast h.upper) (two_zpow_pos _)
    _ ≤ 2 ^ 53 * 2 ^ (971 : ℤ) :=
        mul_le_mul_of_nonneg_left (zpow_le_zpow_right₀ one_le_two he) (by positivity)
    _ = limit := by
        rw [← zpow_natCast, ← zpow_add₀ two_ne_zero]
        rfl

theorem Digits.limit_le (h : Digits m e) (he : 971 < e) : limit ≤ m * 2 ^ e := by
  have hfull : 2 ^ 52 ≤ m := h.full.resolve_right (by omega)
  calc limit = 2 ^ 52 * 2 ^ (972 : ℤ) := by
        rw [← zpow_natCast, ← zpow_add₀ two_ne_zero]
        rfl
    _ ≤ 2 ^ 52 * 2 ^ e :=
        mul_le_mul_of_nonneg_left (zpow_le_zpow_right₀ one_le_two (by omega)) (by positivity)
    _ ≤ m * 2 ^ e :=
        mul_le_mul_of_nonneg_right (by exact_mod_cast hfull) (two_zpow_pos _).le

end Digits

section Order

variable {u v : UnpackedFloat}

/-- Finite numbers lie between zero and the limit. -/
theorem Stored.size (hu : Stored u) :
    match u with
    | .finite _ m e _ => 0 < (m : ℚ) * 2 ^ e ∧ (m : ℚ) * 2 ^ e < limit
    | _ => True := by
  cases u with
  | finite s m e hm => exact ⟨mul_pos (Nat.cast_pos.mpr hm) (two_zpow_pos _), hu.1.lt_limit hu.2⟩
  | _ => trivial

theorem valueOf_lt (hu : Stored u) (hv : Stored v) (hu' : u.isNaN = false) (hv' : v.isNaN = false)
    (h : placeOf u < placeOf v) : valueOf u < valueOf v := by
  have hlimit := limit_pos
  have hsize₁ := hu.size
  have hsize₂ := hv.size
  rcases u with (_ | _) | _ | (_ | _) | ⟨_ | _, m₁, e₁, hm₁⟩ <;>
    rcases v with (_ | _) | _ | (_ | _) | ⟨_ | _, m₂, e₂, hm₂⟩ <;>
    simp [placeOf, Prod.Lex.toLex_lt_toLex, UnpackedFloat.isNaN] at h hu' hv' <;>
    simp only [valueOf, signed] at hsize₁ hsize₂ ⊢ <;> try linarith
  case finite.negative.finite.negative => exact neg_lt_neg (hv.1.lt_of_place hu.1 (by omega))
  case finite.positive.finite.positive => exact hu.1.lt_of_place hv.1 h

theorem valueOf_eq (h : placeOf u = placeOf v) : valueOf u = valueOf v := by
  rcases u with (_ | _) | _ | (_ | _) | ⟨_ | _, m₁, e₁, hm₁⟩ <;>
    rcases v with (_ | _) | _ | (_ | _) | ⟨_ | _, m₂, e₂, hm₂⟩ <;>
    simp [placeOf] at h <;> simp [valueOf, h]

theorem valueOf_lt_iff (hu : Stored u) (hv : Stored v) (hu' : u.isNaN = false)
    (hv' : v.isNaN = false) : valueOf u < valueOf v ↔ placeOf u < placeOf v := by
  refine ⟨fun h => ?_, valueOf_lt hu hv hu' hv'⟩
  rcases lt_trichotomy (placeOf u) (placeOf v) with hlt | heq | hgt
  · exact hlt
  · exact absurd (valueOf_eq heq) h.ne
  · exact absurd (valueOf_lt hv hu hv' hu' hgt) h.asymm

/-- What is positive is infinite or has a mantissa. -/
theorem positive_of_valueOf_pos (h : 0 < valueOf u) :
    u = .infinity .positive ∨ ∃ m e hm, u = .finite .positive m e hm := by
  cases u with
  | notANumber => exact absurd rfl h.ne
  | zero s => exact absurd rfl h.ne
  | infinity s =>
    cases s with
    | positive => exact .inl rfl
    | negative => exact absurd h (neg_nonpos.mpr limit_pos.le).not_gt
  | finite s m e hm =>
    cases s with
    | positive => exact .inr ⟨m, e, hm, rfl⟩
    | negative =>
      have hsize : 0 ≤ (m : ℚ) * 2 ^ e := mul_nonneg (Nat.cast_nonneg m) (two_zpow_pos e).le
      exact absurd h (neg_nonpos.mpr hsize).not_gt

theorem isFinite_iff_valueOf (hu : Stored u) :
    u.isFinite ↔ u.isNaN = false ∧ |valueOf u| < limit := by
  have hlimit := limit_pos
  have hsize := hu.size
  rcases u with (_ | _) | _ | (_ | _) | ⟨_ | _, m, e, hm⟩ <;>
    simp only [valueOf, signed] at hsize ⊢ <;>
    simp [UnpackedFloat.isFinite, UnpackedFloat.isNaN, abs_of_pos, hlimit, hsize]

end Order

/-- What a number stands for. -/
def value (x : Float) : ℚ := valueOf x.toModel.unpack

section Float

variable {a b : Float}

/-- Numbers compare as their values do. -/
theorem lt_iff_value : a < b ↔ a.isNaN = false ∧ b.isNaN = false ∧ value a < value b := by
  rw [lt_iff]
  refine and_congr_right fun ha => and_congr_right fun hb => ?_
  exact (valueOf_lt_iff (stored_unpack _) (stored_unpack _) ha hb).symm

theorem le_iff_value : a ≤ b ↔ a.isNaN = false ∧ b.isNaN = false ∧ value a ≤ value b := by
  rw [le_iff]
  refine and_congr_right fun ha => and_congr_right fun hb => ?_
  rw [← not_lt, ← not_lt]
  exact not_congr (valueOf_lt_iff (stored_unpack _) (stored_unpack _) hb ha).symm

theorem value_mono (h : a ≤ b) : value a ≤ value b :=
  (le_iff_value.mp h).2.2

theorem isFinite_iff : a.isFinite ↔ a.isNaN = false ∧ |value a| < limit :=
  isFinite_iff_valueOf (stored_unpack _)

end Float

/-! ## Values of packed numbers -/

/-- The value that is left of one after packing. -/
def clamped (q : ℚ) : ℚ := max (-limit) (min q limit)

theorem clamped_mono : Monotone clamped := fun _ _ h => max_le_max le_rfl (min_le_min h le_rfl)

theorem clamped_of_nonneg {q : ℚ} (h : 0 ≤ q) : clamped q = min q limit :=
  max_eq_right ((neg_nonpos.mpr limit_pos.le).trans (le_min h limit_pos.le))

theorem clamped_of_lt {q : ℚ} (h : |q| < limit) : clamped q = q := by
  obtain ⟨hlower, hupper⟩ := abs_lt.mp h
  unfold clamped
  rw [min_eq_left hupper.le, max_eq_right hlower.le]

theorem clamped_signed (s : Sign) (q : ℚ) : clamped (signed s q) = signed s (clamped q) := by
  cases s with
  | positive => rfl
  | negative =>
    have hlimit := limit_pos
    show max (-limit) (min (-q) limit) = -max (-limit) (min q limit)
    rw [← min_neg_neg, neg_neg, ← max_neg_neg, max_min_distrib_left,
      max_eq_right (neg_le_self hlimit.le), min_comm, max_comm]

theorem valueOf_settled {u : UnpackedFloat} (hu : Canonical u) :
    valueOf (settled u) = clamped (valueOf u) := by
  have hlimit := limit_pos
  have hzero : 0 = clamped 0 := by rw [clamped_of_nonneg le_rfl, min_eq_left hlimit.le]
  cases u with
  | notANumber => exact hzero
  | zero s => exact hzero
  | infinity s =>
    show signed s limit = clamped (signed s limit)
    rw [clamped_signed, clamped_of_nonneg hlimit.le, min_self]
  | finite s m e hm =>
    have hpos : 0 < (m : ℚ) * 2 ^ e := mul_pos (Nat.cast_pos.mpr hm) (two_zpow_pos _)
    show valueOf (if e ≤ 971 then .finite s m e hm else .infinity s) = clamped (signed s (m * 2 ^ e))
    rw [clamped_signed, clamped_of_nonneg hpos.le]
    by_cases hlarge : e ≤ 971
    · rw [if_pos hlarge, min_eq_left (hu.lt_limit hlarge).le]
      rfl
    · rw [if_neg hlarge, min_eq_right (hu.limit_le (not_le.mp hlarge))]
      rfl

theorem Stored.settled_eq {u : UnpackedFloat} (hu : Stored u) : settled u = u := by
  cases u with
  | finite s m e hm => exact if_pos hu.2
  | _ => rfl

theorem isNaN_settled (u : UnpackedFloat) : (settled u).isNaN = u.isNaN := by
  cases u with
  | finite s m e hm =>
    show (if e ≤ 971 then UnpackedFloat.finite s m e hm else .infinity s).isNaN = false
    split_ifs <;> rfl
  | _ => rfl

/-! ## Below the limit -/

theorem lt_limit : (2 ^ 53 - 1) * 2 ^ (971 : ℤ) < limit := by
  have hlimit : limit = 2 ^ 53 * 2 ^ (971 : ℤ) := by
    rw [← zpow_natCast, ← zpow_add₀ two_ne_zero]
    rfl
  rw [hlimit]
  exact mul_lt_mul_of_pos_right (by norm_num) (two_zpow_pos _)

/-- What is at most the largest finite number rounds to such a number. -/
theorem abs_rounded_lt_limit {q : ℚ} (hq : 0 ≤ q) (hle : q ≤ (2 ^ 53 - 1) * 2 ^ (971 : ℤ)) :
    |rounded q| < limit := by
  rw [abs_of_nonneg (rounded_nonneg hq)]
  rcases hq.eq_or_lt with rfl | hpos
  · rw [rounded_zero]
    exact limit_pos
  · have hlog : Int.log 2 q < 1024 :=
      (Int.lt_zpow_iff_log_lt one_lt_two hpos).mp (hle.trans_lt lt_limit)
    have hdigit : lastDigit q ≤ 971 := by
      unfold lastDigit
      rw [abs_of_pos hpos]
      omega
    have hmantissa : (((2 ^ 53 - 1 : ℤ)) : ℚ) = 2 ^ 53 - 1 := by norm_num
    have hrounded := rounded_le (n := 2 ^ 53 - 1) hdigit (by rwa [hmantissa])
    rw [hmantissa] at hrounded
    exact hrounded.trans_lt lt_limit

end CurveFit.Binary64
