import CurveFit.Proofs.Binary64.Division
import CurveFit.Proofs.Binary64.Whole
import CurveFit.Proofs.Binary64.Special
import CurveFit.Proofs.Json.Written
import CurveFit.Proofs.Text.Shortest

/-!
# Real numbers in JSON

A finite number is written with its shortest digits, and what is not finite as null.  The text is a
numeral whose digits and power of ten are `written`, and reading it scales the one by the other:
`reread?` says what comes back.
-/

namespace CurveFit.Json

open Text Binary64 Float.Model

variable {x : Float}

/-! ## Writing -/

/-- A finite number as a numeral. -/
def realNumeral (x : Float) : Numeral :=
  if x == 0.0 then ⟨isNegative x, ['0'], some ['0'], none⟩
  else decimalNumeral (isNegative x) (shortestOf (parts x) .toEven)

/-- The significand and the power of ten that the text of a finite number shows. -/
def written (x : Float) : ℕ × ℤ :=
  if x == 0.0 then (0, -1) else shown (shortestOf (parts x) .toEven)

theorem signText_toList (x : Float) : (signText x).toList = signChars (isNegative x) := by
  unfold signText signChars
  split_ifs <;> rfl

/-- A number is finite, infinite or none. -/
theorem isFinite_iff_special : x.isFinite ↔ x.isNaN = false ∧ x.isInf = false := by
  show x.toModel.unpack.isFinite ↔ x.toModel.unpack.isNaN = false ∧ x.toModel.unpack.isInf = false
  cases x.toModel.unpack <;>
    simp [UnpackedFloat.isFinite, UnpackedFloat.isNaN, UnpackedFloat.isInf]

/-- The text of a finite number is a numeral. -/
theorem render_toList (hx : x.isFinite) :
    (NumberStyle.json.render x).toList = (realNumeral x).text := by
  obtain ⟨hnan, hinf⟩ := isFinite_iff_special.mp hx
  unfold NumberStyle.render realNumeral
  rw [hnan, hinf]
  simp only [Bool.false_eq_true, if_false]
  split_ifs with hzero
  · rw [String.toList_append, String.toList_append, signText_toList, List.append_assoc]
    rfl
  · rw [String.toList_append, signText_toList]
    exact decimalNumeral_text _ _

/-- What is not finite is written as null. -/
theorem render_of_not_isFinite (hx : ¬ x.isFinite) : NumberStyle.json.render x = "null" := by
  unfold NumberStyle.render
  by_cases hnan : x.isNaN = true
  · exact if_pos hnan
  · have hinf : x.isInf = true := by
      by_contra hinf
      exact hx (isFinite_iff_special.mpr ⟨Bool.eq_false_iff.mpr hnan, Bool.eq_false_iff.mpr hinf⟩)
    rw [if_neg hnan, if_pos hinf]
    rfl

/-- The parts of a finite number other than zero. -/
theorem parts_spec (hx : x.isFinite) (hzero : ¬ x == 0.0) :
    0 < (parts x).significand ∧ Digits (parts x).significand (parts x).exponent ∧
      (parts x).exponent ≤ 971 := by
  rcases finite_cases hx with hx0 | ⟨s, m, e, hm, hu⟩
  · exact absurd (beq_zero_iff.mpr hx0) hzero
  · have hstored : Stored x.toModel.unpack := stored_unpack _
    rw [hu] at hstored
    rw [parts_eq hx, hu]
    exact ⟨hm, hstored.1, hstored.2⟩

/-! ## What is shown -/

theorem shown_value (d : Decimal) : ((shown d).1 : ℚ) * 10 ^ (shown d).2 = d.value := by
  unfold shown Decimal.value
  split_ifs with hwhole
  · rw [Nat.cast_mul, Nat.cast_pow, ← zpow_natCast, Int.toNat_of_nonneg (by omega), mul_assoc,
      Nat.cast_ofNat, ← zpow_add₀ (by norm_num), add_neg_cancel_right]
  · rfl

/-- What is shown has at most seventeen digits, and is a one with zeros otherwise. -/
theorem shown_le {d : Decimal} (hd : d.digits ≤ 10 ^ 17) : (shown d).1 ≤ 10 ^ 17 := by
  unfold shown
  split_ifs with hwhole
  · obtain ⟨hnonneg, hpositional⟩ := hwhole
    have hplace : place d - 1 < 16 := by
      have hbounds : decide (-5 ≤ place d - 1) && decide (place d - 1 < 16) := hpositional
      exact of_decide_eq_true (Bool.and_elim_right hbounds)
    have hlt : d.digits < 10 ^ (Nat.toDigits 10 d.digits).length := lt_pow_digitCount _
    unfold place at hplace
    calc d.digits * 10 ^ (d.exponent + 1).toNat
        ≤ 10 ^ (Nat.toDigits 10 d.digits).length * 10 ^ (d.exponent + 1).toNat :=
          Nat.mul_le_mul_right _ hlt.le
      _ = 10 ^ ((Nat.toDigits 10 d.digits).length + (d.exponent + 1).toNat) := (pow_add ..).symm
      _ ≤ 10 ^ 17 := Nat.pow_le_pow_right (by decide) (by omega)
  · exact hd

theorem written_le (hx : x.isFinite) : (written x).1 ≤ 10 ^ 17 := by
  unfold written
  split_ifs with hzero
  · exact Nat.zero_le _
  · obtain ⟨hpos, hdigits, -⟩ := parts_spec hx hzero
    exact shown_le (shortestOf_spec hpos hdigits.upper _).2.1

/-- What is written of a number lies where everything rounds to it. -/
theorem near_written (hx : x.isFinite) (hzero : ¬ x == 0.0) :
    0 < (written x).1 ∧
      Near (parts x).significand (parts x).exponent ((written x).1 * 10 ^ (written x).2) := by
  obtain ⟨hpos, hstored, -⟩ := parts_spec hx hzero
  obtain ⟨hfirst, -, hnear⟩ := shortestOf_spec hpos hstored.upper .toEven
  have hshown : (shortestOf (parts x) .toEven).value = (written x).1 * 10 ^ (written x).2 := by
    unfold written
    rw [if_neg hzero]
    exact (shown_value _).symm
  have hvalue : 0 < (shortestOf (parts x) .toEven).value :=
    mul_pos (Nat.cast_pos.mpr hfirst) (ten_zpow_pos _)
  rw [hshown] at hvalue hnear
  exact ⟨Nat.cast_pos.mp (pos_of_mul_pos_left hvalue (ten_zpow_pos _).le), hnear⟩

theorem zeroNumeral_proper (negative : Bool) : (Numeral.mk negative ['0'] (some ['0']) none).Proper where
  whole := digitRun_toDigits 0
  leading := .inl rfl
  fraction := by
    rintro _ ⟨⟩
    exact digitRun_toDigits 0
  exponent := nofun

theorem realNumeral_proper (hx : x.isFinite) : (realNumeral x).Proper := by
  unfold realNumeral
  split_ifs with hzero
  · exact zeroNumeral_proper _
  · obtain ⟨hpos, hdigits, -⟩ := parts_spec hx hzero
    exact decimalNumeral_proper _ (shortestOf_spec hpos hdigits.upper _).1

theorem realNumeral_shows (x : Float) : (realNumeral x).Shows (written x).1 (written x).2 := by
  unfold realNumeral written
  split_ifs
  · exact ⟨rfl, rfl⟩
  · exact decimalNumeral_shows _ _

theorem realNumeral_negative (x : Float) : (realNumeral x).negative = isNegative x := by
  unfold realNumeral decimalNumeral positionalNumeral
  split_ifs <;> rfl

/-- What the reader makes of the text of a finite number. -/
def reread? (x : Float) : Option Float :=
  (scale? (Float.ofNat (written x).1) (written x).2).map fun y => if isNegative x then -y else y

/-- **The text of a number** is read by one scaling of its digits. -/
theorem toReal?_realNumeral (hx : x.isFinite) : (realNumeral x).toReal? = reread? x := by
  rw [(realNumeral_shows x).toReal? ((written_le hx).trans (by decide)), realNumeral_negative]
  rfl

end CurveFit.Json
