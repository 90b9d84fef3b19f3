import CurveFit.Proofs.Binary64.Whole

/-!
# Words of the binary64 numbers

The word of a positive number with all digits is its biased exponent followed by its fraction, in both
directions (`value_ofBits`, `toNat_toBits`); the fraction of a number between one and two is what it
exceeds one by (`fractionField_of_value`).  There is one NaN (`eq_of_isNaN`), and sums, differences,
products and quotients with it are that NaN.
-/

namespace CurveFit.Binary64

open Float.Model Float.Model.UnpackedFloat

/-! ## Words and numbers -/

section Words

variable {w : UInt64} {e f : ℕ}

theorem unpack_word (hw : w.toNat = e * 2 ^ 52 + f) (he : 1 ≤ e) (he' : e < 2047) (hf : f < 2 ^ 52) :
    UnpackedFloat.unpack Format.binary64 w.toBitVec =
      .finite .positive (2 ^ 52 + f) (e - 1075) (by omega) := by
  have hpacked : w.toBitVec = packComponents Format.binary64 .positive (BitVec.ofNat _ e)
      (BitVec.ofNat _ (2 ^ 52 + f)) := by
    have hexponent : (BitVec.ofNat 11 e).toNat = e := Nat.mod_eq_of_lt (by omega)
    have hfraction : (BitVec.ofNat 52 (2 ^ 52 + f)).toNat = f := by
      rw [BitVec.toNat_ofNat]
      omega
    apply BitVec.eq_of_toNat_eq
    show w.toNat = (0#1 ++ BitVec.ofNat 11 e ++ BitVec.ofNat 52 (2 ^ 52 + f)).toNat
    rw [BitVec.toNat_append, BitVec.toNat_append, hexponent, hfraction,
      ← Nat.shiftLeft_add_eq_or_of_lt hf, hw, Nat.shiftLeft_eq]
    simp
  rw [hpacked]
  exact unpack_normal (by omega) (by omega) he he'

/-- A word with the exponent of a normal number stands for a positive number. -/
theorem value_ofBits (hw : w.toNat = e * 2 ^ 52 + f) (he : 1 ≤ e) (he' : e < 2047) (hf : f < 2 ^ 52) :
    (Float.ofBits w).isFinite ∧ value (Float.ofBits w) = 2 ^ (e - 1023 : ℤ) * (1 + f / 2 ^ 52) := by
  have hunpack : (Float.ofBits w).toModel.unpack =
      .finite .positive (2 ^ 52 + f) (e - 1075) (by omega) := by
    have hstored : Stored (UnpackedFloat.unpack Format.binary64 w.toBitVec) := stored_unpack _
    show UnpackedFloat.unpack _ (UnpackedFloat.pack _ _) = _
    rw [unpack_pack hstored.canonical, hstored.settled_eq, unpack_word hw he he' hf]
  constructor
  · show (Float.ofBits w).toModel.unpack.isFinite
    rw [hunpack]
    rfl
  · unfold value
    rw [hunpack]
    show ((2 ^ 52 + f : ℕ) : ℚ) * 2 ^ (e - 1075 : ℤ) = _
    have hsplit : (e - 1023 : ℤ) = e - 1075 + 52 := by ring
    rw [hsplit, zpow_add₀ two_ne_zero]
    push_cast
    norm_num
    ring

/-- The word of a positive number with all digits. -/
theorem toNat_toBits {x : Float} {m : ℕ} {e : ℤ} (hm : 2 ^ 52 ≤ m) (h : parts x = ⟨false, m, e⟩) :
    (x.toBits.toNat : ℤ) = (e + 1075) * 2 ^ 52 + (m - 2 ^ 52) := by
  have hfraction := fractionField_lt x
  have hword := x.toBits.toNat_lt
  unfold parts at h
  split_ifs at h with hzero <;> obtain ⟨hsign, hmantissa, hexponent⟩ := Parts.mk.inj h
  · exact absurd hmantissa (by unfold hiddenBit at hfraction; omega)
  · unfold hiddenBit at hmantissa
    rw [exponentField_div] at hexponent
    rw [fractionField_mod] at hmantissa
    rw [isNegative_div, decide_eq_false_iff_not] at hsign
    omega

/-- All digits of a number between one and two stand after the first one. -/
theorem exponent_of_bounds {q : ℚ} {e : ℤ} (hq : 0 ≤ q) (hq' : q < 2 ^ 52)
    (hlower : 1 ≤ (2 ^ 52 + q) * 2 ^ e) (hupper : (2 ^ 52 + q) * 2 ^ e < 2) : e = -52 := by
  rcases lt_trichotomy e (-52) with hlt | heq | hgt
  · have hpow : (2 : ℚ) ^ e ≤ 2 ^ (-53 : ℤ) := zpow_le_zpow_right₀ one_le_two (by omega)
    have hbelow : (2 ^ 52 + q) * 2 ^ e ≤ (2 ^ 52 + q) * 2 ^ (-53 : ℤ) :=
      mul_le_mul_of_nonneg_left hpow (by linarith)
    norm_num at hbelow
    linarith
  · exact heq
  · have hpow : (2 : ℚ) ^ (-51 : ℤ) ≤ 2 ^ e := zpow_le_zpow_right₀ one_le_two (by omega)
    have habove : (2 ^ 52 + q) * 2 ^ (-51 : ℤ) ≤ (2 ^ 52 + q) * 2 ^ e :=
      mul_le_mul_of_nonneg_left hpow (by linarith)
    norm_num at habove
    linarith

/-- The fraction of a number between one and two. -/
theorem fractionField_of_value {z : Float} (hlower : 1 ≤ value z) (hupper : value z < 2) :
    (fractionField z : ℚ) / 2 ^ 52 = value z - 1 := by
  have hlimit : (2 : ℚ) < limit := by
    calc (2 : ℚ) = 2 ^ (1 : ℤ) := (zpow_one 2).symm
      _ < limit := zpow_lt_zpow_right₀ one_lt_two (by norm_num)
  have hfinite : z.isFinite := isFinite_iff.mpr
    ⟨isNaN_of_value_pos (by linarith), abs_lt.mpr ⟨by linarith, by linarith⟩⟩
  have hvalue := value_parts hfinite
  have hfraction : (fractionField z : ℚ) < 2 ^ 52 := by exact_mod_cast fractionField_lt z
  split_ifs at hvalue with hnegative
  · have hsize : (0 : ℚ) ≤ (parts z).significand * 2 ^ (parts z).exponent :=
      mul_nonneg (Nat.cast_nonneg _) (two_zpow_pos _).le
    linarith
  · unfold parts at hvalue
    split_ifs at hvalue with hzero
    · -- a number without the hidden bit is below one
      have hone : (2 : ℚ) ^ ((52 : ℕ) + -1074 : ℤ) < 2 ^ (0 : ℤ) :=
        zpow_lt_zpow_right₀ one_lt_two (by norm_num)
      have hsmall := mul_le_mul_of_nonneg_right hfraction.le (two_zpow_pos (-1074)).le
      rw [← zpow_natCast, ← zpow_add₀ two_ne_zero] at hsmall
      rw [zpow_zero] at hone
      linarith
    · have hcast : ((hiddenBit + fractionField z : ℕ) : ℚ) = 2 ^ 52 + fractionField z := by
        push_cast [hiddenBit]
        norm_num
      simp only [hcast] at hvalue
      rw [hvalue] at hlower hupper ⊢
      rw [exponent_of_bounds (Nat.cast_nonneg _) hfraction hlower hupper]
      norm_num
      ring

end Words

/-! ## The NaN -/

section NaN

variable {a b : Float}

/-- All bits of the NaN are fixed. -/
theorem bits_of_isNaN (ha : a.isNaN) : bits a = packedNaN Format.binary64 := by
  have hnan : (UnpackedFloat.unpack Format.binary64 (bits a)).isNaN := ha
  unfold UnpackedFloat.unpack at hnan
  extract_lets at hnan
  split_ifs at hnan with hall hzero hnone hnone'
  · cases hnan
  · exact a.toModel.valid.eq_packedNaN hall hzero
  · cases hnan
  · cases hnan
  · cases hnan

theorem eq_of_isNaN (ha : a.isNaN) (hb : b.isNaN) : a = b := by
  have hbits : bits a = bits b := (bits_of_isNaN ha).trans (bits_of_isNaN hb).symm
  obtain ⟨⟨⟨wa⟩, _⟩⟩ := a
  obtain ⟨⟨⟨wb⟩, _⟩⟩ := b
  cases (show wa = wb from hbits)
  rfl

theorem isNaN_pack {u : UnpackedFloat} (hu : u = .notANumber) :
    (⟨Float.Model.pack u⟩ : Float).isNaN := by
  subst hu
  have hunpack : UnpackedFloat.unpack Format.binary64 (packedNaN Format.binary64) = .notANumber :=
    unpack_packedNaN
  exact congrArg UnpackedFloat.isNaN hunpack

theorem unpack_of_isNaN (ha : a.isNaN) : a.toModel.unpack = .notANumber := by
  have ha' : a.toModel.unpack.isNaN := ha
  cases hu : a.toModel.unpack <;> rw [hu] at ha' <;> first | rfl | cases ha'

theorem isNaN_sub (ha : a.isNaN) : (a - b).isNaN := by
  apply isNaN_pack
  rw [unpack_of_isNaN ha]
  cases b.toModel.unpack <;> rfl

theorem isNaN_mul (ha : a.isNaN) : (a * b).isNaN := by
  apply isNaN_pack
  rw [unpack_of_isNaN ha]
  cases b.toModel.unpack <;> rfl

theorem isNaN_div (ha : a.isNaN) : (a / b).isNaN := by
  apply isNaN_pack
  rw [unpack_of_isNaN ha]
  cases b.toModel.unpack <;> rfl

theorem isNaN_add_right (hb : b.isNaN) : (a + b).isNaN := by
  apply isNaN_pack
  rw [unpack_of_isNaN hb]
  cases a.toModel.unpack <;> rfl

theorem isNaN_mul_right (hb : b.isNaN) : (a * b).isNaN := by
  apply isNaN_pack
  rw [unpack_of_isNaN hb]
  cases a.toModel.unpack <;> rfl

end NaN

end CurveFit.Binary64
