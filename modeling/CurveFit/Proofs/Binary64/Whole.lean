import CurveFit.Binary64.Integral
import CurveFit.Proofs.Binary64.Arithmetic

/-!
# Whole binary64 numbers

The parts of a finite number are those of the unpacked one (`parts_eq`).  Rounding to a whole number
leaves a number without a fraction alone, and makes a signed natural number of at most 53 digits of
any other (`roundWhole_cases`); both are whole and are not rounded again (`isWhole_roundWhole`,
`roundWhole_roundWhole`).
-/

namespace CurveFit.Binary64

open Float.Model Float.Model.UnpackedFloat

variable {x : Float}

/-! ## Parts -/

/-- The bits of a number, as they are unpacked. -/
def bits (x : Float) : BitVec Format.binary64.numBits := x.toBits.toBitVec

theorem exponentField_eq (x : Float) :
    exponentField x = (unpackExponent (bits x)).toNat := by
  unfold exponentField unpackExponent bits
  rw [UInt64.toNat_and, UInt64.toNat_shiftRight, BitVec.toNat_cast, BitVec.extractLsb_toNat]
  exact Nat.and_two_pow_sub_one_eq_mod _ 11

theorem fractionField_eq (x : Float) :
    fractionField x = (unpackMantissa (bits x)).toNat := by
  unfold fractionField unpackMantissa bits
  rw [UInt64.toNat_and, BitVec.toNat_cast, BitVec.extractLsb_toNat]
  exact Nat.and_two_pow_sub_one_eq_mod _ 52

/-- Whether a sign is the minus. -/
def isMinus : Sign → Bool
  | .negative => true
  | .positive => false

theorem isNegative_eq (x : Float) :
    isNegative x = isMinus (.ofBitVec (unpackSign (bits x))) := by
  have hsign : (unpackSign (bits x)).toNat =
      (x.toBits >>> 63).toNat := by
    have hlt : x.toBits.toNat < 2 ^ 64 := x.toBits.toNat_lt
    unfold unpackSign bits
    rw [UInt64.toNat_shiftRight, BitVec.toNat_cast, BitVec.extractLsb_toNat]
    apply Nat.mod_eq_of_lt
    show x.toBits.toNat >>> 63 < 2
    rw [Nat.shiftRight_eq_div_pow]
    omega
  unfold isNegative Sign.ofBitVec
  by_cases hzero : unpackSign (bits x) = 0#1
  · rw [if_pos hzero, beq_eq_false_iff_ne.mpr]
    · rfl
    · intro hone
      rw [hzero, hone] at hsign
      exact absurd hsign (by decide)
  · rw [if_neg hzero]
    have hone : x.toBits >>> 63 = 1 := by
      have hne : (unpackSign (bits x)).toNat ≠ 0 := fun h =>
        hzero (BitVec.eq_of_toNat_eq h)
      have hlt : (unpackSign (bits x)).toNat < 2 := BitVec.isLt _
      rw [← UInt64.toNat_inj, ← hsign]
      exact Nat.le_antisymm (Nat.le_of_lt_succ hlt) (Nat.pos_of_ne_zero hne)
    rw [hone]
    rfl

/-- The sign, mantissa and exponent of a finite number. -/
def partsOf : UnpackedFloat → Parts
  | .finite s m e _ => ⟨isMinus s, m, e⟩
  | .zero s => ⟨isMinus s, 0, -1074⟩
  | .infinity s => ⟨isMinus s, 0, 0⟩
  | .notANumber => ⟨false, 0, 0⟩

theorem unpackExponent_ne_of_isFinite (hx : x.isFinite) :
    unpackExponent (bits x) ≠ -1#11 := by
  intro hall
  have hfinite : (UnpackedFloat.unpack Format.binary64 (bits x)).isFinite := hx
  unfold UnpackedFloat.unpack at hfinite
  rw [if_pos hall] at hfinite
  split_ifs at hfinite <;> cases hfinite

theorem parts_eq (hx : x.isFinite) : parts x = partsOf x.toModel.unpack := by
  have hall := unpackExponent_ne_of_isFinite hx
  show parts x = partsOf (UnpackedFloat.unpack Format.binary64 (bits x))
  unfold parts
  rw [exponentField_eq, fractionField_eq, isNegative_eq]
  unfold UnpackedFloat.unpack
  extract_lets mantissa exponentBits exponent signBit sign
  rw [if_neg hall]
  have hexponent : exponent = exponentBits.toNat - (1023 + 52) := rfl
  by_cases hnone : exponentBits = 0#11
  · have h0 : exponentBits.toNat = 0 := by rw [hnone]; rfl
    rw [if_pos h0, if_pos hnone]
    by_cases hzero : mantissa = 0#52
    · rw [dif_pos hzero]
      show Parts.mk (isMinus sign) mantissa.toNat (-1074) = Parts.mk (isMinus sign) 0 (-1074)
      rw [hzero]
      rfl
    · rw [dif_neg hzero]
      show Parts.mk (isMinus sign) mantissa.toNat (-1074) =
        Parts.mk (isMinus sign) mantissa.toNat (exponent + 1)
      rw [hexponent, h0]
      rfl
  · have h0 : exponentBits.toNat ≠ 0 := fun h => hnone (BitVec.eq_of_toNat_eq h)
    have hm : (1#1 ++ mantissa).toNat = 2 ^ 52 + mantissa.toNat := toNat_implicit mantissa
    rw [if_neg h0, if_neg hnone]
    show Parts.mk (isMinus sign) (hiddenBit + mantissa.toNat) (exponentBits.toNat - 1075) =
      Parts.mk (isMinus sign) (1#1 ++ mantissa).toNat exponent
    rw [hm, hexponent]
    rfl

theorem exponentField_div (x : Float) : exponentField x = x.toBits.toNat / 2 ^ 52 % 2 ^ 11 := by
  unfold exponentField
  rw [UInt64.toNat_and, UInt64.toNat_shiftRight]
  exact (Nat.and_two_pow_sub_one_eq_mod _ 11).trans (by rw [Nat.shiftRight_eq_div_pow]; rfl)

theorem fractionField_mod (x : Float) : fractionField x = x.toBits.toNat % 2 ^ 52 := by
  unfold fractionField
  rw [UInt64.toNat_and]
  exact Nat.and_two_pow_sub_one_eq_mod _ 52

theorem isNegative_div (x : Float) : isNegative x = decide (x.toBits.toNat / 2 ^ 63 = 1) := by
  have hword : x.toBits >>> 63 = 1 ↔ x.toBits.toNat / 2 ^ 63 = 1 := by
    rw [← UInt64.toNat_inj, UInt64.toNat_shiftRight, Nat.shiftRight_eq_div_pow]
    rfl
  unfold isNegative
  rw [beq_eq_decide, decide_eq_decide.mpr hword]

/-- A number is made of its parts. -/
theorem eq_of_parts_eq {x y : Float} (h : parts x = parts y) : x = y := by
  have hfields : exponentField x = exponentField y ∧ fractionField x = fractionField y ∧
      isNegative x = isNegative y := by
    have hx := fractionField_lt x
    have hy := fractionField_lt y
    unfold parts at h
    split_ifs at h with h0 h0' <;> obtain ⟨hsign, hfraction, hexponent⟩ := Parts.mk.inj h
    · exact ⟨h0.trans h0'.symm, hfraction, hsign⟩
    · omega
    · omega
    · exact ⟨by omega, by omega, hsign⟩
  obtain ⟨hexponent, hfraction, hsign⟩ := hfields
  rw [exponentField_div, exponentField_div] at hexponent
  rw [fractionField_mod, fractionField_mod] at hfraction
  rw [isNegative_div, isNegative_div, decide_eq_decide] at hsign
  have hx := x.toBits.toNat_lt
  have hy := y.toBits.toNat_lt
  have hbits : x.toBits = y.toBits := UInt64.toNat_inj.mp (by omega)
  obtain ⟨⟨b, hb⟩⟩ := x
  obtain ⟨⟨b', hb'⟩⟩ := y
  cases (show b = b' from hbits)
  rfl

/-! ## Signed natural numbers -/

theorem Stored.neg {u : UnpackedFloat} (hu : Stored u) : Stored u.neg := by
  cases u <;> exact hu

theorem unpack_neg (x : Float) : (-x).toModel.unpack = x.toModel.unpack.neg := by
  have hstored : Stored x.toModel.unpack.neg := (stored_unpack _).neg
  show UnpackedFloat.unpack _ (UnpackedFloat.pack _ x.toModel.unpack.neg) = _
  rw [unpack_pack hstored.canonical, hstored.settled_eq]

theorem isMinus_neg (s : Sign) : isMinus (-s) = !isMinus s := by
  cases s <;> rfl

theorem isFinite_neg {x : Float} (hx : x.isFinite) : (-x).isFinite := by
  have hfinite : x.toModel.unpack.isFinite := hx
  show (-x).toModel.unpack.isFinite
  rw [unpack_neg]
  cases hu : x.toModel.unpack <;> rw [hu] at hfinite <;> exact hfinite

theorem value_neg (x : Float) : value (-x) = -value x := by
  have hsign : ∀ (s : Sign) (q : ℚ), signed (-s) q = -signed s q := by
    intro s q
    cases s with
    | negative => exact (neg_neg q).symm
    | positive => rfl
  show valueOf (-x).toModel.unpack = -valueOf x.toModel.unpack
  rw [unpack_neg]
  cases x.toModel.unpack with
  | finite s m e hm => exact hsign s _
  | infinity s => exact hsign s _
  | zero s => exact neg_zero.symm
  | notANumber => exact neg_zero.symm

theorem apply_neg (s : Sign) (n : ℤ) : (-s).apply n = -s.apply n := by
  cases s with
  | negative => exact (neg_neg n).symm
  | positive => rfl

/-- A difference is the sum with the opposite number. -/
theorem unpacked_sub_eq (spec : Format) (u v : UnpackedFloat) :
    UnpackedFloat.sub spec u v = UnpackedFloat.add spec u v.neg := by
  rcases u with s | _ | s | ⟨s, m, e, hm⟩ <;> rcases v with s' | _ | s' | ⟨s', m', e', hm'⟩
  case finite.finite =>
    unfold UnpackedFloat.neg UnpackedFloat.sub UnpackedFloat.add
    simp only [sub_eq_add_neg, apply_neg]
  all_goals rfl

theorem sub_eq_add_opposite (a b : Float) : a - b = a + -b := by
  show (⟨Float.Model.pack _⟩ : Float) = ⟨Float.Model.pack _⟩
  rw [unpacked_sub_eq, ← unpack_neg]

theorem sub_isRounded {a b : Float} (ha : a.isFinite) (hb : b.isFinite) :
    IsRounded (a - b) (value a - value b) := by
  have hsum := add_isRounded ha (isFinite_neg hb)
  rwa [value_neg, ← sub_eq_add_neg, ← sub_eq_add_opposite] at hsum

/-- The opposite number differs in the sign alone. -/
theorem parts_neg {x : Float} (hx : x.isFinite) :
    parts (-x) = { parts x with negative := !(parts x).negative } := by
  have hfinite : x.toModel.unpack.isFinite := hx
  rw [parts_eq (isFinite_neg hx), parts_eq hx, unpack_neg]
  cases hu : x.toModel.unpack with
  | finite s m e hm => exact congrArg (Parts.mk · m e) (isMinus_neg s)
  | zero s => exact congrArg (Parts.mk · 0 (-1074)) (isMinus_neg s)
  | infinity s =>
    rw [hu] at hfinite
    cases hfinite
  | notANumber =>
    rw [hu] at hfinite
    cases hfinite

theorem parts_negative (x : Float) : (parts x).negative = isNegative x := by
  unfold parts
  split_ifs <;> rfl

/-- What the parts of a number stand for. -/
theorem value_parts {x : Float} (hx : x.isFinite) :
    value x = if isNegative x then -((parts x).significand * 2 ^ (parts x).exponent : ℚ)
      else (parts x).significand * 2 ^ (parts x).exponent := by
  have hfinite : x.toModel.unpack.isFinite := hx
  have hsign : ∀ (s : Sign) (q : ℚ), signed s q = if isMinus s then -q else q := by
    intro s q
    cases s <;> rfl
  rw [← parts_negative, parts_eq hx]
  show valueOf x.toModel.unpack = _
  cases hu : x.toModel.unpack with
  | finite s m e hm => exact hsign s _
  | zero s =>
    show 0 = if isMinus s then -((0 : ℕ) * 2 ^ (-1074 : ℤ) : ℚ) else (0 : ℕ) * 2 ^ (-1074 : ℤ)
    rw [Nat.cast_zero, zero_mul, neg_zero, ite_self]
  | infinity s =>
    rw [hu] at hfinite
    cases hfinite
  | notANumber =>
    rw [hu] at hfinite
    cases hfinite

/-- A positive number is made of the digits that it stands for. -/
theorem parts_of_value {y : Float} {m : ℕ} {e : ℤ} (hy : y.isFinite) (hm : 0 < m)
    (hdigits : Digits m e) (hvalue : value y = m * 2 ^ e) : parts y = ⟨false, m, e⟩ := by
  have hpos : 0 < valueOf y.toModel.unpack := by
    show 0 < value y
    rw [hvalue]
    exact mul_pos (Nat.cast_pos.mpr hm) (two_zpow_pos e)
  have hstored : Stored y.toModel.unpack := stored_unpack _
  rcases positive_of_valueOf_pos hpos with hu | ⟨m', e', hm', hu⟩
  · have hfinite : y.toModel.unpack.isFinite := hy
    rw [hu] at hfinite
    cases hfinite
  · have hvalue' : (m' : ℚ) * 2 ^ e' = m * 2 ^ e := by
      unfold value at hvalue
      rwa [hu] at hvalue
    rw [hu] at hstored
    rw [parts_eq hy, hu]
    have hexponent : e' = e := by
      rcases lt_trichotomy e' e with hlt | heq | hgt
      · exact absurd hvalue' (hstored.1.lt_of_place hdigits (.inl hlt)).ne
      · exact heq
      · exact absurd hvalue' (hdigits.lt_of_place hstored.1 (.inl hgt)).ne'
    subst hexponent
    have hmantissa : m' = m :=
      Nat.cast_injective (R := ℚ) (mul_right_cancel₀ (two_zpow_pos e').ne' hvalue')
    subst hmantissa
    rfl

/-- A natural number with a sign. -/
def signedOfNat (negative : Bool) (n : ℕ) : Float :=
  if negative then -Float.ofNat n else Float.ofNat n

/-- A natural number of the format is made of a positive mantissa, unless it is zero. -/
theorem unpack_ofNat {n : ℕ} (hn : n < 2 ^ 53) :
    (n = 0 ∧ (Float.ofNat n).toModel.unpack = .zero .positive) ∨
      ∃ m e hm, (Float.ofNat n).toModel.unpack = .finite .positive m e hm ∧ (m : ℚ) * 2 ^ e = n := by
  rcases Nat.eq_zero_or_pos n with rfl | hpos
  · exact .inl ⟨rfl, rfl⟩
  · obtain ⟨hfinite, hvalue⟩ := value_ofNat hn
    have hvalue' : 0 < valueOf (Float.ofNat n).toModel.unpack := by
      show 0 < value (Float.ofNat n)
      rw [hvalue]
      exact Nat.cast_pos.mpr hpos
    rcases positive_of_valueOf_pos hvalue' with hu | ⟨m, e, hm, hu⟩
    · have hfinite : (Float.ofNat n).toModel.unpack.isFinite := hfinite
      rw [hu] at hfinite
      cases hfinite
    · refine .inr ⟨m, e, hm, hu, ?_⟩
      unfold value at hvalue
      rwa [hu] at hvalue

/-- The sign is added to the unpacked number. -/
theorem unpack_signedOfNat (negative : Bool) {n : ℕ} (hn : n < 2 ^ 53) :
    ∃ s, isMinus s = negative ∧ (n = 0 ∧ (signedOfNat negative n).toModel.unpack = .zero s ∨
      ∃ m e hm, (signedOfNat negative n).toModel.unpack = .finite s m e hm ∧ (m : ℚ) * 2 ^ e = n) := by
  cases negative with
  | false => exact ⟨.positive, rfl, unpack_ofNat hn⟩
  | true =>
    refine ⟨.negative, rfl, ?_⟩
    show n = 0 ∧ (-Float.ofNat n).toModel.unpack = _ ∨
      ∃ m e hm, (-Float.ofNat n).toModel.unpack = _ ∧ _
    rw [unpack_neg]
    rcases unpack_ofNat hn with ⟨hzero, hu⟩ | ⟨m, e, hm, hu, hvalue⟩
    · rw [hu]
      exact .inl ⟨hzero, rfl⟩
    · rw [hu]
      exact .inr ⟨m, e, hm, rfl, hvalue⟩

theorem parts_signedOfNat (negative : Bool) {n : ℕ} (hn : n < 2 ^ 53) :
    (signedOfNat negative n).isFinite ∧ (parts (signedOfNat negative n)).negative = negative ∧
      ((parts (signedOfNat negative n)).significand : ℚ) *
        2 ^ (parts (signedOfNat negative n)).exponent = n := by
  obtain ⟨s, rfl, ⟨rfl, hu⟩ | ⟨m, e, hm, hu, hvalue⟩⟩ := unpack_signedOfNat negative hn
  · have hfinite : (signedOfNat (isMinus s) 0).isFinite := by
      show (signedOfNat (isMinus s) 0).toModel.unpack.isFinite
      rw [hu]
      rfl
    rw [parts_eq hfinite, hu]
    exact ⟨hfinite, rfl, by simp [partsOf]⟩
  · have hfinite : (signedOfNat (isMinus s) n).isFinite := by
      show (signedOfNat (isMinus s) n).toModel.unpack.isFinite
      rw [hu]
      rfl
    rw [parts_eq hfinite, hu]
    exact ⟨hfinite, rfl, hvalue⟩

/-! ## Whole numbers -/

/-- A significand with a fraction that stands for a whole number is a multiple of what the fraction
counts in. -/
theorem significand_eq {n m : ℕ} {e : ℤ} (he : e < 0) (h : (m : ℚ) * 2 ^ e = n) :
    m = n * Nat.pow 2 (-e).toNat := by
  have hsplit : e = -((-e).toNat : ℤ) := by omega
  rw [hsplit, zpow_neg, zpow_natCast, ← div_eq_mul_inv, div_eq_iff (by positivity)] at h
  exact_mod_cast h

theorem roundHalfUp_lt {m k : ℕ} (hm : m < 2 ^ 53) (hk : 0 < k) : roundHalfUp m k < 2 ^ 53 := by
  unfold roundHalfUp
  have hpow : 2 ≤ Nat.pow 2 k := Nat.le_self_pow hk.ne' 2
  have hsucc : Nat.pow 2 (k + 1) = Nat.pow 2 k * 2 := rfl
  rw [hsucc, Nat.div_lt_iff_lt_mul (by omega)]
  omega

/-- What is rounded is a signed natural number, unless it has no fraction or is not finite. -/
theorem roundWhole_cases (x : Float) :
    (x.isFinite → 0 ≤ (parts x).exponent) ∧ roundWhole x = x ∨
      ∃ negative n, n < 2 ^ 53 ∧ roundWhole x = signedOfNat negative n := by
  unfold roundWhole
  by_cases hfinite : x.isFinite
  · by_cases hexponent : 0 ≤ (parts x).exponent
    · simp [hfinite, hexponent]
    · refine .inr ⟨(parts x).negative, roundHalfUp (parts x).significand (-(parts x).exponent).toNat,
        roundHalfUp_lt (significand_parts_lt x) (by omega), ?_⟩
      simp [hfinite, hexponent, signedOfNat]
  · simp [hfinite]

theorem roundWhole_signedOfNat (negative : Bool) {n : ℕ} (hn : n < 2 ^ 53) :
    roundWhole (signedOfNat negative n) = signedOfNat negative n := by
  obtain ⟨hfinite, hsign, hvalue⟩ := parts_signedOfNat negative hn
  unfold roundWhole
  by_cases hexponent : 0 ≤ (parts (signedOfNat negative n)).exponent
  · simp [hfinite, hexponent]
  · have hmultiple := significand_eq (lt_of_not_ge hexponent) hvalue
    simp only [hfinite, hexponent, hsign, hmultiple, roundHalfUp_mul]
    rfl

theorem isWhole_signedOfNat (negative : Bool) {n : ℕ} (hn : n < 2 ^ 53) :
    isWhole (signedOfNat negative n) := by
  obtain ⟨hfinite, hsign, hvalue⟩ := parts_signedOfNat negative hn
  unfold isWhole
  by_cases hexponent : 0 ≤ (parts (signedOfNat negative n)).exponent
  · simp [hfinite, hexponent]
  · have hmultiple := significand_eq (lt_of_not_ge hexponent) hvalue
    simp [hfinite, hexponent, hmultiple]

/-- **Rounding** to a whole number happens once. -/
theorem roundWhole_roundWhole (x : Float) : roundWhole (roundWhole x) = roundWhole x := by
  rcases roundWhole_cases x with ⟨-, hx⟩ | ⟨negative, n, hn, hx⟩
  · rw [hx, hx]
  · rw [hx]
    exact roundWhole_signedOfNat negative hn

theorem isWhole_roundWhole {x : Float} (h : (roundWhole x).isFinite) : isWhole (roundWhole x) := by
  rcases roundWhole_cases x with ⟨hlarge, hx⟩ | ⟨negative, n, hn, hx⟩
  · rw [hx] at h ⊢
    unfold isWhole
    simp [h, hlarge h]
  · rw [hx]
    exact isWhole_signedOfNat negative hn

end CurveFit.Binary64
