import CurveFit.Proofs.Binary64.Division

/-!
# Zeros and infinities

Sums of zeros are zeros, and so are the products of a zero with finite numbers, but not its product
with an infinity.  A positive number that is not finite is the positive infinity, which sums and
quotients with finite positive numbers keep.  `succ_le_of_lt` says that there is nothing between a
number and the next one.
-/

namespace CurveFit.Binary64

open Float.Model Float.Model.UnpackedFloat

variable {a b c : Float}

/-! ## Zeros -/

/-- A zero of either sign. -/
def IsZero (a : Float) : Prop := ∃ s, a.toModel.unpack = .zero s

theorem isZero_zero : IsZero 0 := ⟨.positive, rfl⟩

theorem isZero_neg_zero : IsZero (-0) := ⟨.negative, rfl⟩

theorem IsZero.isFinite (ha : IsZero a) : a.isFinite := by
  obtain ⟨s, hs⟩ := ha
  show a.toModel.unpack.isFinite
  rw [hs]
  rfl

/-- Zeros are what equals zero. -/
theorem beq_zero_iff : a == 0 ↔ IsZero a := by
  show (a.toModel.unpack.beq (.zero .positive)) = true ↔ ∃ s, a.toModel.unpack = .zero s
  rcases a.toModel.unpack with (_ | _) | _ | s | ⟨_ | _, m, e, hm⟩ <;>
    simp [UnpackedFloat.beq, UnpackedFloat.compare]

theorem not_beq_zero (ha : 0 < value a) : ¬ a == 0 := by
  intro hzero
  obtain ⟨s, hs⟩ := beq_zero_iff.mp hzero
  unfold value at ha
  rw [hs] at ha
  exact ha.false

theorem finite_cases (ha : a.isFinite) :
    IsZero a ∨ ∃ s m e hm, a.toModel.unpack = .finite s m e hm := by
  have ha' : a.toModel.unpack.isFinite := ha
  unfold IsZero
  cases hu : a.toModel.unpack with
  | notANumber => rw [hu] at ha'; cases ha'
  | infinity s => rw [hu] at ha'; cases ha'
  | zero s => exact .inl ⟨s, rfl⟩
  | finite s m e hm => exact .inr ⟨s, m, e, hm, rfl⟩

theorem isZero_pack {u : UnpackedFloat} (h : ∃ s, u = .zero s) : IsZero ⟨Float.Model.pack u⟩ := by
  obtain ⟨s, rfl⟩ := h
  exact ⟨s, unpack_packedZero⟩

theorem IsZero.add (ha : IsZero a) (hb : IsZero b) : IsZero (a + b) := by
  obtain ⟨s, hs⟩ := ha
  obtain ⟨t, ht⟩ := hb
  apply isZero_pack
  rw [hs, ht]
  cases s <;> cases t <;> exact ⟨_, rfl⟩

theorem IsZero.mul (ha : IsZero a) (hb : b.isFinite) : IsZero (a * b) := by
  obtain ⟨s, hs⟩ := ha
  apply isZero_pack
  rw [hs]
  rcases finite_cases hb with ⟨t, ht⟩ | ⟨t, m, e, hm, ht⟩ <;> rw [ht] <;> exact ⟨_, rfl⟩

theorem IsZero.mul_left (ha : IsZero a) (hb : b.isFinite) : IsZero (b * a) := by
  obtain ⟨s, hs⟩ := ha
  apply isZero_pack
  rw [hs]
  rcases finite_cases hb with ⟨t, ht⟩ | ⟨t, m, e, hm, ht⟩ <;> rw [ht] <;> exact ⟨_, rfl⟩

/-- The quotient of a zero by any other number is a zero. -/
theorem IsZero.div (ha : IsZero a) (hb : ¬ IsZero b) (hnan : b.isNaN = false) : IsZero (a / b) := by
  obtain ⟨s, hs⟩ := ha
  have hnan' : b.toModel.unpack.isNaN = false := hnan
  apply isZero_pack
  rw [hs]
  cases hu : b.toModel.unpack with
  | notANumber => rw [hu] at hnan'; cases hnan'
  | zero t => exact absurd ⟨t, hu⟩ hb
  | infinity t => exact ⟨_, rfl⟩
  | finite t m e hm => exact ⟨_, rfl⟩

/-! ## The positive infinity -/

/-- The positive infinity. -/
def IsInfinity (a : Float) : Prop := a.toModel.unpack = .infinity .positive

theorem isInfinity_of_not_isFinite (ha : 0 < value a) (h : ¬ a.isFinite) : IsInfinity a := by
  rcases positive_of_valueOf_pos ha with hu | ⟨m, e, hm, hu⟩
  · exact hu
  · refine absurd ?_ h
    show a.toModel.unpack.isFinite
    rw [hu]
    rfl

/-- What is no less than a finite number and not finite is the infinity. -/
theorem isInfinity_of_le (ha : a.isFinite) (hab : a ≤ b) (hb : ¬ b.isFinite) : IsInfinity b := by
  obtain ⟨-, hnan, hvalue⟩ := le_iff_value.mp hab
  have hlarge : limit ≤ |value b| := by
    by_contra hsmall
    exact hb (isFinite_iff.mpr ⟨hnan, not_le.mp hsmall⟩)
  have habove : -limit < value b := (abs_lt.mp (isFinite_iff.mp ha).2).1.trans_le hvalue
  rcases le_abs.mp hlarge with h | h
  · exact isInfinity_of_not_isFinite (limit_pos.trans_le h) hb
  · exact absurd habove (le_neg.mp h).not_gt

theorem IsInfinity.value_eq (ha : IsInfinity a) : value a = limit := by
  unfold value
  rw [ha]
  rfl

theorem IsInfinity.not_isFinite (ha : IsInfinity a) : ¬ a.isFinite := by
  show ¬ a.toModel.unpack.isFinite
  rw [ha]
  exact Bool.false_ne_true

theorem isInfinity_pack {u : UnpackedFloat} (h : u = .infinity .positive) :
    IsInfinity ⟨Float.Model.pack u⟩ := by
  subst h
  exact unpack_packedInfinity .positive

theorem IsInfinity.add (ha : a.isFinite) (hb : IsInfinity b) : IsInfinity (a + b) := by
  apply isInfinity_pack
  rw [hb]
  rcases finite_cases ha with ⟨t, ht⟩ | ⟨t, m, e, hm, ht⟩ <;> rw [ht] <;> rfl

/-- A zero times the infinity is not a number. -/
theorem IsZero.mul_isInfinity (ha : IsZero a) (hb : IsInfinity b) : (a * b).isNaN := by
  obtain ⟨s, hs⟩ := ha
  show (UnpackedFloat.unpack _ (UnpackedFloat.pack _ (UnpackedFloat.mul _ _ _))).isNaN
  rw [hs, hb]
  exact congrArg UnpackedFloat.isNaN unpack_packedNaN

theorem IsInfinity.mul_isZero (ha : IsInfinity a) (hb : IsZero b) : (a * b).isNaN := by
  obtain ⟨s, hs⟩ := hb
  show (UnpackedFloat.unpack _ (UnpackedFloat.pack _ (UnpackedFloat.mul _ _ _))).isNaN
  rw [ha, hs]
  exact congrArg UnpackedFloat.isNaN unpack_packedNaN

theorem IsInfinity.mul (ha : IsInfinity a) (hb : 0 < value b) : IsInfinity (a * b) :=
  mul_of_infinite (ha.value_eq ▸ limit_pos) hb fun h => ha.not_isFinite h.1

theorem IsInfinity.div (ha : IsInfinity a) (hb : 0 < value b) (hfinite : b.isFinite) :
    IsInfinity (a / b) := by
  rcases positive_of_valueOf_pos hb with hu | ⟨m, e, hm, hu⟩
  · exact absurd hfinite (IsInfinity.not_isFinite hu)
  · apply isInfinity_pack
    rw [ha, hu]
    rfl

theorem IsInfinity.isNaN (ha : IsInfinity a) : a.isNaN = false := by
  show a.toModel.unpack.isNaN = false
  rw [ha]
  rfl

theorem IsInfinity.lt (ha : IsInfinity a) (hb : b.isFinite) : b < a := by
  obtain ⟨hnan, hsize⟩ := isFinite_iff.mp hb
  exact lt_iff_value.mpr ⟨hnan, ha.isNaN, ha.value_eq ▸ (abs_lt.mp hsize).2⟩

/-- No number comes after the infinity. -/
theorem le_isInfinity (ha : a.isNaN = false) (hb : IsInfinity b) : a ≤ b := by
  refine le_iff_value.mpr ⟨ha, hb.isNaN, ?_⟩
  rw [hb.value_eq, (value_isRounded ha).value]
  exact max_le (neg_le_self limit_pos.le) (min_le_right _ _)

/-! ## Positive numbers -/

theorem pos_iff : 0 < a ↔ 0 < value a := by
  rw [lt_iff_value]
  exact ⟨fun h => h.2.2, fun h => ⟨rfl, isNaN_of_value_pos h, h⟩⟩

theorem pos_of_pos_of_le (ha : 0 < a) (hab : a ≤ b) : 0 < b :=
  pos_iff.mpr ((pos_iff.mp ha).trans_le (value_mono hab))

/-- There is nothing between a positive number and the one with the next mantissa. -/
theorem succ_le_of_lt {m e : ℤ} (ha : place a = toLex (1, toLex (e, m)))
    (hb : place b = toLex (1, toLex (e, m + 1))) (hnan : b.isNaN = false) (h : a < c) : b ≤ c := by
  obtain ⟨-, hc, hplace⟩ := lt_iff.mp h
  refine le_iff.mpr ⟨hnan, hc, ?_⟩
  rw [ha] at hplace
  rw [hb]
  rw [Prod.Lex.lt_iff, Prod.Lex.lt_iff] at hplace
  rw [Prod.Lex.le_iff, Prod.Lex.le_iff]
  exact hplace

end CurveFit.Binary64
