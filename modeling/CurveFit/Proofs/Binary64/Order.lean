import Mathlib

/-!
# The order of the binary64 numbers

A number has a place: its sign and size, then its exponent, then its mantissa, which count in this
order.  Two numbers compare as their places do, and a NaN compares with nothing (`lt_iff`,
`le_iff`), so the laws of a linear order hold where no NaN is involved.
-/

namespace CurveFit.Binary64

open Float.Model

/-! ## Places -/

/-- Where a number stands among the others; both zeros stand at one place. -/
def placeOf : UnpackedFloat → ℤ ×ₗ ℤ ×ₗ ℤ
  | .infinity .negative => toLex (-2, toLex (0, 0))
  | .finite .negative m e _ => toLex (-1, toLex (-e, -m))
  | .zero _ => toLex (0, toLex (0, 0))
  | .finite .positive m e _ => toLex (1, toLex (e, m))
  | .infinity .positive => toLex (2, toLex (0, 0))
  | .notANumber => toLex (0, toLex (0, 0))

section Sizes

variable {e₁ e₂ : ℤ} {m₁ m₂ : ℕ}

theorem sizes_eq_lt :
    (compare e₁ e₂).then (compare m₁ m₂) = .lt ↔ e₁ < e₂ ∨ e₁ = e₂ ∧ m₁ < m₂ := by
  rw [Ordering.then_eq_lt, compare_lt_iff_lt, compare_eq_iff_eq, compare_lt_iff_lt]

theorem sizes_eq_gt :
    (compare e₁ e₂).then (compare m₁ m₂) = .gt ↔ e₂ < e₁ ∨ e₁ = e₂ ∧ m₂ < m₁ := by
  rw [Ordering.then_eq_gt, compare_gt_iff_gt, compare_eq_iff_eq, compare_gt_iff_gt]

theorem sizes_isLE :
    ((compare e₁ e₂).then (compare m₁ m₂)).isLE ↔ e₁ < e₂ ∨ e₁ = e₂ ∧ m₁ ≤ m₂ := by
  rw [← Ordering.ne_gt_iff_isLE, sizes_eq_gt]
  omega

theorem sizes_isGE :
    ((compare e₁ e₂).then (compare m₁ m₂)).isGE ↔ e₂ < e₁ ∨ e₁ = e₂ ∧ m₂ ≤ m₁ := by
  rw [← Ordering.ne_lt_iff_isGE, sizes_eq_lt]
  omega

end Sizes

theorem unpacked_lt_iff {a b : UnpackedFloat} :
    a.lt b ↔ a.isNaN = false ∧ b.isNaN = false ∧ placeOf a < placeOf b := by
  rcases a with (_ | _) | _ | (_ | _) | ⟨_ | _, m₁, e₁, _⟩ <;>
    rcases b with (_ | _) | _ | (_ | _) | ⟨_ | _, m₂, e₂, _⟩ <;>
    simp [UnpackedFloat.lt, UnpackedFloat.compare, UnpackedFloat.isNaN, placeOf,
      Prod.Lex.toLex_lt_toLex, sizes_eq_lt, sizes_eq_gt]
  rfl

theorem unpacked_le_iff {a b : UnpackedFloat} :
    a.le b ↔ a.isNaN = false ∧ b.isNaN = false ∧ placeOf a ≤ placeOf b := by
  rcases a with (_ | _) | _ | (_ | _) | ⟨_ | _, m₁, e₁, _⟩ <;>
    rcases b with (_ | _) | _ | (_ | _) | ⟨_ | _, m₂, e₂, _⟩ <;>
    simp [UnpackedFloat.le, UnpackedFloat.compare, UnpackedFloat.isNaN, placeOf,
      Prod.Lex.toLex_le_toLex, sizes_isLE, sizes_isGE] <;>
    rfl

/-! ## The order -/

/-- Where a number stands among the others. -/
def place (x : Float) : ℤ ×ₗ ℤ ×ₗ ℤ := placeOf x.toModel.unpack

variable {a b c : Float}

theorem lt_iff : a < b ↔ a.isNaN = false ∧ b.isNaN = false ∧ place a < place b := by
  show (decide (a.toModel < b.toModel)) = true ↔ _
  rw [decide_eq_true_iff]
  exact unpacked_lt_iff

theorem le_iff : a ≤ b ↔ a.isNaN = false ∧ b.isNaN = false ∧ place a ≤ place b := by
  show (decide (a.toModel ≤ b.toModel)) = true ↔ _
  rw [decide_eq_true_iff]
  exact unpacked_le_iff

theorem lt_irrefl (a : Float) : ¬ a < a := fun h => (lt_iff.mp h).2.2.false

theorem lt_asymm (h : a < b) : ¬ b < a := fun h' =>
  (lt_iff.mp h).2.2.asymm (lt_iff.mp h').2.2

theorem le_refl (h : a.isNaN = false) : a ≤ a := le_iff.mpr ⟨h, h, le_rfl⟩

theorem le_of_lt (h : a < b) : a ≤ b := by
  obtain ⟨ha, hb, hab⟩ := lt_iff.mp h
  exact le_iff.mpr ⟨ha, hb, hab.le⟩

theorem lt_of_not_le (ha : a.isNaN = false) (hb : b.isNaN = false) (h : ¬ a ≤ b) : b < a := by
  rw [le_iff] at h
  exact lt_iff.mpr ⟨hb, ha, not_le.mp fun hle => h ⟨ha, hb, hle⟩⟩

theorem le_of_not_lt (ha : a.isNaN = false) (hb : b.isNaN = false) (h : ¬ a < b) : b ≤ a := by
  by_contra hle
  exact h (lt_of_not_le hb ha hle)

theorem le_trans (hab : a ≤ b) (hbc : b ≤ c) : a ≤ c := by
  obtain ⟨ha, -, hab⟩ := le_iff.mp hab
  obtain ⟨-, hc, hbc⟩ := le_iff.mp hbc
  exact le_iff.mpr ⟨ha, hc, hab.trans hbc⟩

instance geTrans : Trans (α := Float) (· ≥ ·) (· ≥ ·) (· ≥ ·) where
  trans hab hbc := le_trans hbc hab

theorem isNaN_of_isFinite (h : a.isFinite) : a.isNaN = false := by
  unfold Float.isFinite Float.Model.isFinite at h
  unfold Float.isNaN Float.Model.isNaN
  cases hu : a.toModel.unpack with
  | notANumber =>
    rw [hu] at h
    cases h
  | infinity _ => rfl
  | zero _ => rfl
  | finite _ _ _ _ => rfl

end CurveFit.Binary64
