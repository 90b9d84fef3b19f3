import CurveFit.Exponential.Lanes
import CurveFit.Proofs.Exponential.Steps
import CurveFit.Proofs.Lanes.Elementwise

/-!
# The two exponentials agree

A lane of the vectorised exponential differs from the scalar one in the clamping, whose operands are
ordered so that a NaN comes through, and in the exponent, which it shifts without regard to the sign.
The sum with the bias is not negative for an argument in range, so the shift is the same, and the two
exponentials agree bit by bit (`lane_eq_fast`); a NaN stays one.  Hence it does not matter where an
element stands in the registers or after the last one (`lanes_elements`).
-/

namespace CurveFit.Exponential

open CurveFit.Binary64

/-! ## One lane -/

section Lane

variable {x : Float} {k : ℤ}

/-- The minimum and the maximum of the register keep a number, and a NaN, as clamping does. -/
theorem laneClamp_eq (x : Float) : laneClamp x = clamp x := by
  have hends : ¬ maxArgument < minArgument := by decide +kernel
  unfold laneClamp laneMin laneMax clamp
  by_cases hbelow : x < minArgument
  · rw [if_pos hbelow, if_pos hbelow, if_neg hends]
  · rw [if_neg hbelow, if_neg hbelow]

theorem not_lt_of_isNaN (hx : x.isNaN) (a : Float) : ¬ x < a ∧ ¬ a < x := by
  constructor
  · intro h
    exact absurd hx (by rw [(lt_iff.mp h).1]; decide)
  · intro h
    exact absurd hx (by rw [(lt_iff.mp h).2.1]; decide)

theorem clamp_of_isNaN (hx : x.isNaN) : clamp x = x := by
  unfold clamp
  rw [if_neg (not_lt_of_isNaN hx minArgument).1, if_neg (not_lt_of_isNaN hx maxArgument).2]

/-- The scalar exponential gives a NaN back. -/
theorem fast_of_isNaN (hx : x.isNaN) : fast x = x := if_pos hx

theorem isNaN_remainder (hx : x.isNaN) : (remainder x).isNaN := isNaN_sub hx

theorem isNaN_quadratic {half r : Float} (hr : r.isNaN) : (quadratic half r).isNaN :=
  isNaN_add_right (isNaN_mul hr)

/-- A NaN comes through the arithmetic of a lane, whatever is found in the table. -/
theorem isNaN_lane (hx : x.isNaN) : (lane x).isNaN := by
  unfold lane
  rw [laneClamp_eq, clamp_of_isNaN hx]
  exact isNaN_mul_right (isNaN_quadratic (isNaN_remainder hx))

theorem laneSteps_eq (h : steps x = Int64.ofInt k) : laneSteps x = (Int64.ofInt k).toUInt64 := by
  rw [← h]
  rfl

/-- The shift without a sign, of a sum that has none. -/
theorem logical_shift_eq (hlower : -(1023 * 2048) ≤ k) (hupper : k < 2 ^ 62) :
    ((Int64.ofInt k).toUInt64 + scaledBias) >>> 11 = biasedExponent (Int64.ofInt k) := by
  have hbias : scaledBias.toNat = 1023 * 2048 := rfl
  have hexponent := toNat_biasedExponent hlower hupper
  have hword := toNat_toUInt64_ofInt k
  have hshift : (((Int64.ofInt k).toUInt64 + scaledBias) >>> 11).toNat =
      ((Int64.ofInt k).toUInt64.toNat + scaledBias.toNat) % 2 ^ 64 / 2 ^ 11 := by
    rw [UInt64.toNat_shiftRight, UInt64.toNat_add]
    exact Nat.shiftRight_eq_div_pow _ 11
  apply UInt64.toNat_inj.mp
  rw [hshift, hbias]
  omega

/-- **A lane** computes the scalar exponential. -/
theorem lane_eq_fast (x : Float) : lane x = fast x := by
  by_cases hnan : x.isNaN
  · rw [fast_of_isNaN hnan]
    exact eq_of_isNaN (isNaN_lane hnan) hnan
  · obtain ⟨hfinite, hrange⟩ := clamp_inRange (Bool.eq_false_iff.mpr hnan)
    obtain ⟨k, hcount, hsteps, -, -⟩ := exists_stepCount hfinite hrange
    obtain ⟨hlower, hupper⟩ := hcount.range hrange
    have hshift := logical_shift_eq (k := k) (by omega) (by omega)
    unfold lane fast fastBy compose assemble fractionAt
    rw [laneClamp_eq, if_neg hnan]
    simp only [hsteps, laneSteps_eq hsteps, hshift]

end Lane

/-! ## Lists -/

section Lists

variable {source out : List Float}

/-- Neither the groups of four nor what is left after them can be seen. -/
theorem lanes_eq_map (h : source.length = out.length) : lanes source out = source.map fast := by
  unfold lanes
  rw [funext lane_eq_fast]
  exact mapGroups_eq_map fast h fun _ _ _ h' => mapLanes_eq_map fast h'

/-- **The vectorised exponential** gives at every place the bits of the scalar one, and a NaN for a
NaN.  The index bits of every lane, a NaN too, choose a place of the table. -/
theorem lanes_elements (h : source.length = out.length) :
    (lanes source out).length = source.length ∧
      (∀ (i : ℕ) (hi : i < source.length), ∃ y, (lanes source out)[i]? = some y ∧
        (source[i].isNaN = false → y.toBits = (fast source[i]).toBits) ∧
        (source[i].isNaN → y.isNaN ∧ (fast source[i]).isNaN)) ∧
      ∀ x : Float, tableIndex (laneSteps (laneClamp x)) < table.size := by
  rw [lanes_eq_map h]
  refine ⟨List.length_map fast, fun i hi => ⟨fast source[i], ?_, fun _ => rfl, fun hnan => ?_⟩,
    fun x => (tableIndex_lt _).trans_eq (size_tableOf _).symm⟩
  · rw [List.getElem?_map, List.getElem?_eq_getElem hi, Option.map_some]
  · rw [fast_of_isNaN hnan]
    exact ⟨hnan, hnan⟩

/-- Four lanes, and one for the scalar exponential. -/
def extremes : List Float := [notANumber, infinity, -0.0, 1.5, -1000.0]

/-- A NaN and an infinity in the register, and a number out of range after it. -/
theorem lanes_elements_extremes :
    (∃ y, (lanes extremes extremes)[0]? = some y ∧ y.isNaN) ∧
      (∃ y, (lanes extremes extremes)[1]? = some y ∧ y.toBits = (fast infinity).toBits) ∧
      ∃ y, (lanes extremes extremes)[4]? = some y ∧ y.toBits = (fast (-1000.0)).toBits := by
  have hlength : extremes.length = extremes.length := rfl
  obtain ⟨-, helements, -⟩ := lanes_elements hlength
  obtain ⟨y₀, hy₀, -, hnan⟩ := helements 0 (by decide)
  obtain ⟨y₁, hy₁, hbits₁, -⟩ := helements 1 (by decide)
  obtain ⟨y₄, hy₄, hbits₄, -⟩ := helements 4 (by decide)
  exact ⟨⟨y₀, hy₀, (hnan (by decide +kernel)).1⟩, ⟨y₁, hy₁, hbits₁ (by decide +kernel)⟩,
    y₄, hy₄, hbits₄ (by decide +kernel)⟩

end Lists

end CurveFit.Exponential
