import CurveFit.Exponential.Fast
import CurveFit.Model.Shapes
import CurveFit.Proofs.Sample.Grid
import CurveFit.Report.File

/-!
# Even grids

A dataset, the curve of a report file and a check of the exponential function each put places evenly
over a range with finite ends.  A dataset and a check take steps and a curve takes shares, so that a
curve may reach beyond the largest number where the others do not: the width of its range is
multiplied by the number of the place before it is divided.  Neither is even over every range
(`even_grids_overflow`).  `even_grids` says what does hold: the number of places and their order, what
is left of a grid across an infinite width, and ends that are small enough.
-/

namespace CurveFit

open Binary64

variable {low high : Float} {n : ℕ}

namespace GridRange

variable (h : GridRange low high n)

include h

theorem curvePoints_eq : curvePoints low high n = places low (shareDistance low high n) n := by
  have hrange : (low.isFinite && high.isFinite && decide (low < high)) = true := by
    simp only [h.isFinite_low, h.isFinite_high, h.ascending, decide_true, Bool.and_self]
  unfold curvePoints
  rw [if_pos hrange, Nat.max_eq_left h.two_le]
  rfl

theorem checkGrid_eq :
    Exponential.checkGrid low high n = places low (stepDistance low high n) n := by
  unfold Exponential.checkGrid
  rw [Nat.max_eq_left h.two_le]
  rfl

theorem evenGrid_of_small (hlow : |value low| ≤ 2 ^ (1019 : ℤ))
    (hhigh : |value high| ≤ 2 ^ (1019 : ℤ)) :
    EvenGrid low n (places low (stepDistance low high n) n) :=
  h.steps_outcome.even_iff.mpr
    ⟨_, getLast?_places (by have := h.two_le; omega), h.isFinite_step_of_small hlow hhigh⟩

theorem evenGrid_of_small_share {m : ℕ} (hm : m ≤ 64) (hcount : n ≤ 2 ^ m)
    (hlow : |value low| ≤ 2 ^ (1021 - m : ℤ)) (hhigh : |value high| ≤ 2 ^ (1021 - m : ℤ)) :
    EvenGrid low n (places low (shareDistance low high n) n) :=
  h.shares_outcome.even_iff.mpr
    ⟨_, getLast?_places (by have := h.two_le; omega), h.isFinite_share_of_small hm hcount hlow hhigh⟩

end GridRange

/-- **Even grids** of at least two places over a range with finite ends in order.  Each has its number
of places; it is even, which is to say finite, ascending and starting at the lower end, exactly when
its last place is finite; across a finite width it starts at the lower end and ascends in any case,
and across an infinite one no place is finite and the first is not a number.  A dataset and a check of
the exponential have the same grid, which is even for ends up to `2 ^ 1019` in size; a curve of at
most `2 ^ m` points is even for ends up to `2 ^ (1021 - m)`. -/
theorem even_grids (spec : SampleSpec) (hlow : spec.xMin.isFinite) (hhigh : spec.xMax.isFinite)
    (hascending : spec.xMin < spec.xMax) (hn : 2 ≤ spec.points) (hwords : spec.points < 2 ^ 64) :
    GridOutcome spec.xMin spec.xMax spec.points spec.grid ∧
    GridOutcome spec.xMin spec.xMax spec.points (curvePoints spec.xMin spec.xMax spec.points) ∧
    Exponential.checkGrid spec.xMin spec.xMax spec.points = spec.grid ∧
    (|value spec.xMin| ≤ 2 ^ (1019 : ℤ) → |value spec.xMax| ≤ 2 ^ (1019 : ℤ) →
      EvenGrid spec.xMin spec.points spec.grid) ∧
    ∀ m : ℕ, m ≤ 64 → spec.points ≤ 2 ^ m → |value spec.xMin| ≤ 2 ^ (1021 - m : ℤ) →
      |value spec.xMax| ≤ 2 ^ (1021 - m : ℤ) →
        EvenGrid spec.xMin spec.points (curvePoints spec.xMin spec.xMax spec.points) := by
  have h : GridRange spec.xMin spec.xMax spec.points := ⟨hlow, hhigh, hascending, hn, hwords⟩
  rw [h.curvePoints_eq, h.checkGrid_eq, spec.grid_eq (by omega)]
  exact ⟨h.steps_outcome, h.shares_outcome, rfl, h.evenGrid_of_small,
    fun _ => h.evenGrid_of_small_share⟩

/-- A range that is almost as wide as a curve of 201 points allows. -/
theorem even_grids_wide :
    let spec : SampleSpec := ⟨201, -8e304, 8e304, 0.0, 1⟩
    EvenGrid spec.xMin 201 spec.grid ∧ EvenGrid spec.xMin 201 (curvePoints spec.xMin spec.xMax 201) ∧
      Exponential.checkGrid spec.xMin spec.xMax 201 = spec.grid := by
  intro spec
  obtain ⟨-, -, hcheck, hsteps, hshares⟩ := even_grids spec (by decide +kernel) (by decide +kernel)
    (by decide +kernel) (by decide) (by decide)
  exact ⟨hsteps (by decide +kernel) (by decide +kernel),
    hshares 8 (by decide) (by decide) (by decide +kernel) (by decide +kernel), hcheck⟩

/-- No grid from one end of the format to the other has a finite place, and a curve of three points
from zero on may end in an infinity where the other grids are finite. -/
theorem even_grids_overflow :
    let whole : SampleSpec := ⟨2, -largestFinite, largestFinite, 0.0, 1⟩
    let part : SampleSpec := ⟨3, 0.0, 1e308, 0.0, 1⟩
    whole.validate (Model.rational [1.0, 0.0] []) [1.0, 0.0] = .ok () ∧
    (∀ x ∈ whole.grid, ¬ x.isFinite) ∧
    (∀ x ∈ curvePoints whole.xMin whole.xMax whole.points, ¬ x.isFinite) ∧
    (∀ x ∈ Exponential.checkGrid whole.xMin whole.xMax whole.points, ¬ x.isFinite) ∧
    (∀ x ∈ part.grid, x.isFinite) ∧
    ∃ x ∈ curvePoints part.xMin part.xMax part.points, ¬ x.isFinite := by
  decide +kernel

end CurveFit
