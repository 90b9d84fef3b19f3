import CurveFit.Proofs.Sample.Places
import CurveFit.Sample

/-!
# The grid of a dataset

A grid goes up in equal steps from its lower end, each place computed by a product and a sum.  The
places are in order as long as they are finite, and the last one tells: if it is finite all of them
are (`SampleSpec.Ranges.grid_isFinite_iff`).  It need not be, since the width of a range with finite
ends may be too large for a number, or the last product just reach beyond the largest one; ends up to
`2 ^ 1019` in size rule that out (`SampleSpec.Ranges.grid_isFinite_of_small`).
-/

namespace CurveFit

open Binary64

namespace SampleSpec

/-- What a specification needs for its grid: some points, as many as fit in memory, and a range with
finite ends in order. -/
structure Ranges (spec : SampleSpec) : Prop where
  points_pos : 0 < spec.points
  points_lt : spec.points < 2 ^ 60
  low : spec.xMin.isFinite
  high : spec.xMax.isFinite
  ascending : spec.xMin < spec.xMax

theorem grid_eq (spec : SampleSpec) (h : spec.points ≠ 1) :
    spec.grid = places spec.xMin (stepDistance spec.xMin spec.xMax spec.points) spec.points :=
  if_neg h

theorem grid_eq_singleton (spec : SampleSpec) (h : spec.points = 1) : spec.grid = [spec.xMin] :=
  if_pos h

theorem length_grid (spec : SampleSpec) : spec.grid.length = spec.points := by
  by_cases h : spec.points = 1
  · rw [spec.grid_eq_singleton h, h, List.length_singleton]
  · rw [spec.grid_eq h, length_places]

namespace Ranges

variable {spec : SampleSpec} {first last : Float} (h : spec.Ranges)

include h

theorem gridRange (hone : spec.points ≠ 1) : GridRange spec.xMin spec.xMax spec.points :=
  ⟨h.low, h.high, h.ascending, by have := h.points_pos; omega, h.points_lt.trans (by norm_num)⟩

/-- The last place tells whether the grid is an even one; a single point is. -/
theorem evenGrid (hlast : spec.grid.getLast? = some last) (hfinite : last.isFinite) :
    EvenGrid spec.xMin spec.points spec.grid := by
  by_cases hone : spec.points = 1
  · rw [spec.grid_eq_singleton hone, hone]
    exact .singleton h.low
  · rw [spec.grid_eq hone] at hlast ⊢
    exact (h.gridRange hone).steps_outcome.even_iff.mpr ⟨last, hlast, hfinite⟩

/-- The last place tells whether the whole grid is finite, and then the grid lies between its first and
its last place. -/
theorem grid_between (hfirst : spec.grid.head? = some first) (hlast : spec.grid.getLast? = some last)
    (hfinite : last.isFinite) : ∀ x ∈ spec.grid, x.isFinite ∧ first ≤ x ∧ x ≤ last :=
  fun x hx => ⟨(h.evenGrid hlast hfinite).isFinite x hx,
    (h.evenGrid hlast hfinite).between hfirst hlast x hx⟩

/-- **The grid** is finite exactly when its last place is. -/
theorem grid_isFinite_iff (hlast : spec.grid.getLast? = some last) :
    (∀ x ∈ spec.grid, x.isFinite) ↔ last.isFinite :=
  ⟨fun hall => hall last (List.mem_of_getLast? hlast),
    fun hfinite => (h.evenGrid hlast hfinite).isFinite⟩

/-- **Ends that are not too large** give a finite grid. -/
theorem grid_isFinite_of_small (hlow : |value spec.xMin| ≤ 2 ^ (1019 : ℤ))
    (hhigh : |value spec.xMax| ≤ 2 ^ (1019 : ℤ)) : ∀ x ∈ spec.grid, x.isFinite := by
  by_cases hone : spec.points = 1
  · rw [spec.grid_eq_singleton hone]
    exact List.forall_mem_singleton.mpr h.low
  · have hlast : spec.grid.getLast? = some _ := spec.grid_eq hone ▸ getLast?_places h.points_pos
    exact (h.grid_isFinite_iff hlast).mpr ((h.gridRange hone).isFinite_step_of_small hlow hhigh)

end Ranges

end SampleSpec

end CurveFit
