import CurveFit.Proofs.Binary64.Special
import CurveFit.Proofs.Linear.Elimination

/-!
# Idle unknowns in binary64

A row that is zero up to its diagonal is left alone by elimination: its factors are zeros.  A factor
is not a zero where a pivot is a NaN, so as long as no earlier pivot is one, the pivot of such a row
is a zero, and its unknown is zero (`SquareSystem.unknown_of_idle`).
-/

namespace CurveFit

open Binary64

namespace SquareSystem

variable {n : ℕ} {s : SquareSystem Float n} {j : Fin n}

theorem row_clearColumn_of_isZero {i k : Fin n} (hrow : IsZero (s.coeff i k))
    (hpivot : (s.coeff k k).isNaN = false) : (s.clearColumn k).matrix.get i = s.matrix.get i := by
  by_cases hzero : IsZero (s.coeff k k)
  · rw [s.clearColumn_of_pivot (beq_zero_iff.mpr hzero)]
  · exact s.row_clearColumn (.inr (beq_zero_iff.mpr (hrow.div hzero hpivot)))

/-- Elimination leaves a row alone that is zero before its diagonal, unless an earlier pivot is a
NaN. -/
theorem row_eliminate_of_idle (hrow : ∀ k < j, IsZero (s.coeff j k))
    (hpivots : ∀ k < j, (s.eliminate.coeff k k).isNaN = false) :
    s.eliminate.matrix.get j = s.matrix.get j := by
  -- a pivot keeps its value once its column has been cleared
  refine eliminate_induction (P := fun m t =>
    (∀ k < j, k.val < m → (t.coeff k k).isNaN = false) → t.matrix.get j = s.matrix.get j)
    (fun _ => rfl) (fun k t ih hpivots => ?_) fun k hk _ => hpivots k hk
  have hkept : ∀ i ≤ k, (t.clearColumn k).matrix.get i = t.matrix.get i := fun i hi =>
    t.row_clearColumn (.inl hi)
  have hpivots' : ∀ i < j, i ≤ k → (t.coeff i i).isNaN = false := by
    intro i hi hik
    have hpivot := hpivots i hi (Nat.lt_succ_of_le hik)
    unfold coeff at hpivot
    rwa [hkept i hik] at hpivot
  have hj : t.matrix.get j = s.matrix.get j := ih fun i hi hik => hpivots' i hi (le_of_lt hik)
  by_cases hjk : j ≤ k
  · rw [hkept j hjk, hj]
  · have hkj : k < j := not_le.mp hjk
    have hzero : IsZero (t.coeff j k) := by
      unfold coeff
      rw [hj]
      exact hrow k hkj
    rw [row_clearColumn_of_isZero hzero (hpivots' k hkj le_rfl), hj]

/-- **Idle unknowns.**  A row that is zero up to its diagonal has a zero pivot and a zero unknown,
unless an earlier pivot is a NaN. -/
theorem unknown_of_idle (hrow : ∀ k ≤ j, IsZero (s.coeff j k))
    (hpivots : ∀ k < j, (s.eliminate.coeff k k).isNaN = false) :
    s.eliminate.coeff j j == 0 ∧ s.solve.unknowns.get j = 0 := by
  have hpivot : s.eliminate.coeff j j == 0 := by
    have hkept := row_eliminate_of_idle (fun k hk => hrow k hk.le) hpivots
    unfold coeff
    rw [hkept]
    exact beq_zero_iff.mpr (hrow j le_rfl)
  exact ⟨hpivot, get_substitute_of_pivot hpivot⟩

end SquareSystem

end CurveFit
