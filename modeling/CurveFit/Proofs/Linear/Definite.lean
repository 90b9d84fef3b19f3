import CurveFit.Proofs.Linear.Elimination
import Mathlib.Tactic.Ring

/-!
# Definite systems need no pivoting

Elimination never exchanges rows and passes over a zero pivot, which for a general system loses
equations.  `DefiniteFrom` names the systems for which it loses none: a set of idle unknowns whose
rows, columns and targets are zero, and a form that is positive on every vector that is not zero on
the other unknowns.

* `DefiniteFrom.clearColumn`: clearing a column keeps the form definite on the later unknowns and
  makes the pivot of an unknown that is not idle positive;
* `DefiniteFrom.solve`: every equation holds for the unknowns found, the idle unknowns are zero, and
  the zero pivots are exactly theirs.
-/

namespace CurveFit

namespace SquareSystem

open Matrix

variable {α : Type} {n : ℕ} [Field α] [LinearOrder α]

/-- The columns before `k` are cleared, the unknowns in `idle` occur in no equation, and the form is
positive on the unknowns from `k` on that are not idle. -/
structure DefiniteFrom (s : SquareSystem α n) (idle : Finset (Fin n)) (k : ℕ) : Prop where
  below : ∀ i j : Fin n, j < k → j < i → s.coeff i j = 0
  row_idle : ∀ z ∈ idle, ∀ j, s.coeff z j = 0
  col_idle : ∀ z ∈ idle, ∀ i, s.coeff i z = 0
  target_idle : ∀ z ∈ idle, s.target z = 0
  pivot_pos : ∀ i : Fin n, i < k → i ∉ idle → 0 < s.coeff i i
  form_pos : ∀ v : Fin n → α, (∀ j : Fin n, j < k → v j = 0) → (∃ j, j ∉ idle ∧ v j ≠ 0) →
    0 < v ⬝ᵥ s.coeff *ᵥ v

namespace DefiniteFrom

variable {s : SquareSystem α n} {idle : Finset (Fin n)} {k : Fin n}

/-- The columns before `k` are zero in row `k`. -/
theorem row_start (h : s.DefiniteFrom idle k) : ∀ j < k, s.coeff k j = 0 :=
  fun j hj => h.below k j hj hj

theorem coeff_clear (h : s.DefiniteFrom idle k) (i j : Fin n) : (s.clearColumn k).coeff i j =
    if k < i then s.coeff i j - s.coeff i k / s.coeff k k * s.coeff k j else s.coeff i j :=
  coeff_clearColumn_of_row h.row_start i j

/-! ## One column -/

/-- The next pivot is the form at a unit vector. -/
theorem next_pivot_pos (h : s.DefiniteFrom idle k) (hk : k ∉ idle) : 0 < s.coeff k k := by
  have hform := h.form_pos (Pi.single k 1) ?_ ⟨k, hk, ?_⟩
  · rwa [single_dotProduct, one_mul, mulVec_single_one] at hform
  · intro j hj
    exact Pi.single_eq_of_ne (Fin.ne_of_lt hj) 1
  · rw [Pi.single_eq_same]
    exact one_ne_zero

/-- Moving a vector along unknown `k` until row `k` is zero gives the old form the value that the
cleared form has at the vector itself. -/
theorem form_clear (h : s.DefiniteFrom idle k) (hpivot : s.coeff k k ≠ 0) {v : Fin n → α}
    (hv : ∀ j : Fin n, j < (k : ℕ) + 1 → v j = 0) :
    let u := v + Pi.single k (-((s.coeff *ᵥ v) k / s.coeff k k))
    u ⬝ᵥ s.coeff *ᵥ u = v ⬝ᵥ (s.clearColumn k).coeff *ᵥ v := by
  intro u
  have hrow : ∀ i, (s.coeff *ᵥ u) i =
      (s.coeff *ᵥ v) i - s.coeff i k / s.coeff k k * (s.coeff *ᵥ v) k := by
    intro i
    rw [mulVec_add, Pi.add_apply, mulVec_single]
    simp only [Pi.smul_apply, col_apply, MulOpposite.smul_eq_mul_unop, MulOpposite.unop_op]
    ring
  have hzero : (s.coeff *ᵥ u) k = 0 := by
    rw [hrow, div_self hpivot, one_mul, sub_self]
  -- row `k` of the moved vector is zero, so what was added at `k` counts for nothing
  rw [add_dotProduct, single_dotProduct, hzero, mul_zero, add_zero]
  refine Finset.sum_congr rfl fun i _ => ?_
  by_cases hi : k < i
  · rw [hrow, mulVec_clearColumn h.row_start, if_pos hi]
  · rw [hv i (Nat.lt_succ_of_le (not_lt.mp hi)), zero_mul, zero_mul]

theorem form_pos_clear (h : s.DefiniteFrom idle k) {v : Fin n → α}
    (hv : ∀ j : Fin n, j < (k : ℕ) + 1 → v j = 0) (hne : ∃ j, j ∉ idle ∧ v j ≠ 0) :
    0 < v ⬝ᵥ (s.clearColumn k).coeff *ᵥ v := by
  by_cases hk : k ∈ idle
  · have hsame : (s.clearColumn k).coeff = s.coeff := by
      ext i j
      rw [h.coeff_clear, h.col_idle k hk i, zero_div, zero_mul, sub_zero, ite_self]
    rw [hsame]
    exact h.form_pos v (fun j hj => hv j (Nat.lt_succ_of_lt hj)) hne
  · rw [← h.form_clear (h.next_pivot_pos hk).ne' hv]
    apply h.form_pos
    · intro j hj
      rw [Pi.add_apply, hv j (Nat.lt_succ_of_lt hj), Pi.single_eq_of_ne (Fin.ne_of_lt hj), add_zero]
    · obtain ⟨j, hj, hvj⟩ := hne
      have hjk : j ≠ k := fun hjk => hvj (hv j (hjk ▸ Nat.lt_succ_self _))
      exact ⟨j, hj, by rwa [Pi.add_apply, Pi.single_eq_of_ne hjk, add_zero]⟩

/-- **One column.**  Clearing it leaves the form definite on the unknowns after it. -/
protected theorem clearColumn (h : s.DefiniteFrom idle k) :
    (s.clearColumn k).DefiniteFrom idle (k + 1) := by
  refine ⟨?below, ?row, ?col, ?target, ?pivot, fun v hv hne => h.form_pos_clear hv hne⟩
  case below =>
    intro i j hj hji
    rw [h.coeff_clear]
    by_cases hjk : j < k
    · rw [h.below i j hjk hji, h.below k j hjk hjk, mul_zero, sub_zero, ite_self]
    · -- the column that is cleared; that of an idle unknown was zero before
      have hkj : j = k := le_antisymm (Nat.lt_succ_iff.mp hj) (not_lt.mp hjk)
      subst hkj
      rw [if_pos hji]
      by_cases hidle : j ∈ idle
      · rw [h.col_idle j hidle i, zero_div, zero_mul, sub_zero]
      · rw [div_mul_cancel₀ _ (h.next_pivot_pos hidle).ne', sub_self]
  case row =>
    intro z hz j
    rw [h.coeff_clear, h.row_idle z hz j, h.row_idle z hz k, zero_div, zero_mul, sub_zero, ite_self]
  case col =>
    intro z hz i
    rw [h.coeff_clear, h.col_idle z hz i, h.col_idle z hz k, mul_zero, sub_zero, ite_self]
  case target =>
    intro z hz
    rw [target_clearColumn, h.target_idle z hz, h.row_idle z hz k, zero_div, zero_mul, sub_zero,
      ite_self]
  case pivot =>
    intro i hi hidle
    have hik : i ≤ k := Nat.lt_succ_iff.mp hi
    rw [h.coeff_clear, if_neg (not_lt.mpr hik)]
    rcases hik.lt_or_eq with hlt | rfl
    · exact h.pivot_pos i hlt hidle
    · exact h.next_pivot_pos hidle

/-! ## All columns -/

theorem eliminate (h : s.DefiniteFrom idle 0) : s.eliminate.DefiniteFrom idle n ∧
    ∀ x, s.eliminate.coeff *ᵥ x = s.eliminate.target → s.coeff *ᵥ x = s.target :=
  eliminate_induction
    (P := fun k t => t.DefiniteFrom idle k ∧ ∀ x, t.coeff *ᵥ x = t.target → s.coeff *ᵥ x = s.target)
    ⟨h, fun _ => id⟩ fun _ _ ht => ⟨ht.1.clearColumn, fun x hx => ht.2 x (solves_of_clearColumn ht.1.row_start hx)⟩

/-- A pivot of the eliminated system is zero for the idle unknowns alone. -/
theorem pivot_eq_zero_iff (h : s.DefiniteFrom idle n) (i : Fin n) :
    s.coeff i i = 0 ↔ i ∈ idle := by
  constructor
  · intro hzero
    by_contra hi
    exact (h.pivot_pos i i.isLt hi).ne' hzero
  · intro hi
    exact h.row_idle i hi i

/-- Back substitution in the eliminated system misses no equation. -/
theorem substitute_solves (h : s.DefiniteFrom idle n) :
    s.coeff *ᵥ s.substitute.1.get = s.target := by
  funext i
  by_cases hi : i ∈ idle
  · show ∑ j, s.coeff i j * s.substitute.1.get j = s.target i
    rw [h.target_idle i hi]
    refine Finset.sum_eq_zero fun j _ => ?_
    rw [h.row_idle i hi j, zero_mul]
  · have hpivot : s.coeff i i ≠ 0 := fun hzero => hi ((h.pivot_eq_zero_iff i).mp hzero)
    exact substitute_solves_row (fun j hj => h.below i j j.isLt hj) hpivot

/-- **Definite systems.**  The unknowns found solve every equation, the idle ones are zero, and as
many pivots are zero as unknowns are idle. -/
theorem solve (h : s.DefiniteFrom idle 0) :
    s.coeff *ᵥ s.solve.unknowns.get = s.target ∧
      (∀ z ∈ idle, s.solve.unknowns.get z = 0) ∧ s.solve.zeroPivots = idle.card := by
  obtain ⟨hdone, hback⟩ := h.eliminate
  have hspec := s.eliminate.substitute_spec
  refine ⟨hback _ hdone.substitute_solves, fun z hz => ?_, ?_⟩
  · exact hspec.dropped z (Nat.zero_le _) ((hdone.pivot_eq_zero_iff z).mpr hz)
  · refine hspec.count.trans (congrArg Finset.card ?_)
    ext i
    simp [hdone.pivot_eq_zero_iff]

/-- A solution that leaves the idle unknowns alone has a positive product with a target that is not
zero. -/
theorem target_pos (h : s.DefiniteFrom idle 0) {x : Fin n → α} (hx : s.coeff *ᵥ x = s.target)
    (hidle : ∀ z ∈ idle, x z = 0) (htarget : s.target ≠ 0) : 0 < x ⬝ᵥ s.target := by
  have hne : ∃ j, j ∉ idle ∧ x j ≠ 0 := by
    by_contra hnone
    have hzero : x = 0 := by
      funext j
      by_cases hj : j ∈ idle
      · exact hidle j hj
      · by_contra hxj
        exact hnone ⟨j, hj, hxj⟩
    rw [hzero, mulVec_zero] at hx
    exact htarget hx.symm
  rw [← hx]
  exact h.form_pos x (fun _ hj => absurd hj (Nat.not_lt_zero _)) hne

end DefiniteFrom

end SquareSystem

end CurveFit
