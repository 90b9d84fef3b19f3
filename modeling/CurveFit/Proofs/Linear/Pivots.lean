import CurveFit.Proofs.Linear.Elimination
import Mathlib.Algebra.Field.Rat
import Mathlib.LinearAlgebra.Matrix.Block
import Mathlib.LinearAlgebra.Matrix.Nondegenerate

/-!
# Pivots and leading minors

Elimination without exchanges meets no zero pivot exactly if no leading principal minor is zero
(`SquareSystem.pivots_ne_zero_iff`).  Up to the first zero pivot it only adds multiples of a row to
the rows below it, so the leading blocks keep their determinants (`Reduces.inside`), and a leading
minor is the product of its pivots (`leadingMinor_eq_prod`).  After a zero pivot the entries below
it stay where they are; back substitution reads none of them (`DenseMatrix.solve_spec`).
-/

namespace CurveFit

open Matrix

variable {α : Type} [Field α] {n m : ℕ}

/-- The determinant of the first `m` rows and columns. -/
def leadingMinor (A : Matrix (Fin n) (Fin n) α) (hm : m ≤ n) : α :=
  (A.submatrix (Fin.castLE hm) (Fin.castLE hm)).det

theorem leadingMinor_self (A : Matrix (Fin n) (Fin n) α) : leadingMinor A le_rfl = A.det := rfl

namespace SquareSystem

/-! ## Leading blocks -/

/-- From `s` to `t` the first `m` rows have had their columns before `k` cleared, and the leading
minor of that size is what it was. -/
structure Reduces (s t : SquareSystem α n) (hm : m ≤ n) (k : ℕ) : Prop where
  cleared : ∀ i j : Fin n, i < m → j < k → j < i → t.coeff i j = 0
  minor : leadingMinor t.coeff hm = leadingMinor s.coeff hm

variable [DecidableEq α] {s t : SquareSystem α n} {hm : m ≤ n} {k : Fin n}

/-- A column in the block is cleared. -/
theorem Reduces.inside (h : s.Reduces t hm k) (hk : k < m) (hpivot : t.coeff k k ≠ 0) :
    s.Reduces (t.clearColumn k) hm (k + 1) := by
  have hrow : ∀ j < k, t.coeff k j = 0 := fun j hj => h.cleared k j hk hj hj
  refine ⟨fun i j hi hj hji => ?_, Eq.trans ?_ h.minor⟩
  · rw [coeff_clearColumn_of_row hrow]
    rcases (Nat.lt_succ_iff.mp hj).lt_or_eq with hjk | hjk
    · rw [h.cleared i j hi hjk hji, hrow j hjk, mul_zero, sub_zero, ite_self]
    · obtain rfl : j = k := Fin.ext hjk
      rw [if_pos hji, div_mul_cancel₀ _ hpivot, sub_self]
  · let factor : Fin m → α := fun i =>
      if k < Fin.castLE hm i then -(t.coeff (Fin.castLE hm i) k / t.coeff k k) else 0
    refine det_eq_of_forall_row_eq_smul_add_const factor ⟨k, hk⟩ (if_neg (lt_irrefl k))
      fun i j => ?_
    show (t.clearColumn k).coeff (Fin.castLE hm i) (Fin.castLE hm j) =
      t.coeff (Fin.castLE hm i) (Fin.castLE hm j) + factor i * t.coeff k (Fin.castLE hm j)
    rw [coeff_clearColumn_of_row hrow]
    by_cases hi : k < Fin.castLE hm i
    · simp only [factor, if_pos hi]
      rw [neg_mul, sub_eq_add_neg]
    · simp only [factor, if_neg hi]
      rw [zero_mul, add_zero]

/-- Nothing happens to the block when a column behind it is cleared, or its last one. -/
theorem Reduces.behind (h : s.Reduces t hm k) (hk : m ≤ k + 1) :
    s.Reduces (t.clearColumn k) hm (k + 1) := by
  have hrows : ∀ i j : Fin n, i < m → (t.clearColumn k).coeff i j = t.coeff i j := by
    intro i j hi
    have hik : ¬ k < i := not_lt.mpr (Nat.lt_succ_iff.mp (hi.trans_le hk))
    rw [coeff_clearColumn, if_neg fun hij => hik hij.1]
  refine ⟨fun i j hi _ hji => ?_, Eq.trans (congrArg det ?_) h.minor⟩
  · have hjk : (j : ℕ) < k := (Fin.lt_def.mp hji).trans_le (Nat.lt_succ_iff.mp (hi.trans_le hk))
    rw [hrows i j hi]
    exact h.cleared i j hi hjk hji
  · ext i j
    exact hrows _ _ i.isLt

/-- While the pivots before the last of a block are not zero, elimination reduces the block. -/
theorem reduces_reached (s : SquareSystem α n) (hm : m ≤ n)
    (hpivots : ∀ k : Fin n, k + 1 < m → s.eliminate.coeff k k ≠ 0) :
    ∀ k ≤ n, s.Reduces (s.reached k) hm k := by
  intro k
  induction k with
  | zero => exact fun _ => ⟨fun _ j _ hj => absurd hj (Nat.not_lt_zero j), rfl⟩
  | succ k ih =>
    intro hk
    have h := ih (Nat.le_of_succ_le hk)
    rw [s.reached_succ ⟨k, hk⟩]
    by_cases hkm : k + 1 < m
    · refine h.inside (k := ⟨k, hk⟩) (Nat.lt_of_succ_lt hkm) ?_
      rw [s.pivot_reached ⟨k, hk⟩]
      exact hpivots ⟨k, hk⟩ hkm
    · exact h.behind (k := ⟨k, hk⟩) (not_lt.mp hkm)

/-- **A leading minor** is the product of its pivots, if none but the last is zero. -/
theorem leadingMinor_eq_prod (s : SquareSystem α n) (hm : m ≤ n)
    (hpivots : ∀ k : Fin n, k + 1 < m → s.eliminate.coeff k k ≠ 0) :
    leadingMinor s.coeff hm =
      ∏ k : Fin m, s.eliminate.coeff (Fin.castLE hm k) (Fin.castLE hm k) := by
  have hreduced := s.reduces_reached hm hpivots n le_rfl
  rw [s.reached_all] at hreduced
  rw [← hreduced.minor]
  exact det_of_isUpperTriangular fun i j hji =>
    hreduced.cleared _ _ i.isLt (Fin.castLE hm j).isLt hji

/-- **No pivot is zero** exactly if no leading minor is. -/
theorem pivots_ne_zero_iff (s : SquareSystem α n) :
    (∀ k, s.eliminate.coeff k k ≠ 0) ↔ ∀ m, ∀ hm : m ≤ n, leadingMinor s.coeff hm ≠ 0 := by
  constructor
  · intro hpivots m hm
    rw [s.leadingMinor_eq_prod hm fun k _ => hpivots k]
    exact Finset.prod_ne_zero_iff.mpr fun k _ => hpivots _
  · -- the first zero pivot would make the minor that ends with it zero
    intro hminors k
    induction k using WellFoundedLT.induction with
    | ind k ih =>
      have hminor := hminors (k + 1) k.isLt
      rw [s.leadingMinor_eq_prod k.isLt fun i hi => ih i (Nat.lt_of_succ_lt_succ hi)] at hminor
      exact Finset.prod_ne_zero_iff.mp hminor (Fin.last k) (Finset.mem_univ _)

/-! ## The solution -/

theorem zeroPivots_eq (s : SquareSystem α n) :
    s.solve.zeroPivots = (Finset.univ.filter fun k => s.eliminate.coeff k k = 0).card := by
  refine s.eliminate.substitute_spec.count.trans (congrArg Finset.card ?_)
  exact Finset.filter_congr fun k _ => and_iff_right (Nat.zero_le _)

theorem zeroPivots_eq_zero_iff (s : SquareSystem α n) :
    s.solve.zeroPivots = 0 ↔ ∀ k, s.eliminate.coeff k k ≠ 0 := by
  rw [zeroPivots_eq, Finset.card_eq_zero, Finset.filter_eq_empty_iff]
  exact ⟨fun h k => h (Finset.mem_univ k), fun h k _ => h k⟩

/-- Without zero pivots no solution gets lost on the way. -/
theorem solves_of_eliminate (hpivots : ∀ k, s.eliminate.coeff k k ≠ 0) {x : Fin n → α}
    (hx : s.eliminate.coeff *ᵥ x = s.eliminate.target) : s.coeff *ᵥ x = s.target := by
  have hback : ∀ k ≤ n, (s.reached k).coeff *ᵥ x = (s.reached k).target →
      s.coeff *ᵥ x = s.target := by
    intro k
    induction k with
    | zero => exact fun _ => id
    | succ k ih =>
      intro hk hxk
      have hreduced := s.reduces_reached le_rfl (fun i _ => hpivots i) k (Nat.le_of_succ_le hk)
      rw [s.reached_succ ⟨k, hk⟩] at hxk
      refine ih (Nat.le_of_succ_le hk) (solves_of_clearColumn (k := ⟨k, hk⟩) ?_ hxk)
      exact fun j hj => hreduced.cleared _ j hk hj hj
  rw [← s.reached_all] at hx
  exact hback n le_rfl hx

theorem solves_solve (hpivots : ∀ k, s.eliminate.coeff k k ≠ 0) :
    s.coeff *ᵥ s.solve.unknowns.get = s.target := by
  have hreduced := s.reduces_reached le_rfl (fun i _ => hpivots i) n le_rfl
  rw [s.reached_all] at hreduced
  refine solves_of_eliminate hpivots (funext fun k => ?_)
  exact substitute_solves_row (fun j hj => hreduced.cleared k j k.isLt j.isLt hj) (hpivots k)

/-- Without zero pivots there is one solution. -/
theorem solution_iff (hpivots : ∀ k, s.eliminate.coeff k k ≠ 0) (x : Fin n → α) :
    s.coeff *ᵥ x = s.target ↔ x = s.solve.unknowns.get := by
  have hdet : s.coeff.det ≠ 0 := by
    rw [← leadingMinor_self]
    exact s.pivots_ne_zero_iff.mp hpivots n le_rfl
  constructor
  · intro hx
    exact mulVec_injective_of_det_ne_zero hdet (hx.trans (solves_solve hpivots).symm)
  · rintro rfl
    exact solves_solve hpivots

end SquareSystem

/-- **Solving** a system of `n` equations, for any entries and any right-hand side.  No pivot is zero
exactly if no leading minor is, and then the unknowns are the one solution of the system that was
given.  In general the zero pivots are those that elimination finds zero as it reaches them, which
back substitution sees too; their unknowns are zero, and every other unknown solves its row of the
triangular system. -/
theorem DenseMatrix.solve_spec [DecidableEq α] (f : ℕ → ℕ → α) (rhs : List α) :
    let s : SquareSystem α rhs.length := .ofEntries f rhs
    let A : Matrix (Fin rhs.length) (Fin rhs.length) α := fun i j => f i j
    ∃ e, (DenseMatrix.ofFn rhs.length rhs.length f).solve rhs = .ok e ∧
      (e.zeroPivots = 0 ↔ ∀ m, ∀ hm : m ≤ rhs.length, leadingMinor A hm ≠ 0) ∧
      (e.zeroPivots = 0 → ∀ x, A *ᵥ x = rhs.get ↔ x = e.unknowns.get) ∧
      e.zeroPivots = (Finset.univ.filter fun k : Fin rhs.length =>
        (s.reached k).coeff k k = 0).card ∧
      (∀ k : Fin rhs.length, (s.reached k).coeff k k = (e.matrix.get k).get k) ∧
      (∀ k : Fin rhs.length, (s.reached k).coeff k k = 0 → e.unknowns.get k = 0) ∧
      ∀ k : Fin rhs.length, (s.reached k).coeff k k ≠ 0 →
        (e.matrix.get k).get k * e.unknowns.get k +
          ∑ c ∈ Finset.Ioi k, (e.matrix.get k).get c * e.unknowns.get c = s.eliminate.target k := by
  intro s A
  have hA : s.coeff = A := by
    ext i j
    show ((SquareSystem.ofEntries f rhs).matrix.get i).get j = f i j
    unfold SquareSystem.ofEntries
    rw [get_ofFn, get_ofFn]
  have hb : s.target = rhs.get := rfl
  have hspec := s.eliminate.substitute_spec
  refine ⟨s.solve, solve_ofFn f rhs, ?minors, ?unique, ?count, s.pivot_reached, ?dropped, ?row⟩
  case minors => rw [← hA, s.zeroPivots_eq_zero_iff, s.pivots_ne_zero_iff]
  case unique =>
    intro hzero x
    rw [← hA, ← hb]
    exact SquareSystem.solution_iff (s.zeroPivots_eq_zero_iff.mp hzero) x
  case count => simp only [s.pivot_reached, s.zeroPivots_eq]
  case dropped =>
    intro k hk
    exact hspec.dropped k (Nat.zero_le _) (s.pivot_reached k ▸ hk)
  case row =>
    intro k hk
    exact hspec.row k (Nat.zero_le _) (s.pivot_reached k ▸ hk)

/-- The rows `(2, 1)` and `(4, 5)` have one solution.  The rows `(0, 1)` and `(1, 2)` have one as well,
but the first pivot is zero, so its unknown is zero and the second row is solved alone. -/
theorem DenseMatrix.solve_spec_pair :
    let f : ℕ → ℕ → ℚ := fun i j => if i = 0 then if j = 0 then 2 else 1 else if j = 0 then 4 else 5
    let g : ℕ → ℕ → ℚ := fun i j => if i = 0 then if j = 0 then 0 else 1 else if j = 0 then 1 else 2
    (∃ e, (DenseMatrix.ofFn 2 2 f).solve [3, 9] = .ok e ∧ e.zeroPivots = 0 ∧
      ∀ x, (fun i j : Fin 2 => f i j) *ᵥ x = ![3, 9] ↔ x = ![1, 1]) ∧
    ∃ e, (DenseMatrix.ofFn 2 2 g).solve [1, 4] = .ok e ∧ e.zeroPivots = 1 ∧
      e.unknowns.get 0 = 0 ∧ 2 * e.unknowns.get 1 = 4 := by
  intro f g
  obtain ⟨e, he, -, hunique, hcount, -⟩ := DenseMatrix.solve_spec f [3, 9]
  obtain ⟨e', he', -, -, hcount', hpivot', hdropped', hrow'⟩ := DenseMatrix.solve_spec g [1, 4]
  have hzero : e.zeroPivots = 0 := hcount.trans (by decide +kernel)
  have hrhs : [3, 9].get = (![3, 9] : Fin 2 → ℚ) := by decide +kernel
  have hsolution : ![1, 1] = e.unknowns.get := (hunique hzero _).mp (by decide +kernel)
  refine ⟨⟨e, he, hzero, fun x => ?_⟩, e', he', hcount'.trans (by decide +kernel), ?_, ?_⟩
  · rw [hsolution, ← hrhs]
    exact hunique hzero x
  · exact hdropped' 0 (by decide +kernel)
  · have hrow := hrow' 1 (by decide +kernel)
    have hlast : Finset.Ioi (1 : Fin 2) = ∅ := by decide
    have hpivot : (e'.matrix.get 1).get 1 = 2 := (hpivot' 1).symm.trans (by decide +kernel)
    have htarget : (SquareSystem.ofEntries g [1, 4]).eliminate.target 1 = 4 := by decide +kernel
    rw [hpivot, htarget] at hrow
    simpa [hlast] using hrow

end CurveFit
