import CurveFit.Proofs.Linear.Definite
import Mathlib.Algebra.Order.BigOperators.Group.Finset
import Mathlib.Algebra.Order.Ring.Basic

/-!
# The damped normal equations are definite

For derivatives `D` and a residual `r` the equations are `dampedGram D lambda *ᵥ δ = Dᵀ *ᵥ r`.  Their
form at `v` is the sum of squares of `D *ᵥ v`, plus `lambda` times the squares of `v` weighted by
the sums of squares of the columns (`dotProduct_dampedGram`).  So they are definite on the
parameters that some point depends on (`definiteFrom_dampedGram`).

Where the residual moves along `D`, the increment makes the sum of squares fall by the form of the
equations and the damping once more (`dotProduct_self_sub_step`), and a residual without a gradient is
the least one (`dotProduct_self_le`).
-/

namespace CurveFit

open Matrix

variable {α : Type} [Field α] {n p : ℕ}

/-- The matrix of the normal equations, its diagonal multiplied by one plus the damping. -/
def dampedGram (D : Matrix (Fin n) (Fin p) α) (lambda : α) : Matrix (Fin p) (Fin p) α :=
  fun i j => if i = j then (Dᵀ * D) i j * (1 + lambda) else (Dᵀ * D) i j

variable {D : Matrix (Fin n) (Fin p) α} {lambda : α}

theorem dampedGram_apply (i j : Fin p) :
    dampedGram D lambda i j = (Dᵀ * D) i j + if i = j then lambda * (Dᵀ * D) i i else 0 := by
  unfold dampedGram
  by_cases hij : i = j
  · subst hij
    rw [if_pos rfl, if_pos rfl]
    ring
  · rw [if_neg hij, if_neg hij, add_zero]

theorem dampedGram_mulVec (v : Fin p → α) (i : Fin p) : (dampedGram D lambda *ᵥ v) i =
    (Dᵀ *ᵥ (D *ᵥ v)) i + lambda * (Dᵀ * D) i i * v i := by
  rw [mulVec_mulVec]
  show ∑ j, dampedGram D lambda i j * v j = ∑ j, (Dᵀ * D) i j * v j + _
  simp only [dampedGram_apply, add_mul, ite_mul, zero_mul, Finset.sum_add_distrib,
    Finset.sum_ite_eq, Finset.mem_univ, if_true]

/-- **The form of the equations.** -/
theorem dotProduct_dampedGram (v : Fin p → α) : v ⬝ᵥ dampedGram D lambda *ᵥ v =
    (D *ᵥ v) ⬝ᵥ (D *ᵥ v) + lambda * ∑ j, (Dᵀ * D) j j * (v j * v j) := by
  have hsquares : v ⬝ᵥ Dᵀ *ᵥ (D *ᵥ v) = (D *ᵥ v) ⬝ᵥ (D *ᵥ v) := by
    rw [dotProduct_mulVec, vecMul_transpose]
  rw [← hsquares, Finset.mul_sum]
  unfold dotProduct
  simp only [dampedGram_mulVec, mul_add, Finset.sum_add_distrib]
  congr 1
  refine Finset.sum_congr rfl fun i _ => ?_
  ring

theorem gram_diagonal (j : Fin p) : (Dᵀ * D) j j = ∑ i, D i j * D i j := rfl

/-! ## Residuals that move -/

theorem dotProduct_self_sub_mulVec (r : Fin n → α) (v : Fin p → α) :
    (r - D *ᵥ v) ⬝ᵥ (r - D *ᵥ v) =
      r ⬝ᵥ r - 2 * (v ⬝ᵥ Dᵀ *ᵥ r) + (D *ᵥ v) ⬝ᵥ (D *ᵥ v) := by
  have hcross : v ⬝ᵥ Dᵀ *ᵥ r = (D *ᵥ v) ⬝ᵥ r := by
    rw [dotProduct_mulVec, vecMul_transpose]
  rw [sub_dotProduct, dotProduct_sub, dotProduct_sub, hcross, dotProduct_comm r (D *ᵥ v)]
  ring

/-- **The gain** of an increment that solves the equations. -/
theorem dotProduct_self_sub_step {r : Fin n → α} {δ : Fin p → α}
    (hδ : dampedGram D lambda *ᵥ δ = Dᵀ *ᵥ r) :
    r ⬝ᵥ r - (r - D *ᵥ δ) ⬝ᵥ (r - D *ᵥ δ) =
      δ ⬝ᵥ Dᵀ *ᵥ r + lambda * ∑ j, (Dᵀ * D) j j * (δ j * δ j) := by
  have hform : δ ⬝ᵥ Dᵀ *ᵥ r =
      (D *ᵥ δ) ⬝ᵥ (D *ᵥ δ) + lambda * ∑ j, (Dᵀ * D) j j * (δ j * δ j) := by
    rw [← hδ, dotProduct_dampedGram]
  rw [dotProduct_self_sub_mulVec, hform]
  ring

/-! ## Idle parameters -/

/-- The parameters that no point depends on. -/
def idleColumns [DecidableEq α] (D : Matrix (Fin n) (Fin p) α) : Finset (Fin p) :=
  Finset.univ.filter fun j => ∀ i, D i j = 0

theorem mem_idleColumns [DecidableEq α] {j : Fin p} : j ∈ idleColumns D ↔ ∀ i, D i j = 0 := by
  simp [idleColumns]

theorem dampedGram_eq_zero {i j : Fin p} (h : ∀ t, D t i * D t j = 0) :
    dampedGram D lambda i j = 0 := by
  have hentry : (Dᵀ * D) i j = 0 := by
    show ∑ t, D t i * D t j = 0
    exact Finset.sum_eq_zero fun t _ => h t
  unfold dampedGram
  rw [hentry, zero_mul, ite_self]

/-! ## Positivity -/

variable [LinearOrder α] [IsStrictOrderedRing α]

theorem gram_diagonal_nonneg (j : Fin p) : 0 ≤ (Dᵀ * D) j j := by
  rw [gram_diagonal]
  exact Finset.sum_nonneg fun _ _ => mul_self_nonneg _

theorem gram_diagonal_pos {j : Fin p} (hj : j ∉ idleColumns D) : 0 < (Dᵀ * D) j j := by
  obtain ⟨i, hi⟩ := not_forall.mp fun h => hj (mem_idleColumns.mpr h)
  rw [gram_diagonal]
  exact Finset.sum_pos' (fun _ _ => mul_self_nonneg _)
    ⟨i, Finset.mem_univ i, mul_self_pos.mpr hi⟩

theorem dampedGram_pos (hlambda : 0 < lambda) {v : Fin p → α}
    (hv : ∃ j, j ∉ idleColumns D ∧ v j ≠ 0) : 0 < v ⬝ᵥ dampedGram D lambda *ᵥ v := by
  obtain ⟨j, hj, hvj⟩ := hv
  have hsquares : 0 ≤ (D *ᵥ v) ⬝ᵥ (D *ᵥ v) := Finset.sum_nonneg fun _ _ => mul_self_nonneg _
  have hweighted : 0 < ∑ j, (Dᵀ * D) j j * (v j * v j) :=
    Finset.sum_pos' (fun i _ => mul_nonneg (gram_diagonal_nonneg i) (mul_self_nonneg _))
      ⟨j, Finset.mem_univ j, mul_pos (gram_diagonal_pos hj) (mul_self_pos.mpr hvj)⟩
  rw [dotProduct_dampedGram]
  exact add_pos_of_nonneg_of_pos hsquares (mul_pos hlambda hweighted)

/-- **Definiteness.**  What the equations leave idle are the parameters that no point depends on. -/
theorem definiteFrom_dampedGram {s : SquareSystem α p} {r : Fin n → α} (hlambda : 0 < lambda)
    (hcoeff : s.coeff = dampedGram D lambda) (htarget : s.target = Dᵀ *ᵥ r) :
    s.DefiniteFrom (idleColumns D) 0 := by
  refine ⟨?below, ?row, ?col, ?target, ?pivot, ?form⟩
  case below => exact fun _ j hj => absurd hj (Nat.not_lt_zero j)
  case row =>
    intro z hz j
    rw [hcoeff]
    exact dampedGram_eq_zero fun t => by rw [mem_idleColumns.mp hz t, zero_mul]
  case col =>
    intro z hz i
    rw [hcoeff]
    exact dampedGram_eq_zero fun t => by rw [mem_idleColumns.mp hz t, mul_zero]
  case target =>
    intro z hz
    rw [htarget]
    show ∑ t, D t z * r t = 0
    exact Finset.sum_eq_zero fun t _ => by rw [mem_idleColumns.mp hz t, zero_mul]
  case pivot => exact fun i hi => absurd hi (Nat.not_lt_zero i)
  case form =>
    intro v _ hv
    rw [hcoeff]
    exact dampedGram_pos hlambda hv

/-! ## The sum of squares -/

/-- An increment that makes a positive product with the gradient makes the sum of squares fall. -/
theorem dotProduct_self_lt (hlambda : 0 < lambda) {r : Fin n → α} {δ : Fin p → α}
    (hδ : dampedGram D lambda *ᵥ δ = Dᵀ *ᵥ r) (hpos : 0 < δ ⬝ᵥ Dᵀ *ᵥ r) :
    (r - D *ᵥ δ) ⬝ᵥ (r - D *ᵥ δ) < r ⬝ᵥ r := by
  have hweighted : 0 ≤ ∑ j, (Dᵀ * D) j j * (δ j * δ j) :=
    Finset.sum_nonneg fun j _ => mul_nonneg (gram_diagonal_nonneg j) (mul_self_nonneg _)
  rw [← sub_pos, dotProduct_self_sub_step hδ]
  exact add_pos_of_pos_of_nonneg hpos (mul_nonneg hlambda.le hweighted)

/-- Without a gradient the sum of squares is least. -/
theorem dotProduct_self_le {r : Fin n → α} (hgradient : Dᵀ *ᵥ r = 0) (v : Fin p → α) :
    r ⬝ᵥ r ≤ (r - D *ᵥ v) ⬝ᵥ (r - D *ᵥ v) := by
  have hsquares : 0 ≤ (D *ᵥ v) ⬝ᵥ (D *ᵥ v) := Finset.sum_nonneg fun _ _ => mul_self_nonneg _
  rw [dotProduct_self_sub_mulVec, hgradient, dotProduct_zero, mul_zero, sub_zero]
  exact le_add_of_nonneg_right hsquares

/-- Without a gradient nothing moves. -/
theorem increment_eq_zero (hlambda : 0 < lambda) {δ : Fin p → α}
    (hδ : dampedGram D lambda *ᵥ δ = 0) (hidle : ∀ j ∈ idleColumns D, δ j = 0) : δ = 0 := by
  by_contra hne
  obtain ⟨j, hj⟩ := Function.ne_iff.mp hne
  have hpos := dampedGram_pos hlambda ⟨j, fun hmem => hj (hidle j hmem), hj⟩
  rw [hδ, dotProduct_zero] at hpos
  exact lt_irrefl 0 hpos

end CurveFit
