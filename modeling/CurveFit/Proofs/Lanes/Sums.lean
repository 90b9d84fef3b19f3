import CurveFit.Proofs.Fit.NormalEquations
import Mathlib.Algebra.BigOperators.Fin
import Mathlib.Data.Matrix.Mul
import Mathlib.Tactic.Abel

/-!
# Exact sums

The kernels add in different orders and start from different zeros.  In exact arithmetic neither
matters: both sums over the storage are the sum of the logical lanes (`Kernel.total_ofLanes`,
`Kernel.dot_ofLanes`), and a sum of products is the dot product of two vectors
(`Kernel.productSum_ofFn`).

In any arithmetic, what holds of both zeros and is kept by additions holds of every sum
(`Kernel.total_induction`), and a kernel adds products as it adds lanes, so that a sum of products is
the sum of the list of products (`Kernel.dot_eq_sum`).
-/

namespace CurveFit

open LaneVector Matrix

variable {α : Type}

/-! ## What sums keep -/

section Induction

variable [Add α] {P : α → Prop} {l : List α}

theorem foldl_add_induction (hadd : ∀ a b, P a → P b → P (a + b)) (hl : ∀ x ∈ l, P x) {a : α}
    (ha : P a) : P (l.foldl (· + ·) a) :=
  List.foldlRecOn l _ ha fun b hb x hx => hadd b x hb (hl x hx)

theorem sumGroups_induction (hadd : ∀ a b, P a → P b → P (a + b)) (hl : ∀ x ∈ l, P x)
    {s0 s1 s2 s3 : α} (h0 : P s0) (h1 : P s1) (h2 : P s2) (h3 : P s3) :
    P (sumGroups s0 s1 s2 s3 l) := by
  induction s0, s1, s2, s3, l using sumGroups.induct with
  | case1 s0 s1 s2 s3 x0 x1 x2 x3 l ih =>
    simp only [List.forall_mem_cons] at hl
    obtain ⟨hx0, hx1, hx2, hx3, hl⟩ := hl
    rw [sumGroups]
    exact ih hl (hadd _ _ h0 hx0) (hadd _ _ h1 hx1) (hadd _ _ h2 hx2) (hadd _ _ h3 hx3)
  | case2 s0 s1 s2 s3 l hshort =>
    rw [sumGroups]
    · exact foldl_add_induction hadd hl (hadd _ _ (hadd _ _ h0 h2) (hadd _ _ h1 h3))
    · exact hshort

variable [OfNat α 0] [Neg α]

/-- What holds of both zeros and is kept by additions holds of a sum if it holds of the lanes. -/
theorem Kernel.sum_induction (k : Kernel) (hadd : ∀ a b, P a → P b → P (a + b)) (hzero : P 0)
    (hneg : P (-0)) (hl : ∀ x ∈ l, P x) : P (k.sum l) := by
  cases k with
  | portable => exact foldl_add_induction hadd hl hneg
  | avx2 => exact sumGroups_induction hadd hl hzero hzero hzero hzero

/-- The padding holds zeros. -/
theorem Kernel.total_induction (k : Kernel) (hadd : ∀ a b, P a → P b → P (a + b)) (hzero : P 0)
    (hneg : P (-0)) (hl : ∀ x ∈ l, P x) : P (k.total (ofLanes l)) := by
  refine k.sum_induction hadd hzero hneg fun x hx => ?_
  rcases List.mem_append.mp hx with hx | hx
  · exact hl x hx
  · exact List.eq_of_mem_replicate hx ▸ hzero

end Induction

/-! ## Sums of products -/

section Products

variable [Add α] [Mul α]

/-- Products in groups of four are added like the lanes of the list of products. -/
theorem dotGroups_eq_sumGroups (s0 s1 s2 s3 : α) (l l' : List α) :
    dotGroups s0 s1 s2 s3 l l' = sumGroups s0 s1 s2 s3 (List.zipWith (· * ·) l l') := by
  induction s0, s1, s2, s3, l, l' using dotGroups.induct with
  | case1 s0 s1 s2 s3 x0 x1 x2 x3 l y0 y1 y2 y3 l' ih => exact ih
  | case2 s0 s1 s2 s3 l l' hshort =>
    -- there is a whole group of products only where both lists have one
    have hproducts : ∀ z0 z1 z2 z3 m, List.zipWith (· * ·) l l' = z0 :: z1 :: z2 :: z3 :: m →
        False := by
      intro z0 z1 z2 z3 m hm
      obtain ⟨x0, l, y0, l', rfl, rfl, -, hm⟩ := List.zipWith_eq_cons_iff.mp hm
      obtain ⟨x1, l, y1, l', rfl, rfl, -, hm⟩ := List.zipWith_eq_cons_iff.mp hm.symm
      obtain ⟨x2, l, y2, l', rfl, rfl, -, hm⟩ := List.zipWith_eq_cons_iff.mp hm.symm
      obtain ⟨x3, l, y3, l', rfl, rfl, -, hm⟩ := List.zipWith_eq_cons_iff.mp hm.symm
      exact hshort _ _ _ _ _ _ _ _ _ _ rfl rfl
    rw [dotGroups, sumGroups]
    · exact hproducts
    · exact hshort

variable [OfNat α 0] [Neg α]

/-- A kernel adds products as it adds lanes: each is rounded before it is added. -/
theorem Kernel.dot_eq_sum (k : Kernel) (l l' : List α) :
    k.dot l l' = k.sum (List.zipWith (· * ·) l l') := by
  cases k with
  | portable => rfl
  | avx2 => exact dotGroups_eq_sumGroups 0 0 0 0 l l'

/-- What the longer list has beyond the shorter one is not looked at. -/
theorem Kernel.dot_take (k : Kernel) (l l' : List α) :
    k.dot l l' = k.dot (l.take (min l.length l'.length)) (l'.take (min l.length l'.length)) := by
  rw [k.dot_eq_sum, k.dot_eq_sum, List.zipWith_eq_zipWith_take_min]

/-- Over padded storage, where the products of the padding are zeros like any padding, a sum of
products is the sum of a padded vector of products. -/
theorem Kernel.dot_storage (k : Kernel) (hzero : (0 : α) * 0 = 0) {l l' : List α}
    (h : l.length = l'.length) :
    k.dot (ofLanes l).storage (ofLanes l').storage = k.productSum l l' := by
  have hlen : (List.zipWith (· * ·) l l').length = l'.length := by
    rw [List.length_zipWith, h, Nat.min_self]
  unfold Kernel.productSum Kernel.total ofLanes
  rw [k.dot_eq_sum, List.zipWith_append h, h, hlen, List.zipWith_replicate', hzero]

end Products

/-! ## Sums in a ring -/

section Sum

variable [AddCommGroup α]

theorem foldl_add_eq (l : List α) (a : α) : l.foldl (· + ·) a = a + l.sum := by
  induction l generalizing a with
  | nil => rw [List.foldl_nil, List.sum_nil, add_zero]
  | cons x l ih => rw [List.foldl_cons, ih, List.sum_cons, add_assoc]

/-- Four partial sums in groups make one sum. -/
theorem sumGroups_eq (s0 s1 s2 s3 : α) (l : List α) :
    sumGroups s0 s1 s2 s3 l = s0 + s1 + s2 + s3 + l.sum := by
  induction s0, s1, s2, s3, l using sumGroups.induct with
  | case1 s0 s1 s2 s3 x0 x1 x2 x3 l ih =>
    rw [sumGroups, ih]
    simp only [List.sum_cons]
    abel
  | case2 s0 s1 s2 s3 l hshort =>
    rw [sumGroups, foldl_add_eq]
    · abel
    · exact hshort

theorem Kernel.sum_eq (k : Kernel) (l : List α) : k.sum l = l.sum := by
  cases k with
  | portable =>
    show l.foldl (· + ·) (-0) = l.sum
    rw [foldl_add_eq, neg_zero, zero_add]
  | avx2 =>
    show sumGroups 0 0 0 0 l = l.sum
    rw [sumGroups_eq, add_zero, add_zero, add_zero, zero_add]

/-- The padding adds nothing. -/
theorem Kernel.total_ofLanes (k : Kernel) (l : List α) : k.total (ofLanes l) = l.sum := by
  unfold Kernel.total ofLanes
  rw [k.sum_eq, List.sum_append, List.sum_replicate, nsmul_zero, add_zero]

end Sum

section Dot

variable [Ring α]

theorem Kernel.dot_eq (k : Kernel) (l l' : List α) : k.dot l l' = (List.zipWith (· * ·) l l').sum := by
  rw [k.dot_eq_sum, k.sum_eq]

/-- The products of the padding add nothing either. -/
theorem Kernel.dot_ofLanes (k : Kernel) {l l' : List α} (h : l.length = l'.length) :
    k.dot (ofLanes l).storage (ofLanes l').storage = (List.zipWith (· * ·) l l').sum := by
  rw [k.dot_storage (mul_zero 0) h]
  exact k.total_ofLanes _

theorem Kernel.innerProduct_ofLanes (k : Kernel) (l l' : List α) :
    k.innerProduct (ofLanes l) (ofLanes l') = if l.length = l'.length then
      .ok (List.zipWith (· * ·) l l').sum else .error (.lengthMismatch l.length l'.length) := by
  unfold Kernel.innerProduct
  rw [length_ofLanes, length_ofLanes]
  by_cases h : l.length = l'.length
  · rw [if_pos h, if_pos h, k.dot_ofLanes h]
  · rw [if_neg h, if_neg h]

end Dot

section Product

variable {n : ℕ}

theorem zipWith_ofFn (h : α → α → α) (f g : Fin n → α) :
    List.zipWith h (List.ofFn f) (List.ofFn g) = List.ofFn fun i => h (f i) (g i) := by
  apply List.ext_getElem
  · simp
  · intro i _ _
    simp

variable [Ring α]

theorem Kernel.productSum_ofFn (k : Kernel) (f g : Fin n → α) :
    k.productSum (List.ofFn f) (List.ofFn g) = f ⬝ᵥ g := by
  unfold Kernel.productSum
  rw [zipWith_ofFn, k.total_ofLanes, List.sum_ofFn]
  rfl

end Product

end CurveFit
