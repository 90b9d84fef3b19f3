import CurveFit.Model.Shapes
import CurveFit.Proofs.Fit.Datasets
import CurveFit.Proofs.Lanes.Sums
import Mathlib.Algebra.Order.Field.Basic
import Mathlib.Algebra.Order.Field.Rat
import Mathlib.Algebra.BigOperators.Group.List.Basic

/-!
# Fits in exact arithmetic

The kernels add in different orders, and so do fits of the same points in different orders.  In exact
arithmetic all of them find the same sums, so the solvers run in lockstep, and every backend that
holds all points gives one report for them in any order (`fitOn_agrees`).
-/

namespace CurveFit

open LaneVector

variable {α : Type}

/-! ## Sums that do not depend on kernel or order -/

section Sums

variable [Ring α]

theorem Kernel.productSum_eq_sum (k : Kernel) (a b : List α) :
    k.productSum a b = (List.zipWith (· * ·) a b).sum :=
  k.total_ofLanes _

theorem Kernel.productSum_map {β : Type} (k : Kernel) (points : List β) (f g : β → α) :
    k.productSum (points.map f) (points.map g) = (points.map fun p => f p * g p).sum := by
  rw [k.productSum_eq_sum, List.zipWith_map, List.zipWith_self]

/-- Neither the kernel nor the order of the points has a say in a sum of products. -/
theorem Kernel.productSum_perm {β : Type} (k k' : Kernel) {points points' : List β}
    (h : points.Perm points') (f g : β → α) :
    k.productSum (points.map f) (points.map g) = k'.productSum (points'.map f) (points'.map g) := by
  rw [k.productSum_map, k'.productSum_map]
  exact (h.map _).sum_eq

end Sums

/-! ## Solvers that find the same -/

namespace Solver

variable [Field α]

/-- The unit has no say in what a solver finds. -/
theorem matches_unit [BEq α] (s : Solver α) (u : VectorUnit) : s.Matches Eq { s with unit := u } := by
  have hsum : ∀ a b : List α, s.unit.kernel.productSum a b = u.kernel.productSum a b := by
    intro a b
    rw [Kernel.productSum_eq_sum, Kernel.productSum_eq_sum]
  refine ⟨fun values => congrArg (Except.map · _) (funext fun f => hsum _ _), ?_⟩
  rintro values lambda b _ - - - rfl
  refine ⟨findWith_congr rfl rfl (fun f => hsum _ _) fun f => ?_, rfl⟩
  show (do
    let d ← s.model.slopes values
    let rows ← derivativeRows d b s.x
    pure (List.zipWith (· + ·) values
      (s.unit.kernel.increment lambda (slotLanes rows) (s.misses f) s.model.parameterCount))) = _
  simp only [Kernel.increment_congr (fun _ _ _ _ => hsum _ _) fun _ _ => hsum _ _]
  rfl

/-- The points that a solver fits. -/
def Holds (s : Solver α) (points : List (α × α)) : Prop :=
  s.x = points.map Prod.fst ∧ s.y = ofLanes (points.map Prod.snd)

variable {s t : Solver α} {points points' : List (α × α)}

theorem Holds.misses (h : s.Holds points) (f : α → α) :
    s.misses f = points.map fun p => p.2 - f p.1 := by
  obtain ⟨hx, hy⟩ := h
  unfold Solver.misses
  rw [hx, hy, lanes_ofLanes, List.map_map, List.zipWith_map, List.zipWith_self]
  rfl

/-- The order of the points has no say in what a solver finds when its model fills its slots. -/
theorem matches_perm [BEq α] (hs : s.Holds points) (ht : t.Holds points')
    (hperm : points.Perm points') (hmodel : t.model = s.model) (hfill : s.model.FillsSlots) :
    s.Matches (fun _ _ => True) t := by
  have hchi2 : ∀ f, s.chi2Of f = t.chi2Of f := by
    intro f
    unfold chi2Of
    rw [hs.misses, ht.misses]
    exact Kernel.productSum_perm _ _ hperm _ _
  refine ⟨fun values => ?_, ?_⟩
  · unfold chi2At
    rw [hmodel, funext hchi2]
  intro values lambda b b' hvalues hb hb' _
  refine ⟨findWith_congr hmodel rfl hchi2 fun f => ?_, trivial⟩
  have hincrement : ∀ d : α → List α,
      s.unit.kernel.increment lambda (slotLanes (s.x.map d)) (s.misses f) s.model.parameterCount =
        t.unit.kernel.increment lambda (slotLanes (t.x.map d)) (t.misses f)
          t.model.parameterCount := by
    intro d
    unfold slotLanes
    rw [hs.misses, ht.misses, hs.1, ht.1, hmodel]
    simp only [List.map_map]
    exact Kernel.increment_congr (fun _ _ _ _ => Kernel.productSum_perm _ _ hperm _ _)
      (fun _ _ => Kernel.productSum_perm _ _ hperm _ _) _
  have hleft := trialFrom_eq (s := s.placedAt values lambda) hvalues hfill hb
  rw [← hmodel] at hfill hvalues hb'
  have hright := trialFrom_eq (s := t.placedAt values lambda) hvalues hfill hb'
  rw [hleft, hright]
  show (s.model.slopes values).map _ = (t.model.slopes values).map _
  rw [hmodel]
  exact congrArg (Except.map · _) (funext fun d => congrArg (List.zipWith _ values) (hincrement d))

variable [LinearOrder α] {u u' : VectorUnit} {model : Model α}
  {x y initial : List α} {settings : Settings α}

/-- Units that hold all points run in lockstep. -/
theorem lockstep_units (hu : x.length ≤ u.capacity) (hu' : x.length ≤ u'.capacity)
    (hlen : x.length = y.length) (hcount : initial.length = model.parameterCount) :
    Lockstep Eq (fresh u model x y initial settings) (fresh u' model x y initial settings) := by
  have hkept : keptPoints u' x = keptPoints u x := by
    unfold keptPoints
    rw [Nat.min_eq_left hu, Nat.min_eq_left hu']
  have hsame : fresh u' model x y initial settings =
      { fresh u model x y initial settings with unit := u' } := by
    unfold fresh
    rw [hkept]
  exact .fresh (fun _ => rfl) hlen hlen hcount hkept (hsame ▸ matches_unit _ u')

/-- So do fits of the same points in two orders. -/
theorem lockstep_perm (hperm : points.Perm points') (hfill : model.FillsSlots)
    (hu : points.length ≤ u.capacity) (hcount : initial.length = model.parameterCount) :
    Lockstep (fun _ _ => True)
      (fresh u model (points.map Prod.fst) (points.map Prod.snd) initial settings)
      (fresh u model (points'.map Prod.fst) (points'.map Prod.snd) initial settings) := by
  have hholds : ∀ points : List (α × α), points.length ≤ u.capacity →
      (fresh u model (points.map Prod.fst) (points.map Prod.snd) initial settings).Holds points := by
    intro points hu
    unfold Holds fresh keptPoints
    rw [List.length_map, Nat.min_eq_left hu]
    constructor
    · exact List.take_of_length_le (Nat.le_of_eq (List.length_map ..))
    · exact congrArg ofLanes (List.take_of_length_le (Nat.le_of_eq (List.length_map ..)))
  have hlength := hperm.length_eq
  refine .fresh (fun _ => trivial) (by simp) (by simp) hcount ?_
    (matches_perm (hholds points hu) (hholds points' (hlength ▸ hu)) hperm rfl hfill)
  unfold keptPoints
  rw [List.length_map, List.length_map, hlength]

end Solver

/-! ## Backends and orders -/

section Field

variable [Field α] [LinearOrder α] [IsStrictOrderedRing α] [FitScalar α]

/-- A capacity that holds all points is within any tolerance. -/
theorem withinCapacity_of_le (hcount : ∀ n, FitScalar.ofCount n = (n : α)) {n capacity : ℕ}
    (h : n ≤ capacity) {ratio : α} (hratio : 0 ≤ ratio) : withinCapacity n capacity ratio := by
  unfold withinCapacity
  rw [decide_eq_true_iff, hcount, hcount]
  have hone : 1 ≤ 1 + ratio := le_add_of_nonneg_right hratio
  calc (n : α) ≤ capacity := Nat.cast_le.mpr h
    _ = capacity * 1 := (mul_one _).symm
    _ ≤ capacity * (1 + ratio) := mul_le_mul_of_nonneg_left hone (Nat.cast_nonneg _)

variable {validate : Settings α → Except FitError Unit}

/-- **In exact arithmetic** all backends that hold every point give one report, and for a model that
fills its slots they give it for the points in any order.  To fill its slots is what a model owes the
solver: its derivative closure is handed the row of the point before and has to write all of it.  Where
it leaves a slot out, the order of the points says which derivative stays there. -/
theorem fitOn_agrees (hcount : ∀ n, FitScalar.ofCount n = (n : α))
    (hvalid : ∀ settings, validate settings = .ok () → 0 ≤ settings.truncateRatio)
    (b b' : Backend) (model : Model α) (initial : List α) (settings : Settings α) :
    (∀ x y : List α, x.length ≤ b.capacity → x.length ≤ b'.capacity →
      fitOn validate b.unit model x y initial settings =
        fitOn validate b'.unit model x y initial settings) ∧
    (model.FillsSlots → ∀ points points' : List (α × α), points.Perm points' →
      points.length ≤ b.capacity →
      fitOn validate b.unit model (points.map Prod.fst) (points.map Prod.snd) initial settings =
        fitOn validate b.unit model (points'.map Prod.fst) (points'.map Prod.snd) initial
          settings) := by
  refine ⟨fun x y hb hb' => fitOn_congr (R := Eq) fun hsettings => ?_,
    fun hfill points points' hperm hb => fitOn_congr (R := fun _ _ => True) fun hsettings => ?_⟩
  · have hratio := hvalid settings hsettings
    exact Solver.start_agree rfl rfl (withinCapacity_of_le hcount hb hratio)
      (withinCapacity_of_le hcount hb' hratio) fun hlen hparameters =>
        Solver.lockstep_units hb hb' hlen hparameters
  · have hwithin : withinCapacity (points.map Prod.fst).length b.unit.capacity
        settings.truncateRatio :=
      withinCapacity_of_le hcount (by rwa [List.length_map]) (hvalid settings hsettings)
    have hlength := hperm.length_eq
    exact Solver.start_agree (by simp [hlength]) (by simp [hlength]) hwithin hwithin
      fun _ hparameters => Solver.lockstep_perm hperm hfill hb hparameters

end Field

/-- The rational numbers, all of which count as numbers. -/
instance : FitScalar ℚ where
  isFinite _ := true
  abs q := |q|
  round q := if 0 ≤ q then (q + 1 / 2).floor else (q - 1 / 2).ceil
  ofCount n := n
  lambdaFloor := 1 / 2 ^ 1022
  positiveFloor := 1 / 10 ^ 10

/-- A line through three points, in two orders and on two backends. -/
theorem fitOn_agrees_line :
    let validate : Settings ℚ → Except FitError Unit := fun s =>
      if 0 ≤ s.truncateRatio then .ok () else .error (.unsupported "a negative ratio")
    let model : Model ℚ := .polynomial [0, 1] [.nonNegative]
    let points : List (ℚ × ℚ) := [(1, 2), (2, 1), (3, 5)]
    let points' : List (ℚ × ℚ) := [(3, 5), (1, 2), (2, 1)]
    let settings : Settings ℚ := ⟨2, 0, 1 / 1000, true, 0, true⟩
    let fit := fun (b : Backend) (points : List (ℚ × ℚ)) =>
      fitOn validate b.unit model (points.map Prod.fst) (points.map Prod.snd) [0, 1] settings
    ∃ report, fit .portable points = .ok report ∧ fit .accelerated1024 points = .ok report ∧
      fit .accelerated1024 points' = .ok report := by
  intro validate model points points' settings fit
  have hvalid : ∀ s, validate s = .ok () → 0 ≤ s.truncateRatio := by
    intro s h
    by_contra hneg
    rw [show validate s = .error _ from if_neg hneg] at h
    cases h
  have hfill : model.FillsSlots := Model.polynomial_fillsSlots _ _
  obtain ⟨report, hreport⟩ : ∃ r, fit .portable points = .ok r :=
    exists_of_isOk (by decide +kernel)
  obtain ⟨hunits, -⟩ :=
    fitOn_agrees (fun _ => rfl) hvalid .portable .accelerated1024 model [0, 1] settings
  obtain ⟨-, horders⟩ :=
    fitOn_agrees (fun _ => rfl) hvalid .accelerated1024 .accelerated1024 model [0, 1] settings
  have hunit : fit .portable points = fit .accelerated1024 points :=
    hunits _ _ (by decide +kernel) (by decide +kernel)
  have horder : fit .accelerated1024 points = fit .accelerated1024 points' :=
    horders hfill points points' (by decide) (by decide +kernel)
  exact ⟨report, hreport, hunit ▸ hreport, horder ▸ hunit ▸ hreport⟩

end CurveFit
