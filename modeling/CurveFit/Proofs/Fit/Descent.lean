import CurveFit.Proofs.Fit.Ready
import CurveFit.Proofs.Lanes.Sums
import CurveFit.Proofs.Linear.Gram
import Mathlib.Algebra.Order.Field.Basic
import Mathlib.Algebra.Order.Field.Rat

/-!
# The increment is a descent direction

In exact arithmetic the system that a workspace solves has the entries of `dampedGram` and the
right-hand side `Dᵀ *ᵥ r`, so solving it without pivoting loses no equation, and the increment points
where the sum of squares falls (`Workspace.solve_descends`).
-/

namespace CurveFit

open LaneVector Matrix

/-! ## Lanes of a matrix -/

section Lanes

variable {α : Type} {n p : ℕ}

/-- Column `j` of the derivatives as lanes. -/
def columnLanes (D : Matrix (Fin n) (Fin p) α) (j : ℕ) : List α :=
  if h : j < p then List.ofFn fun i => D i ⟨j, h⟩ else []

theorem columnLanes_eq (D : Matrix (Fin n) (Fin p) α) (j : Fin p) :
    columnLanes D j = List.ofFn fun i => D i j :=
  dif_pos j.isLt

theorem length_columnLanes (D : Matrix (Fin n) (Fin p) α) {j : ℕ} (hj : j < p) :
    (columnLanes D j).length = n := by
  rw [columnLanes_eq D ⟨j, hj⟩, List.length_ofFn]

theorem ofFn_eq_map_range {β : Type} (f : Fin p → β) (g : ℕ → β) (h : ∀ j : Fin p, g j = f j) :
    List.ofFn f = (List.range p).map g := by
  apply List.ext_getElem
  · simp
  · intro j hj _
    rw [List.getElem_ofFn, List.getElem_map, List.getElem_range]
    exact (h ⟨j, by rwa [List.length_ofFn] at hj⟩).symm

end Lanes

variable {α : Type} [Field α] {n p : ℕ}

/-! ## The entries -/

section Entries

variable {D : Matrix (Fin n) (Fin p) α} {lambda : α} {k : Kernel}

theorem dampedEntry_columnLanes (i j : Fin p) :
    k.dampedEntry lambda (columnLanes D) i j = dampedGram D lambda i j := by
  have hentry : ∀ a b : Fin p, k.productSum (columnLanes D a) (columnLanes D b) = (Dᵀ * D) a b := by
    intro a b
    rw [columnLanes_eq, columnLanes_eq, k.productSum_ofFn]
    rfl
  unfold Kernel.dampedEntry dampedGram
  rcases le_total i j with hij | hij
  · have hmin : min (i : ℕ) j = i := min_eq_left hij
    have hmax : max (i : ℕ) j = j := max_eq_right hij
    simp only [hmin, hmax, hentry, Fin.ext_iff]
  · have hmin : min (i : ℕ) j = j := min_eq_right hij
    have hmax : max (i : ℕ) j = i := max_eq_left hij
    have hsymm : (Dᵀ * D) j i = (Dᵀ * D) i j := by
      show ∑ t, D t j * D t i = ∑ t, D t i * D t j
      exact Finset.sum_congr rfl fun t _ => mul_comm _ _
    simp only [hmin, hmax, hentry, hsymm, Fin.ext_iff]

theorem gradientList_columnLanes (r : Fin n → α) :
    k.gradientList (List.ofFn r) (columnLanes D) p = List.ofFn (Dᵀ *ᵥ r) := by
  refine (ofFn_eq_map_range _ _ fun j => ?_).symm
  rw [columnLanes_eq, k.productSum_ofFn, dotProduct_comm]
  rfl

omit [Field α] in
theorem toList_eq_ofFn_get (v : Vector α p) : v.toList = List.ofFn v.get := by
  apply List.ext_getElem
  · simp
  · intro i _ _
    simp [Vector.get]

variable [DecidableEq α]

/-- A list of `p` numbers and entries make a system of `p` equations. -/
theorem exists_ofEntries (f : ℕ → ℕ → α) {rhs : List α} {b : Fin p → α} (h : rhs = List.ofFn b) :
    ∃ s : SquareSystem α p, (∀ i j, s.coeff i j = f i j) ∧ s.target = b ∧
      (SquareSystem.ofEntries f rhs).solve.unknowns.toList = List.ofFn s.solve.unknowns.get ∧
      (SquareSystem.ofEntries f rhs).solve.zeroPivots = s.solve.zeroPivots := by
  have hlen : rhs.length = p := by rw [h, List.length_ofFn]
  subst hlen
  refine ⟨.ofEntries f rhs, fun i j => ?_, ?_, toList_eq_ofFn_get _, rfl⟩
  · unfold SquareSystem.coeff SquareSystem.ofEntries
    rw [get_ofFn, get_ofFn]
  · funext i
    have hi : rhs[(i : ℕ)]? = (List.ofFn b)[(i : ℕ)]? := congrArg (·[(i : ℕ)]?) h
    rw [List.getElem?_eq_getElem i.isLt, List.getElem?_ofFn, dif_pos i.isLt] at hi
    exact Option.some.inj hi

/-- **The system of a pass**, which both kernels solve. -/
theorem Kernel.exists_normalSystem (k : Kernel) (D : Matrix (Fin n) (Fin p) α) (r : Fin n → α)
    (lambda : α) : ∃ s : SquareSystem α p, s.coeff = dampedGram D lambda ∧ s.target = Dᵀ *ᵥ r ∧
      k.increment lambda (columnLanes D) (List.ofFn r) p = List.ofFn s.solve.unknowns.get ∧
      (k.normalSystem lambda (columnLanes D) (List.ofFn r) p).solve.zeroPivots =
        s.solve.zeroPivots := by
  obtain ⟨s, hentries, htarget, hsolved⟩ :=
    exists_ofEntries (k.dampedEntry lambda (columnLanes D)) (gradientList_columnLanes (k := k) r)
  refine ⟨s, ?_, htarget, hsolved⟩
  ext i j
  rw [hentries, dampedEntry_columnLanes]

end Entries

/-! ## The step -/

variable [LinearOrder α] [IsStrictOrderedRing α]

/-- **Descent.**  Whatever the buffers held, the increment solves all damped normal equations, a
pivot is zero for each parameter that no point depends on and for no other, such a parameter stays,
and unless the right-hand side is zero the increment makes a positive product with it. -/
theorem Workspace.solve_descends (k : Kernel) (D : Matrix (Fin n) (Fin p) α) (r : Fin n → α)
    {lambda : α} (hlambda : 0 < lambda) {w : Workspace α} (hw : w.Fits n p)
    (hcolumns : w.columns = List.ofFn fun j => ofLanes (List.ofFn fun i => D i j))
    (hresidual : w.residual = ofLanes (List.ofFn r)) :
    ∃ w' zeros δ, (do let assembled ← w.assemble k lambda; assembled.solve) = .ok (w', zeros) ∧
      w'.gradient = List.ofFn δ ∧
      dampedGram D lambda *ᵥ δ = Dᵀ *ᵥ r ∧
      zeros = (idleColumns D).card ∧
      (∀ j ∈ idleColumns D, δ j = 0) ∧
      (Dᵀ *ᵥ r ≠ 0 → 0 < δ ⬝ᵥ (Dᵀ *ᵥ r)) := by
  have hlanes : w.columns = (List.range p).map fun j => ofLanes (columnLanes D j) := by
    rw [hcolumns]
    exact ofFn_eq_map_range _ _ fun j => by rw [columnLanes_eq]
  obtain ⟨w₁, scratch, matrix, hassemble, -, -, -, hsolve⟩ :=
    w.solve_assembled k lambda (List.length_ofFn (f := r)) (fun j hj => length_columnLanes D hj)
      hw.scratch hw.rows hw.cols hresidual hw.gradient hlanes
  obtain ⟨s, hcoeff, htarget, hincrement, hzeros⟩ := k.exists_normalSystem D r lambda
  have hdefinite := definiteFrom_dampedGram hlambda hcoeff htarget
  obtain ⟨hequations, hidle, hcount⟩ := hdefinite.solve
  have hrun := (congrArg (· >>= Workspace.solve) hassemble).trans hsolve
  refine ⟨_, _, s.solve.unknowns.get, hrun, hincrement, ?equations, hzeros.trans hcount, hidle, ?pos⟩
  case equations => rw [← hcoeff, hequations, htarget]
  case pos =>
    intro hne
    rw [← htarget] at hne ⊢
    exact hdefinite.target_pos hequations hidle hne

/-- Two points and a second parameter that neither of them depends on. -/
theorem Workspace.solve_descends_idle_parameter :
    let D : Matrix (Fin 2) (Fin 2) ℚ := Matrix.of ![![1, 0], ![2, 0]]
    let w : Workspace ℚ :=
      { Workspace.setUp (ofLanes [0, 0]) 2 [0, 0] with
        columns := List.ofFn fun j => ofLanes (List.ofFn fun i => D i j)
        residual := ofLanes [1, 1] }
    ∃ w' δ, (do let assembled ← w.assemble .avx2 (1 / 2); assembled.solve) = .ok (w', 1) ∧
      w'.gradient = List.ofFn δ ∧ dampedGram D (1 / 2) *ᵥ δ = ![3, 0] ∧ δ 1 = 0 ∧
      0 < δ ⬝ᵥ ![3, 0] := by
  intro D w
  have hblank : (Workspace.setUp (ofLanes (List.replicate 2 (0 : ℚ))) 2 [0, 0]).Fits 2 2 :=
    Workspace.setUp_fits rfl
  have hw : w.Fits 2 2 :=
    { hblank with
      residual := ⟨[1, 1], rfl, rfl⟩
      columns := ⟨columnLanes D, fun _ hj => length_columnLanes D hj,
        ofFn_eq_map_range _ _ fun j => by rw [columnLanes_eq]⟩ }
  have hproduct : Dᵀ *ᵥ ![1, 1] = ![3, 0] := by decide +kernel
  have hidle : idleColumns D = {1} := by decide +kernel
  obtain ⟨w', zeros, δ, hrun, hgradient, hequations, hzeros, hstay, hpos⟩ :=
    Workspace.solve_descends .avx2 D ![1, 1] one_half_pos hw rfl rfl
  rw [hproduct] at hequations hpos
  rw [hidle] at hzeros hstay
  subst hzeros
  refine ⟨w', δ, hrun, hgradient, hequations, hstay 1 (Finset.mem_singleton_self 1), hpos ?_⟩
  decide +kernel

end CurveFit
