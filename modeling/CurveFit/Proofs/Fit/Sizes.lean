import CurveFit.Proofs.Fit.Answers
import CurveFit.Proofs.Fit.History
import CurveFit.Proofs.Fit.Points

/-!
# Sizes along the life of a solver

Passes compare the lengths of the vectors they work on, look into the matrix of the normal equations,
and fault where something does not fit.  A solver is `Sized` when every buffer has the size that the
points and the parameters ask for; ready solvers are (`Solver.Ready.sized`), and with a model that
answers they serve any calls without a fault (`Solver.Ready.exists_serve`).  For every dataset within
the gate this holds from the set-up on: `Solver.serve_sized`.
-/

namespace CurveFit

open LaneVector

variable {α : Type}

/-! ## Sizes -/

/-- The vectors of a solver: its observations and the vectors of its workspace. -/
def Solver.vectors (s : Solver α) : List (LaneVector α) :=
  s.y :: s.workspace.estimate :: s.workspace.residual :: s.workspace.scratch :: s.workspace.columns

/-- The buffers of a solver have the sizes that `n` points and `p` parameters ask for. -/
structure Solver.Sized (s : Solver α) (n p : ℕ) : Prop where
  x : s.x.length = n
  vectors : ∀ v ∈ s.vectors, v.length = n ∧ v.storage.length = paddedLength n
  columns : s.workspace.columns.length = p
  matrix : s.workspace.matrix.rows = p ∧ s.workspace.matrix.cols = p
  gradient : s.workspace.gradient.length = p
  row : s.workspace.row.length = p
  trial : s.workspace.trial.length = p
  parameters : s.parameters.length = p

variable [OfNat α 0]

theorem LaneVector.HasLanes.sizes {v : LaneVector α} {n : ℕ} (hv : v.HasLanes n) :
    v.length = n ∧ v.storage.length = paddedLength n := by
  obtain ⟨xs, rfl, rfl⟩ := hv
  exact ⟨length_ofLanes xs, length_storage_ofLanes xs⟩

/-- What makes a solver ready fixes all sizes. -/
theorem Solver.Ready.sized {s : Solver α} (hs : s.Ready) :
    s.Sized s.points s.model.parameterCount := by
  obtain ⟨col, hcol, hcolumns⟩ := hs.fits.columns
  refine
    { x := rfl
      vectors := ?vectors
      columns := ?columns
      matrix := ⟨hs.fits.rows, hs.fits.cols⟩
      gradient := hs.fits.gradient
      row := hs.fits.row
      trial := hs.fits.trial
      parameters := hs.counted }
  case vectors =>
    intro v hv
    simp only [Solver.vectors, List.mem_cons] at hv
    rcases hv with rfl | rfl | rfl | rfl | hv
    · exact hs.observed.sizes
    · exact hs.fits.estimate.sizes
    · exact hs.fits.residual.sizes
    · exact hs.fits.scratch.sizes
    · rw [hcolumns] at hv
      obtain ⟨j, hj, rfl⟩ := List.mem_map.mp hv
      exact (HasLanes.of_length (hcol j (List.mem_range.mp hj))).sizes
  case columns => rw [hcolumns, List.length_map, List.length_range]

/-! ## Calls without a fault -/

section Serve

variable [OfNat α 1] [OfNat α 10] [Add α] [Sub α] [Mul α] [Div α] [Neg α] [BEq α] [LE α]
  [DecidableLE α] [LT α] [DecidableLT α] [FitScalar α] {s : Solver α}

/-- A ready solver for a model that answers serves any calls. -/
theorem Solver.Ready.exists_serve (hs : s.Ready) (hm : s.model.Answers) (calls : List (Call α)) :
    ∃ reports t, s.serve calls = .ok (reports, t) := by
  induction calls generalizing s with
  | nil => exact ⟨[], s, rfl⟩
  | cons call calls ih =>
    cases call with
    | fit =>
      obtain ⟨report, s', hfit⟩ := hs.exists_fit hm
      obtain ⟨hready, hshares⟩ := hs.fit hfit
      obtain ⟨reports, t, hserve⟩ := ih hready (hshares.model ▸ hm)
      refine ⟨report :: reports, t, ?_⟩
      show (s.fit >>= _) = _
      rw [hfit]
      show (s'.serve calls >>= _) = _
      rw [hserve]
      rfl
    | reload y initial =>
      unfold Solver.serve
      cases hload : s.reload y initial with
      | error e => exact ih hs hm
      | ok s' =>
        obtain ⟨hlen, hcount, rfl⟩ := reload_eq_ok_iff.mp hload
        exact ih (hs.loaded hlen hcount) hm

end Serve

section Binary64

variable {u : VectorUnit} {model : Model Float} {x y initial : List Float} {settings : FitSettings}

/-- **No call faults.**  A dataset within the gate sets up a solver, and with a model that answers
the solver serves any sequence of calls, refused ones among them.  Whenever it is called, and at the
start of every pass of a fit, all its buffers have the sizes that the points kept and the parameters
ask for. -/
theorem Solver.serve_sized (hanswers : model.Answers) (hvalid : settings.issue? = none)
    (hlen : x.length = y.length) (hempty : x ≠ [])
    (hgate : withinCapacity x.length u.capacity settings.truncateRatio)
    (hcount : initial.length = model.parameterCount) :
    ∃ s₀, Solver.new u model x y initial settings = .ok s₀ ∧
      ∀ calls, ∃ reports s, s₀.serve calls = .ok (reports, s) ∧
        min x.length u.capacity ≤ u.capacity ∧
        s.Sized (min x.length u.capacity) model.parameterCount ∧
        ∀ budget visits t ending, Trail s 0 budget visits t ending → ∀ v ∈ visits,
          v.solver.Sized (min x.length u.capacity) model.parameterCount := by
  refine ⟨_, new_eq_fresh hvalid hlen hcount hempty hgate, fun calls => ?_⟩
  have hfresh : (Solver.fresh u model x y initial settings).Ready := ready_fresh hlen hcount
  obtain ⟨reports, s, hserve⟩ := hfresh.exists_serve hanswers calls
  obtain ⟨hs, htask⟩ := hfresh.serve hserve
  have hsized : ∀ t : Solver Float, t.Ready → s.SharesTask t →
      t.Sized (min x.length u.capacity) model.parameterCount := by
    intro t ht hshares
    have htask := htask.trans hshares
    have hmodel : t.model = model := htask.model
    have hpoints : t.points = min x.length u.capacity := by
      rw [ht.points, htask.sourceLength, htask.unit]
      rfl
    rw [← hmodel, ← hpoints]
    exact ht.sized
  refine ⟨reports, s, hserve, Nat.min_le_right _ _, hsized s hs (.refl s), ?_⟩
  intro budget visits t ending htrail v hv
  obtain ⟨hready, hshares, -⟩ := htrail.visited hs v hv
  exact hsized v.solver hready hshares.toSharesTask

/-- Five points on a unit of four lanes: one point is dropped, and a series that is too short is
refused between two fits. -/
theorem Solver.serve_sized_cut :
    let model : Model Float := .polynomial [0.0, 1.0] [.positive]
    let x : List Float := [1.0, 2.0, 3.0, 4.0, 5.0]
    let settings := { FitSettings.default with truncateRatio := 0.5 }
    ∃ s₀, Solver.new ⟨.avx2, 4⟩ model x [2.0, 1.0, 0.0, 1.0, 2.0] [0.5, 1.0] settings = .ok s₀ ∧
      ∃ reports s, s₀.serve [.fit, .reload [1.0] [], .fit, .reload x [0.0, 1.0]] = .ok (reports, s) ∧
        s.Sized 4 2 := by
  intro model x settings
  have hanswers : model.Answers := Model.polynomial_answers _ _
  have hvalid : settings.issue? = none := by decide +kernel
  have hlen : x.length = ([2.0, 1.0, 0.0, 1.0, 2.0] : List Float).length := by decide +kernel
  have hgate : withinCapacity x.length (VectorUnit.mk .avx2 4).capacity settings.truncateRatio := by
    decide +kernel
  have hcount : ([0.5, 1.0] : List Float).length = model.parameterCount := by decide +kernel
  obtain ⟨s₀, hnew, hserves⟩ :=
    Solver.serve_sized hanswers hvalid hlen (List.cons_ne_nil _ _) hgate hcount
  obtain ⟨reports, s, hserve, -, hsized, -⟩ :=
    hserves [.fit, .reload [1.0] [], .fit, .reload x [0.0, 1.0]]
  exact ⟨s₀, hnew, reports, s, hserve, hsized⟩

end Binary64

end CurveFit
