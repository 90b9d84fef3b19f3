import CurveFit.Fit.Dataset
import CurveFit.Proofs.Fit.Lockstep
import CurveFit.Proofs.Fit.Setup

/-!
# Fits of datasets

A fit of a dataset sets up a solver and runs it, over any numbers (`fitOn`).  Where two solvers start
in lockstep, or are refused for the same reason, the fits give the same answer (`fitOn_congr`).
-/

namespace CurveFit

variable {α : Type} [OfNat α 0] [OfNat α 1] [Add α] [Sub α] [Mul α] [Div α] [Neg α] [BEq α]

/-- Fresh solvers of as many points are in lockstep when they find the same. -/
theorem Lockstep.fresh {u u' : VectorUnit} {model : Model α} {x y x' y' initial : List α}
    {settings : Settings α} {R : List α → List α → Prop} (hR : ∀ b, R b b)
    (hlen : x.length = y.length) (hlen' : x'.length = y'.length)
    (hcount : initial.length = model.parameterCount)
    (hkept : Solver.keptPoints u' x' = Solver.keptPoints u x)
    (hfind : (Solver.fresh u model x y initial settings).Matches R
      (Solver.fresh u' model x' y' initial settings)) :
    Lockstep R (Solver.fresh u model x y initial settings)
      (Solver.fresh u' model x' y' initial settings) where
  left := Solver.ready_fresh hlen hcount
  right := Solver.ready_fresh hlen' hcount
  model := rfl
  settings := rfl
  points := by rw [Solver.points_fresh, Solver.points_fresh, hkept]
  parameters := rfl
  lambda := rfl
  trace := rfl
  rows := hR _
  findings := hfind

variable [LE α] [DecidableLE α] [FitScalar α]

/-- Units that may hold the points start in lockstep when their fresh solvers are. -/
theorem Solver.start_agree {u u' : VectorUnit} {model : Model α} {x y x' y' initial : List α}
    {settings : Settings α} {R : List α → List α → Prop} (hx : x'.length = x.length)
    (hy : y'.length = y.length)
    (hwithin : withinCapacity x.length u.capacity settings.truncateRatio)
    (hwithin' : withinCapacity x.length u'.capacity settings.truncateRatio)
    (hlock : x.length = y.length → initial.length = model.parameterCount →
      Lockstep R (fresh u model x y initial settings) (fresh u' model x' y' initial settings)) :
    Agree (Lockstep R) (start u model x y initial settings)
      (start u' model x' y' initial settings) := by
  have hempty : x'.isEmpty = x.isEmpty := by
    rw [Bool.eq_iff_iff, List.isEmpty_iff_length_eq_zero, List.isEmpty_iff_length_eq_zero, hx]
  rw [start_eq, start_eq, hx, hy, hempty, hwithin, hwithin']
  by_cases hlen : x.length = y.length
  · have hlen' : ¬ x.length ≠ y.length := fun h => h hlen
    rw [if_neg hlen', if_neg hlen']
    by_cases hcount : initial.length = model.parameterCount
    · have hcount' : ¬ initial.length ≠ model.parameterCount := fun h => h hcount
      rw [if_neg hcount', if_neg hcount']
      by_cases hnone : x.isEmpty
      · rw [if_pos hnone, if_pos hnone]
        exact .error _
      · rw [if_neg hnone, if_neg hnone]
        exact .ok (hlock hlen hcount)
    · rw [if_pos hcount, if_pos hcount]
      exact .error _
  · rw [if_pos hlen, if_pos hlen]
    exact .error _

variable [OfNat α 10] [LT α] [DecidableLT α]

/-- The report of a fit on a vector unit, over any numbers; `validate` refuses settings. -/
def fitOn (validate : Settings α → Except FitError Unit) (u : VectorUnit) (model : Model α)
    (x y initial : List α) (settings : Settings α) : Except Failure (FitReport α) := do
  let solver ← orRefused (do validate settings; Solver.start u model x y initial settings)
  let (report, _) ← orFaulted solver.fit
  pure report

/-- A fit on a backend is a fit over the binary64 numbers. -/
theorem fitWithBackend_eq (b : Backend) (model : Model Float) (x y initial : List Float)
    (settings : FitSettings) :
    fitWithBackend b model x y initial settings =
      fitOn FitSettings.validate b.unit model x y initial settings :=
  rfl

/-- Starts in lockstep end in one report. -/
theorem fitOn_congr {validate : Settings α → Except FitError Unit} {u u' : VectorUnit}
    {model : Model α} {x y x' y' initial : List α} {settings : Settings α}
    {R : List α → List α → Prop}
    (h : validate settings = .ok () →
      Agree (Lockstep R) (Solver.start u model x y initial settings)
        (Solver.start u' model x' y' initial settings)) :
    fitOn validate u model x y initial settings = fitOn validate u' model x' y' initial settings := by
  unfold fitOn orRefused orFaulted
  cases hvalid : validate settings with
  | error e => rfl
  | ok _ =>
    apply Agree.eq
    refine ((h hvalid).mapError Failure.refused).bind fun s t hlock => ?_
    refine (hlock.fit.mapError Failure.faulted).bind ?_
    rintro ⟨report, _⟩ ⟨_, _⟩ ⟨rfl, _⟩
    exact .ok rfl

end CurveFit
