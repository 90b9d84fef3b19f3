import CurveFit.Proofs.Fit.Lockstep
import CurveFit.Proofs.Fit.Setup

/-!
# Solvers that have been used before

Two solvers are `Twins` when they are ready and differ in their buffers only.  With a model that
fills its slots twins are in lockstep, so that they give the same report (`Twins.lockstep`).  A used
solver that has been loaded with a series is a twin of a new solver for it, which is why nothing of
the calls before the loading shows up after it (`Solver.reload_forgets_history`).
-/

namespace CurveFit

open LaneVector

variable {α : Type} [OfNat α 0]

/-! ## Twins -/

/-- The solver with nothing in its buffers. -/
def Solver.withoutBuffers (s : Solver α) : Solver α :=
  { s with workspace := .setUp (ofLanes []) 0 [] }

/-- Ready solvers for a model that fills its slots, which differ in their buffers only. -/
structure Twins (s t : Solver α) : Prop where
  left : s.Ready
  right : t.Ready
  same : s.withoutBuffers = t.withoutBuffers
  fills : s.model.FillsSlots

variable {s t : Solver α}

/-- Twins share their data, and they are at the same point of their fit. -/
theorem Twins.shared (h : Twins s t) : s.SharesData t ∧ t.parameters = s.parameters ∧
    t.lambda = s.lambda ∧ t.trace = s.trace := by
  have hsame := h.same
  unfold Solver.withoutBuffers at hsame
  obtain ⟨h1, h2, h3, h4, h5, h6, _, h8, h9, h10⟩ := Solver.mk.inj hsame
  exact ⟨⟨⟨h1.symm, h2.symm, h3.symm, h4.symm, h5.symm⟩, h6.symm⟩, h8.symm, h9.symm, h10.symm⟩

/-! ## Loaded solvers and new ones -/

/-- A solver that was set up for the same task and has been loaded is a twin of a new solver. -/
theorem Solver.Ready.twins_loaded {u : VectorUnit} {model : Model α} {settings : Settings α}
    {x y₀ y init₀ initial : List α} (hs : s.Ready)
    (htask : (Solver.fresh u model x y₀ init₀ settings).SharesTask s) (hfill : model.FillsSlots)
    (hy : y.length = x.length) (hcount : initial.length = model.parameterCount) :
    Twins (s.loaded y initial) (Solver.fresh u model x y initial settings) := by
  obtain ⟨hunit, hmodel, hsettings, hsource, hx⟩ := htask
  have hlen : y.length = s.sourceLength := hy.trans hsource.symm
  have hparameters : initial.length = s.parameters.length := by
    rw [hs.counted, hmodel, hcount]
    rfl
  have hpoints : s.points = Solver.keptPoints u x := by
    unfold Solver.points
    rw [hx]
    exact Solver.points_fresh
  refine ⟨hs.loaded hlen hparameters, Solver.ready_fresh hy.symm hcount, ?_, ?_⟩
  · have hobserved : (s.loaded y initial).y = ofLanes (y.take (Solver.keptPoints u x)) := by
      rw [← hpoints]
      exact Solver.y_loaded hs hlen
    unfold Solver.withoutBuffers
    rw [hobserved]
    unfold Solver.loaded
    rw [hunit, hmodel, hsettings, hsource, hx]
    rfl
  · show s.model.FillsSlots
    rw [hmodel]
    exact hfill

/-! ## What twins find -/

section Attempt

variable [OfNat α 1] [Add α] [Sub α] [Mul α] [Div α] [Neg α] [BEq α]

/-- Rows that fill the buffer make what a pass finds independent of it. -/
theorem Solver.findWith_eq (hs : s.Ready) (hfill : s.model.FillsSlots) {b b' : List α}
    (hb : b.length = s.model.parameterCount) (hb' : b'.length = s.model.parameterCount) :
    s.findWith b = s.findWith b' := by
  refine findWith_congr rfl rfl (fun _ => rfl) fun f => ?_
  rw [trialFrom_eq hs.counted hfill hb, trialFrom_eq hs.counted hfill hb']

/-- **Twins** are in lockstep, whatever their rows of derivatives hold. -/
theorem Twins.lockstep (h : Twins s t) : Lockstep (fun _ _ => True) s t := by
  obtain ⟨hshared, hparameters, hlambda, htrace⟩ := h.shared
  refine
    { left := h.left
      right := h.right
      model := hshared.model
      settings := hshared.settings
      points := congrArg List.length hshared.x
      parameters := hparameters
      lambda := hlambda
      trace := htrace
      rows := trivial
      findings := ⟨fun values => (hshared.chi2At values).symm, ?_⟩ }
  intro values lambda b b' hvalues hb hb' _
  have hplaced : (s.placedAt values lambda).Ready := { h.left with counted := hvalues }
  have hsame :
      (s.placedAt values lambda).withoutBuffers = (t.placedAt values lambda).withoutBuffers :=
    congrArg (fun u => u.placedAt values lambda) h.same
  refine ⟨(Solver.findWith_eq hplaced h.fills hb hb').trans ?_, trivial⟩
  show (s.placedAt values lambda).withoutBuffers.findWith b' =
    (t.placedAt values lambda).withoutBuffers.findWith b'
  rw [hsame]

end Attempt

section Fit

variable [OfNat α 1] [OfNat α 10] [Add α] [Sub α] [Mul α] [Div α] [Neg α] [BEq α] [LE α]
  [DecidableLE α] [LT α] [DecidableLT α] [FitScalar α]

/-- Twins give the same report and end in lockstep. -/
theorem Twins.fit (h : Twins s t) :
    Agree (fun p q => p.1 = q.1 ∧ Lockstep (fun _ _ => True) p.2 q.2) s.fit t.fit :=
  h.lockstep.fit

end Fit

end CurveFit
