import CurveFit.Proofs.Fit.Passes

/-!
# Solvers in lockstep

Two solvers are in `Lockstep` when they are at the same point of their fit and find the same
wherever they are placed, as long as their rows of derivatives are related.  A pass then leaves them
in lockstep, so that they give the same report (`Lockstep.fit`).  The relation between the rows is a
parameter: solvers over the same points have equal rows, and a model that fills its slots lets the
rows be anything.
-/

namespace CurveFit

variable {α : Type} [OfNat α 0]

/-- The solver placed at other parameters and with other damping. -/
def Solver.placedAt (s : Solver α) (values : List α) (lambda : α) : Solver α :=
  { s with parameters := values, lambda := lambda }

section Attempt

variable [OfNat α 1] [Add α] [Sub α] [Mul α] [Div α] [Neg α] [BEq α]

/-- Wherever they are placed, two solvers with related rows find the same and leave related rows. -/
structure Solver.Matches (R : List α → List α → Prop) (s t : Solver α) : Prop where
  chi2 : ∀ values, s.chi2At values = t.chi2At values
  find : ∀ values lambda b b', values.length = s.model.parameterCount →
    b.length = s.model.parameterCount → b'.length = s.model.parameterCount → R b b' →
    (s.placedAt values lambda).findWith b = (t.placedAt values lambda).findWith b' ∧
      R ((s.placedAt values lambda).rowAfter b) ((t.placedAt values lambda).rowAfter b')

/-- Ready solvers at the same point of their fit that find the same from there on. -/
structure Lockstep (R : List α → List α → Prop) (s t : Solver α) : Prop where
  left : s.Ready
  right : t.Ready
  model : t.model = s.model
  settings : t.settings = s.settings
  points : t.points = s.points
  parameters : t.parameters = s.parameters
  lambda : t.lambda = s.lambda
  trace : t.trace = s.trace
  rows : R s.workspace.row t.workspace.row
  findings : s.Matches R t

namespace Lockstep

variable {R : List α → List α → Prop} {s t : Solver α}

/-- Solvers in lockstep find the same. -/
theorem attempt (h : Lockstep R s t) :
    Agree (fun p q => p.1 = q.1 ∧ p.1.trial.length = s.model.parameterCount ∧
        p.2.Fits s.points s.model.parameterCount ∧ q.2.Fits t.points t.model.parameterCount ∧
          R p.2.row q.2.row)
      s.attempt t.attempt := by
  obtain ⟨w, hw, hrow, hs⟩ := Solver.attempt_eq h.left
  obtain ⟨w', hw', hrow', ht⟩ := Solver.attempt_eq h.right
  have hrows : t.workspace.row.length = s.model.parameterCount := by
    rw [← h.model]
    exact h.right.fits.row
  obtain ⟨hfind, hafter⟩ := h.findings.find s.parameters s.lambda _ _ h.left.counted
    h.left.fits.row hrows h.rows
  have hplaced : t.placedAt s.parameters s.lambda = t := by
    rw [← h.parameters, ← h.lambda]
    rfl
  rw [hplaced] at hfind hafter
  have hfind : s.findWith s.workspace.row = t.findWith t.workspace.row := hfind
  rw [hs, ht, ← hfind]
  cases ha : s.findWith s.workspace.row with
  | error e => exact .error e
  | ok a =>
    refine .ok ⟨rfl, (Solver.findWith_ok h.left ha).2.1, hw, hw', ?_⟩
    rw [hrow, hrow']
    exact hafter

/-- They have the same sum of squares. -/
theorem chiSquared (h : Lockstep R s t) :
    Agree (fun p q => p.1 = q.1 ∧ p.2.Fits s.points s.model.parameterCount ∧
        q.2.Fits t.points t.model.parameterCount ∧
          p.2.row = s.workspace.row ∧ q.2.row = t.workspace.row)
      (s.chiSquared s.parameters s.workspace) (t.chiSquared t.parameters t.workspace) := by
  have hchi2 := h.findings.chi2 s.parameters
  unfold Solver.chi2At at hchi2
  rw [Solver.chiSquared_eq h.left.observed h.left.fits,
    Solver.chiSquared_eq h.right.observed h.right.fits, h.parameters]
  rw [h.model] at hchi2 ⊢
  cases hf : s.model.curve s.parameters with
  | error e => exact .error e
  | ok f =>
    rw [hf] at hchi2
    exact .ok ⟨Except.ok.inj hchi2, Solver.fits_evaluated h.left.observed h.left.fits f,
      h.model ▸ Solver.fits_evaluated h.right.observed h.right.fits f, rfl, rfl⟩

variable [OfNat α 10] [LE α] [DecidableLE α] [LT α] [DecidableLT α] [FitScalar α]

/-- The same finding leaves solvers in lockstep. -/
theorem after (h : Lockstep R s t) {w w' : Workspace α}
    (hw : w.Fits s.points s.model.parameterCount) (hw' : w'.Fits t.points t.model.parameterCount)
    (hrow : R w.row w'.row) {a : Attempt α} (ha : a.trial.length = s.model.parameterCount)
    (i : Nat) :
    Lockstep R ({ s with workspace := w }.after i a) ({ t with workspace := w' }.after i a) where
  left := h.left.after hw ha i
  right := h.right.after hw' (ha.trans (congrArg Model.parameterCount h.model.symm)) i
  model := h.model
  settings := h.settings
  points := h.points
  parameters := by
    show t.kept a = s.kept a
    unfold Solver.kept
    rw [h.model, h.parameters]
  lambda := by
    show t.damping a = s.damping a
    unfold Solver.damping
    rw [h.lambda]
  trace := by
    show (if t.settings.collectTrace then t.trace.push (t.entry i a) else t.trace) =
      if s.settings.collectTrace then s.trace.push (s.entry i a) else s.trace
    unfold Solver.entry Solver.damping
    rw [h.settings, h.trace, h.lambda]
  rows := hrow
  findings := ⟨h.findings.chi2, h.findings.find⟩

/-- A pass leaves solvers in lockstep. -/
theorem pass (h : Lockstep R s t) (i : Nat) :
    Agree (fun p q => Lockstep R p.1 q.1 ∧ p.2 = q.2) (s.pass i) (t.pass i) := by
  unfold Solver.pass
  refine h.attempt.bind ?_
  rintro ⟨a, w⟩ ⟨_, w'⟩ ⟨rfl, hlen, hw, hw', hrow⟩
  refine .ok ?_
  rw [Solver.conclude_eq, Solver.conclude_eq]
  refine ⟨h.after hw hw' hrow hlen i, ?_⟩
  show a.verdict s.settings.minDeltaChi2 = a.verdict t.settings.minDeltaChi2
  rw [h.settings]

/-- So do all the passes of a fit. -/
theorem passes (h : Lockstep R s t) (i budget : Nat) :
    Agree (fun p q => Lockstep R p.1 q.1 ∧ p.2 = q.2) (s.passes i budget) (t.passes i budget) := by
  induction budget generalizing s t i with
  | zero =>
    unfold Solver.passes
    refine (h.pass i).bind ?_
    rintro ⟨s', verdict⟩ ⟨t', _⟩ ⟨hlock, rfl⟩
    cases verdict with
    | stopped ending => exact .ok ⟨hlock, rfl⟩
    | running => exact .ok ⟨hlock, rfl⟩
  | succ budget ih =>
    unfold Solver.passes
    refine (h.pass i).bind ?_
    rintro ⟨s', verdict⟩ ⟨t', _⟩ ⟨hlock, rfl⟩
    cases verdict with
    | stopped ending => exact .ok ⟨hlock, rfl⟩
    | running => exact ih hlock (i + 1)

/-- **Solvers in lockstep** give the same report and end in lockstep. -/
theorem fit (h : Lockstep R s t) :
    Agree (fun p q => p.1 = q.1 ∧ Lockstep R p.2 q.2) s.fit t.fit := by
  unfold Solver.fit
  rw [h.settings]
  refine (h.passes 0 s.settings.maxIterations).bind ?_
  rintro ⟨s', n, ending⟩ ⟨t', _⟩ ⟨hlock, rfl⟩
  refine hlock.chiSquared.bind ?_
  rintro ⟨chi2, w⟩ ⟨_, w'⟩ ⟨rfl, hw, hw', hrow, hrow'⟩
  refine .ok ⟨?_, ?_⟩
  · show s'.reportOf chi2 n ending = t'.reportOf chi2 n ending
    unfold Solver.reportOf
    rw [hlock.parameters, hlock.lambda, hlock.points, hlock.settings, hlock.trace]
  · show Lockstep R (s'.rested w) (t'.rested w')
    exact
      { hlock with
        left := hlock.left.rested hw
        right := hlock.right.rested hw'
        trace := by
          show (if t'.settings.collectTrace then #[] else t'.trace) =
            if s'.settings.collectTrace then #[] else s'.trace
          rw [hlock.settings, hlock.trace]
        rows := by
          show R w.row w'.row
          rw [hrow, hrow']
          exact hlock.rows
        findings := ⟨hlock.findings.chi2, hlock.findings.find⟩ }

end Lockstep

end Attempt

end CurveFit
