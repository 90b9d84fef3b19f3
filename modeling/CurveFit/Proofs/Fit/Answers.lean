import CurveFit.Model.Library
import CurveFit.Model.Shapes
import CurveFit.Proofs.Fit.Passes

/-!
# Fits that have to return

A model answers when its curve and its derivatives exist wherever there is one value for each
parameter, and no row of derivatives is longer than the buffer it is written over.  A ready solver
for such a model meets no fault: every attempt finds something, the budget bounds the passes, and so
the fit returns (`Solver.Ready.exists_fit`).  The built-in models answer.
-/

namespace CurveFit

variable {α : Type}

/-- A model answers whenever it is given one value for each parameter. -/
structure Model.Answers (m : Model α) : Prop where
  curve : ∀ values, values.length = m.parameterCount → ∃ f, m.curve values = .ok f
  slopes : ∀ values, values.length = m.parameterCount →
    ∃ d, m.slopes values = .ok d ∧ ∀ x, (d x).length ≤ m.parameterCount

theorem exists_derivativeRows {d : α → List α} {buffer : List α}
    (hd : ∀ x, (d x).length ≤ buffer.length) (x : List α) :
    ∃ rows, derivativeRows d buffer x = .ok rows := by
  induction x generalizing buffer with
  | nil => exact ⟨[], rfl⟩
  | cons x rest ih =>
    have hrow : writeRow buffer (d x) = .ok (overwrite buffer (d x)) := if_pos (hd x)
    have hlen : ∀ x', (d x').length ≤ (overwrite buffer (d x)).length := by simpa using hd
    obtain ⟨rows, hrows⟩ := ih hlen
    rw [derivativeRows, hrow]
    show ∃ rows, Except.bind (derivativeRows d (overwrite buffer (d x)) rest) _ = .ok rows
    rw [hrows]
    exact ⟨_, rfl⟩

/-! ## Ready solvers -/

section Fit

variable [OfNat α 0] [OfNat α 1] [Add α] [Sub α] [Mul α] [Div α] [Neg α] [BEq α] {s : Solver α}

namespace Solver

theorem exists_trialFrom (hs : s.Ready) (hm : s.model.Answers) {buffer : List α}
    (hb : buffer.length = s.model.parameterCount) (residual : List α) :
    ∃ trial, s.trialFrom residual buffer = .ok trial := by
  obtain ⟨d, hd, hlen⟩ := hm.slopes s.parameters hs.counted
  obtain ⟨rows, hrows⟩ := exists_derivativeRows (fun x => hb ▸ hlen x) s.x
  unfold trialFrom
  rw [hd]
  show ∃ trial, Except.bind (derivativeRows d buffer s.x) _ = .ok trial
  rw [hrows]
  exact ⟨_, rfl⟩

/-- Every attempt finds something. -/
theorem Ready.exists_attempt (hs : s.Ready) (hm : s.model.Answers) :
    ∃ a w, s.attempt = .ok (a, w) := by
  obtain ⟨f, hf⟩ := hm.curve s.parameters hs.counted
  obtain ⟨trial, htrial⟩ := exists_trialFrom hs hm hs.fits.row (s.misses f)
  obtain ⟨g, hg⟩ := hm.curve trial (length_trialFrom hs htrial)
  obtain ⟨w, hattempt⟩ := hs.attempt_of_trial hf htrial hg
  exact ⟨_, w, hattempt⟩

variable [OfNat α 10] [LE α] [DecidableLE α] [LT α] [DecidableLT α] [FitScalar α]

/-- The budget bounds the passes, so they come to an end. -/
theorem Ready.exists_trail (hs : s.Ready) (hm : s.model.Answers) (i budget : Nat) :
    ∃ visits t ending, Trail s i budget visits t ending := by
  induction budget generalizing s i with
  | zero =>
    obtain ⟨a, w, found⟩ := hs.exists_attempt hm
    cases hverdict : a.verdict s.settings.minDeltaChi2 with
    | stopped ending => exact ⟨_, _, _, .stopped found hverdict⟩
    | running => exact ⟨_, _, _, .exhausted found hverdict⟩
  | succ budget ih =>
    obtain ⟨a, w, found⟩ := hs.exists_attempt hm
    cases hverdict : a.verdict s.settings.minDeltaChi2 with
    | stopped ending => exact ⟨_, _, _, .stopped found hverdict⟩
    | running =>
      obtain ⟨visits, t, ending, hrest⟩ := ih (hs.next found i) hm (i + 1)
      exact ⟨_, _, _, .next found hverdict hrest⟩

/-- **A fit returns** when the solver is ready and its model answers. -/
theorem Ready.exists_fit (hs : s.Ready) (hm : s.model.Answers) :
    ∃ report t, s.fit = .ok (report, t) := by
  obtain ⟨visits, s', ending, htrail⟩ := hs.exists_trail hm 0 s.settings.maxIterations
  obtain ⟨hready, hshares⟩ := htrail.ready hs
  rw [← hshares.model] at hm
  obtain ⟨f, hf⟩ := hm.curve s'.parameters hready.counted
  have hchi2 := chiSquared_eq hready.observed hready.fits s'.parameters
  rw [hf] at hchi2
  exact ⟨_, _, fit_eq_ok_iff.mpr
    ⟨s', _, ending, _, _, passes_eq_ok_iff.mpr ⟨visits, htrail, rfl⟩, hchi2, rfl, rfl⟩⟩

end Solver

end Fit

/-! ## Models that answer -/

section BuiltIn

variable [OfNat α 1] [OfNat α 2] [Add α] [Sub α] [Mul α] [Div α] [Neg α] [ExpScalar α]

theorem ModelKind.exists_functions (kind : ModelKind) {values : List α}
    (h : values.length = kind.parameterCount) :
    (∃ f, kind.curve? values = some f) ∧ ∃ d, kind.slopes? values = some d := by
  cases kind with
  | linear =>
    match values, h with
    | [_, _], _ => exact ⟨⟨_, rfl⟩, _, rfl⟩
  | exponential =>
    match values, h with
    | [_, _, _], _ => exact ⟨⟨_, rfl⟩, _, rfl⟩
  | gaussian =>
    match values, h with
    | [_, _, _, _], _ => exact ⟨⟨_, rfl⟩, _, rfl⟩
  | biExponential =>
    match values, h with
    | [_, _, _, _, _], _ => exact ⟨⟨_, rfl⟩, _, rfl⟩

/-- The built-in models answer. -/
theorem ModelKind.model_answers {kind : ModelKind} {initial : List α} {m : Model α}
    (h : kind.model initial = .ok m) : m.Answers := by
  obtain ⟨hcount, hcurve, hslopes⟩ := ModelKind.functions_of_model h
  constructor
  · intro values hvalues
    obtain ⟨⟨f, hf⟩, -⟩ := kind.exists_functions (hvalues.trans hcount)
    exact ⟨f, Model.curve_of_some (by rw [hcurve, hf])⟩
  · intro values hvalues
    obtain ⟨-, d, hd⟩ := kind.exists_functions (hvalues.trans hcount)
    exact ⟨d, Model.slopes_of_some (by rw [hslopes, hd]), fun x =>
      Nat.le_of_eq ((ModelKind.length_slopes hd x).trans hcount.symm)⟩

end BuiltIn

section Polynomial

variable [OfNat α 0] [OfNat α 1] [Add α] [Mul α]

/-- Polynomials answer. -/
theorem Model.polynomial_answers (initial : List α) (constraints : List Constraint) :
    (Model.polynomial initial constraints).Answers where
  curve values _ := ⟨horner values, rfl⟩
  slopes values hvalues := ⟨_, rfl, fun x =>
    Nat.le_of_eq (Model.polynomial_fillsSlots initial constraints values _ hvalues rfl x)⟩

end Polynomial

end CurveFit
