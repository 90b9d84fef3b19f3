import CurveFit.Model.Shapes
import CurveFit.Proofs.Fit.Reuse

/-!
# Histories of a solver

A solver serves a sequence of calls: fits, and loadings that may be refused.  Whatever it has served
before, a solver that takes other observations gives the report that a new solver gives for them,
and a refused loading leaves no trace: `Solver.reload_forgets_history`.
-/

namespace CurveFit

variable {α : Type}

/-- What a solver is asked to do. -/
inductive Call (α : Type) where
  | fit
  | reload (y initial : List α)

section Serve

variable [OfNat α 0] [OfNat α 1] [OfNat α 10] [Add α] [Sub α] [Mul α] [Div α] [Neg α] [BEq α]
  [LE α] [DecidableLE α] [LT α] [DecidableLT α] [FitScalar α]

/-- The reports on a sequence of calls, and the solver after them.  A refused loading is passed
over. -/
def Solver.serve : Solver α → List (Call α) → Except Fault (List (FitReport α) × Solver α)
  | s, [] => .ok ([], s)
  | s, .fit :: calls => do
    let (report, s) ← s.fit
    let (reports, s) ← s.serve calls
    pure (report :: reports, s)
  | s, .reload y initial :: calls =>
    match s.reload y initial with
    | .ok s => s.serve calls
    | .error _ => s.serve calls

/-- What a fit shows: its report, and the parameters and the damping that it leaves. -/
def Solver.outcome (s : Solver α) : Except Fault (FitReport α × List α × α) :=
  s.fit.map fun (report, s) => (report, s.parameters, s.lambda)

variable {s t : Solver α}

/-- What fits keep, and what holds of every loaded solver, holds after any calls, and each report is
that of a fit from where it holds. -/
theorem Solver.serve_induction {P : Solver α → Prop} {Q : FitReport α → Prop}
    (hfit : ∀ {s t report}, P s → s.fit = .ok (report, t) → Q report ∧ P t)
    (hload : ∀ {s y initial}, P s → y.length = s.sourceLength →
      initial.length = s.parameters.length → P (s.loaded y initial))
    {calls : List (Call α)} {reports : List (FitReport α)} (hs : P s)
    (h : s.serve calls = .ok (reports, t)) : (∀ report ∈ reports, Q report) ∧ P t := by
  induction calls generalizing s reports with
  | nil =>
    cases h
    exact ⟨nofun, hs⟩
  | cons call calls ih =>
    cases call with
    | fit =>
      obtain ⟨⟨report, s'⟩, hfitted, h⟩ := bind_eq_ok_iff.mp h
      obtain ⟨⟨reports', t'⟩, hserve, h⟩ := bind_eq_ok_iff.mp h
      cases h
      obtain ⟨hreport, hs'⟩ := hfit hs hfitted
      obtain ⟨hreports, ht⟩ := ih hs' hserve
      exact ⟨List.forall_mem_cons.mpr ⟨hreport, hreports⟩, ht⟩
    | reload y initial =>
      unfold Solver.serve at h
      cases hreload : s.reload y initial with
      | error e =>
        rw [hreload] at h
        exact ih hs h
      | ok s' =>
        rw [hreload] at h
        obtain ⟨hlen, hcount, rfl⟩ := Solver.reload_eq_ok_iff.mp hreload
        exact ih (hload hs hlen hcount) h

/-- What fits keep, and what holds of every loaded solver, holds after any calls. -/
theorem Solver.serve_invariant {P : Solver α → Prop}
    (hfit : ∀ {s t report}, P s → s.fit = .ok (report, t) → P t)
    (hload : ∀ {s y initial}, P s → y.length = s.sourceLength →
      initial.length = s.parameters.length → P (s.loaded y initial))
    {calls : List (Call α)} {reports : List (FitReport α)} (hs : P s)
    (h : s.serve calls = .ok (reports, t)) : P t :=
  (serve_induction (Q := fun _ => True) (fun hs h => ⟨trivial, hfit hs h⟩) hload hs h).2

/-- Calls leave a ready solver ready, with the task it was set up for. -/
theorem Solver.Ready.serve {calls : List (Call α)} {reports : List (FitReport α)} (hs : s.Ready)
    (h : s.serve calls = .ok (reports, t)) : t.Ready ∧ s.SharesTask t := by
  refine Solver.serve_invariant (P := fun t => t.Ready ∧ s.SharesTask t) ?_ ?_ ⟨hs, .refl s⟩ h
  · rintro s₁ s₂ report ⟨hready, htask⟩ hfit
    obtain ⟨hready', hshares⟩ := hready.fit hfit
    exact ⟨hready', htask.trans hshares.toSharesTask⟩
  · rintro s₁ y initial ⟨hready, htask⟩ hlen hcount
    exact ⟨hready.loaded hlen hcount, htask.trans (.loaded s₁ y initial)⟩

/-- No records are left over from one call to the next. -/
theorem Solver.trace_serve {calls : List (Call α)} {reports : List (FitReport α)}
    (hwanted : s.settings.collectTrace = true → s.trace = #[])
    (h : s.serve calls = .ok (reports, t)) : t.settings.collectTrace = true → t.trace = #[] := by
  refine Solver.serve_invariant
    (P := fun t => t.settings.collectTrace = true → t.trace = #[]) ?_ ?_ hwanted h
  · rintro s₁ s₂ report - hfit
    obtain ⟨s', -, -, -, w, -, -, -, rfl⟩ := Solver.fit_eq_ok_iff.mp hfit
    exact fun hwanted => if_pos hwanted
  · intro s₁ y initial _ _ _ _
    rfl

/-- Solvers in lockstep show the same. -/
theorem Lockstep.outcome {R : List α → List α → Prop} (h : Lockstep R s t) :
    s.outcome = t.outcome := by
  refine h.fit.map_eq ?_
  rintro ⟨report, s'⟩ ⟨_, t'⟩ ⟨rfl, hlock⟩
  show (report, s'.parameters, s'.lambda) = (report, t'.parameters, t'.lambda)
  rw [hlock.parameters, hlock.lambda]

/-- Twins show the same. -/
theorem Twins.outcome (h : Twins s t) : s.outcome = t.outcome := h.lockstep.outcome

end Serve

section Binary64

variable {u : VectorUnit} {model : Model Float} {settings : FitSettings} {x y₀ init₀ : List Float}
  {s₀ s : Solver Float} {calls : List (Call Float)} {reports : List (FitReport Float)}

/-- **Histories are forgotten.**  Take any solver that was set up with `x`, and any calls it has
served since.  Other observations are refused exactly when they are not as many as the points first
given or the start does not have one value for each parameter; a refusal changes nothing for the
calls that follow.  Otherwise the next fit shows what the fit of a new solver shows. -/
theorem Solver.reload_forgets_history (hfill : model.FillsSlots)
    (hnew : Solver.new u model x y₀ init₀ settings = .ok s₀)
    (hserve : s₀.serve calls = .ok (reports, s)) (y initial : List Float) :
    ((∃ e, s.reload y initial = .error e) ↔
      y.length ≠ x.length ∨ initial.length ≠ model.parameterCount) ∧
    (∀ s', s.reload y initial = .ok s' →
      ∃ t, Solver.new u model x y initial settings = .ok t ∧ s'.outcome = t.outcome) ∧
    (∀ e, s.reload y initial = .error e →
      ∀ later, s.serve (.reload y initial :: later) = s.serve later) := by
  obtain ⟨hlen₀, hcount₀, rfl⟩ := Solver.new_ok hnew
  obtain ⟨hs, htask⟩ := (Solver.ready_fresh hlen₀ hcount₀).serve hserve
  have hsource : s.sourceLength = x.length := htask.sourceLength
  have hcounted : s.parameters.length = model.parameterCount := by
    rw [hs.counted, htask.model]
    rfl
  refine ⟨?_, ?_, ?_⟩
  · rw [Solver.reload_eq_error_iff, hsource, hcounted]
  · intro s' hload
    obtain ⟨hy, hcount, rfl⟩ := Solver.reload_eq_ok_iff.mp hload
    rw [hsource] at hy
    rw [hcounted] at hcount
    exact ⟨_, Solver.new_of_new hnew hy hcount, (hs.twins_loaded htask hfill hy hcount).outcome⟩
  · intro e hrefused later
    rw [Solver.serve, hrefused]

/-- A line that has been fitted, has refused a series, and has been fitted again. -/
theorem Solver.reload_forgets_history_line :
    let model : Model Float := .polynomial [0.0, 1.0] [.nonNegative]
    let x : List Float := [1.0, 2.0, 3.0]
    let settings := { FitSettings.default with maxIterations := 1 }
    ∃ s₀ reports s s' t,
      Solver.new ⟨.avx2, 1024⟩ model x [1.0, 0.5, 4.0] [0.0, 1.0] settings = .ok s₀ ∧
        s₀.serve [.fit, .reload [1.0] [0.0, 1.0], .fit] = .ok (reports, s) ∧
          s.reload [2.0, 1.0, 0.0] [0.5, 0.5] = .ok s' ∧
            Solver.new ⟨.avx2, 1024⟩ model x [2.0, 1.0, 0.0] [0.5, 0.5] settings = .ok t ∧
              s'.outcome = t.outcome := by
  intro model x settings
  have hfill : model.FillsSlots := Model.polynomial_fillsSlots _ _
  let s₀ : Solver Float := .fresh ⟨.avx2, 1024⟩ model x [1.0, 0.5, 4.0] [0.0, 1.0] settings
  have hnew : Solver.new ⟨.avx2, 1024⟩ model x [1.0, 0.5, 4.0] [0.0, 1.0] settings = .ok s₀ :=
    Solver.new_eq_fresh (by decide +kernel) (by decide +kernel) (by decide +kernel)
      (List.cons_ne_nil _ _) (by decide +kernel)
  obtain ⟨⟨reports, s⟩, hserve⟩ :
      ∃ r, s₀.serve [.fit, .reload [1.0] [0.0, 1.0], .fit] = .ok r :=
    exists_of_isOk (by decide +kernel)
  obtain ⟨hrefused, hloaded, _⟩ := Solver.reload_forgets_history hfill hnew hserve
    [2.0, 1.0, 0.0] [0.5, 0.5]
  cases hload : s.reload [2.0, 1.0, 0.0] [0.5, 0.5] with
  | error e =>
    rcases hrefused.mp ⟨e, hload⟩ with h | h
    · exact absurd (by decide +kernel) h
    · exact absurd (by decide +kernel) h
  | ok s' =>
    obtain ⟨t, ht, houtcome⟩ := hloaded s' hload
    exact ⟨_, reports, s, s', t, hnew, hserve, hload, ht, houtcome⟩

end Binary64

end CurveFit
