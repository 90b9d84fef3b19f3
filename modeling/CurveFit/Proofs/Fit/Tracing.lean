import CurveFit.Proofs.Fit.Budgets
import CurveFit.Proofs.Fit.History

/-!
# Settings that no pass looks at

Three settings have no part in the passes of a fit: whether reports list every pass, whether
accelerated vectors may be used, and the fraction by which a dataset may exceed a vector.
`Solver.core` forgets them, and the records with them.  A pass commutes with forgetting
(`Solver.pass_core`), hence so do all passes, a fit, a loading and any sequence of calls
(`Solver.serve_core`).  Two solvers with one core therefore show the same numbers, call by call,
however they are traced: `Solver.serve_showsAlike`.
-/

namespace CurveFit

variable {α : Type}

/-! ## What is forgotten -/

/-- The report without its trace. -/
def FitReport.withoutTrace (report : FitReport α) : FitReport α := { report with trace := none }

/-- The settings that passes look at; the others have fixed values. -/
def Settings.core [OfNat α 0] (settings : Settings α) : Settings α :=
  { settings with simdEnabled := false, truncateRatio := 0, collectTrace := false }

/-- The solver without records, and with the settings that passes look at. -/
def Solver.core [OfNat α 0] (s : Solver α) : Solver α :=
  { s with settings := s.settings.core, trace := #[] }

/-- Two outcomes of the same calls show the same: the reports agree but for the traces, which are
there exactly when they are wanted, and the solvers agree in their parameters and their damping and
refuse the same observations for the same reason. -/
structure ShowsAlike (wanted wanted' : Bool) (p q : List (FitReport α) × Solver α) : Prop where
  reports : p.1.map FitReport.withoutTrace = q.1.map FitReport.withoutTrace
  traced : ∀ report ∈ p.1, report.trace.isSome = wanted
  traced' : ∀ report ∈ q.1, report.trace.isSome = wanted'
  parameters : p.2.parameters = q.2.parameters
  lambda : p.2.lambda = q.2.lambda
  refusals : ∀ y initial,
    (p.2.reload y initial).map (fun _ => ()) = (q.2.reload y initial).map fun _ => ()

namespace Solver

/-! ## Steps commute with forgetting -/

theorem reload_core [OfNat α 0] (s : Solver α) (y initial : List α) :
    s.core.reload y initial = (s.reload y initial).map core :=
  reload_comm rfl rfl rfl

theorem close_core [OfNat α 0] [Add α] [Sub α] [Mul α] [Div α] [Neg α] (s : Solver α) (n : ℕ)
    (ending : Termination) :
    s.core.close n ending =
      (s.close n ending).map fun (report, t) => (report.withoutTrace, t.core) :=
  bind_eq_map fun _ _ => rfl

section Fit

variable [OfNat α 0] [OfNat α 1] [OfNat α 10] [Add α] [Sub α] [Mul α] [Div α] [Neg α] [BEq α]
  [LE α] [DecidableLE α] [LT α] [DecidableLT α] [FitScalar α]

/-- **One pass** does the same, traced or not. -/
theorem pass_core (s : Solver α) (i : ℕ) :
    s.core.pass i = (s.pass i).map fun (t, verdict) => (t.core, verdict) := by
  unfold pass
  refine bind_eq_map fun (a, w) _ => ?_
  show Except.ok (conclude _ i a) = Except.ok _
  rw [conclude_eq, conclude_eq]
  rfl

theorem passes_core (s : Solver α) (i budget : ℕ) :
    s.core.passes i budget = (s.passes i budget).map fun (t, r) => (t.core, r) := by
  induction budget generalizing s i with
  | zero =>
    rw [passes_zero, passes_zero, pass_core, map_bind]
    refine bind_eq_map fun (t, verdict) _ => ?_
    cases verdict <;> rfl
  | succ budget ih =>
    rw [passes_succ, passes_succ, pass_core, map_bind]
    refine bind_eq_map fun (t, verdict) _ => ?_
    cases verdict with
    | running => exact ih t (i + 1)
    | stopped ending => rfl

/-- A fit reports the same numbers, traced or not. -/
theorem fit_core (s : Solver α) :
    s.core.fit = s.fit.map fun (report, t) => (report.withoutTrace, t.core) := by
  show (s.core.passes 0 s.settings.maxIterations >>= fun p => p.1.close p.2.1 p.2.2) =
    Except.map _ (s.passes 0 s.settings.maxIterations >>= fun p => p.1.close p.2.1 p.2.2)
  rw [passes_core, map_bind]
  exact bind_eq_map fun p _ => close_core p.1 p.2.1 p.2.2

/-- **Calls** show the same numbers, traced or not. -/
theorem serve_core (s : Solver α) (calls : List (Call α)) :
    s.core.serve calls =
      (s.serve calls).map fun (reports, t) => (reports.map FitReport.withoutTrace, t.core) := by
  induction calls generalizing s with
  | nil => rfl
  | cons call calls ih =>
    cases call with
    | fit =>
      show (s.core.fit >>= _) = Except.map _ (s.fit >>= _)
      rw [fit_core, map_bind]
      refine bind_eq_map fun (report, t) _ => ?_
      show (t.core.serve calls >>= _) = Except.map _ (t.serve calls >>= _)
      rw [ih, map_bind]
      exact bind_eq_map fun (reports, t') _ => rfl
    | reload y initial =>
      unfold serve
      rw [reload_core]
      cases s.reload y initial with
      | error e => exact ih s
      | ok t => exact ih t

/-! ## Traces -/

/-- Every report has a trace if one is wanted, and none otherwise. -/
theorem Ready.isSome_trace {s t : Solver α} {calls : List (Call α)} {reports : List (FitReport α)}
    (hs : s.Ready) (h : s.serve calls = .ok (reports, t)) :
    ∀ report ∈ reports, report.trace.isSome = s.settings.collectTrace := by
  refine (serve_induction (P := fun t => t.Ready ∧ t.settings = s.settings)
    (Q := fun report => report.trace.isSome = s.settings.collectTrace) ?_ ?_ ⟨hs, rfl⟩ h).1
  · rintro s₁ s₂ report ⟨hready, hsettings⟩ hfit
    obtain ⟨hready₂, hshares⟩ := hready.fit hfit
    obtain ⟨visits, s', ending, chi2, w, htrail, -, -, rfl, rfl⟩ := fit_ok hready hfit
    have hsettings' : s'.settings = s.settings := (htrail.ready hready).2.settings.trans hsettings
    refine ⟨?_, hready₂, hsettings'⟩
    show (if s'.settings.collectTrace then some s'.trace.toList else none).isSome = _
    rw [hsettings']
    cases s.settings.collectTrace <;> rfl
  · rintro s₁ y initial ⟨hready, hsettings⟩ hlen hcount
    exact ⟨hready.loaded hlen hcount, hsettings⟩

/-- Ready solvers with one core show alike. -/
theorem Ready.showsAlike {s t : Solver α} (hs : s.Ready) (ht : t.Ready) (hcore : s.core = t.core)
    (calls : List (Call α)) :
    Agree (ShowsAlike s.settings.collectTrace t.settings.collectTrace) (s.serve calls)
      (t.serve calls) := by
  have hserve := congrArg (·.serve calls) hcore
  simp only [serve_core] at hserve
  refine (Agree.of_map_eq hserve).remember.mono ?_
  rintro ⟨reports, s'⟩ ⟨reports', t'⟩ ⟨hsame, hleft, hright⟩
  obtain ⟨hreports, hcore'⟩ := Prod.mk.inj hsame
  have hparameters : s'.core.parameters = t'.core.parameters := congrArg _ hcore'
  have hlambda : s'.core.lambda = t'.core.lambda := congrArg _ hcore'
  refine ⟨hreports, hs.isSome_trace hleft, ht.isSome_trace hright, hparameters, hlambda,
    fun y initial => ?_⟩
  have hreload := congrArg (fun u => (u.reload y initial).map fun _ => ()) hcore'
  simp only [reload_core, map_map] at hreload
  exact hreload

end Fit

section Binary64

variable {u : VectorUnit} {model : Model Float} {x y initial : List Float} {settings : FitSettings}
  {s t : Solver Float}

/-- **Tracing and the gate settings** do not show.  Take two solvers that were set up for the same
points under settings that differ in these three fields at most.  Any calls fail on both in the same
way, or succeed on both and show alike: the same reports up to the trace, which is there exactly
when it is wanted, and the same parameters and damping after them. -/
theorem serve_showsAlike {trace simd : Bool} {ratio : Float}
    (hs : Solver.new u model x y initial settings = .ok s)
    (ht : Solver.new u model x y initial
      { settings with collectTrace := trace, simdEnabled := simd, truncateRatio := ratio } = .ok t)
    (calls : List (Call Float)) :
    Agree (ShowsAlike settings.collectTrace trace) (s.serve calls) (t.serve calls) := by
  obtain ⟨hlen, hcount, hs⟩ := new_ok hs
  obtain ⟨-, -, ht⟩ := new_ok ht
  have hready : s.Ready := hs ▸ ready_fresh hlen hcount
  have hready' : t.Ready := ht ▸ ready_fresh hlen hcount
  have hcore : s.core = t.core := by
    rw [← hs, ← ht]
    rfl
  have hwanted : s.settings.collectTrace = settings.collectTrace := by
    rw [← hs]
    rfl
  have hwanted' : t.settings.collectTrace = trace := by
    rw [← ht]
    rfl
  rw [← hwanted, ← hwanted']
  exact hready.showsAlike hready' hcore calls

/-- A line that is fitted, is refused a series, is given another one and is fitted again, with and
without a trace. -/
theorem serve_showsAlike_line :
    let model : Model Float := .polynomial [0.0, 1.0] [.nonNegative]
    let x : List Float := [1.0, 2.0, 3.0]
    let plain := { FitSettings.default with maxIterations := 1 }
    let traced := { plain with collectTrace := true, simdEnabled := false, truncateRatio := 0.25 }
    let calls : List (Call Float) :=
      [.fit, .reload [1.0] [0.0, 1.0], .reload [2.0, 1.0, 0.0] [0.5, 0.5], .fit]
    ∃ s t p q,
      Solver.new ⟨.avx2, 1024⟩ model x [1.0, 0.5, 4.0] [0.0, 1.0] plain = .ok s ∧
        Solver.new ⟨.avx2, 1024⟩ model x [1.0, 0.5, 4.0] [0.0, 1.0] traced = .ok t ∧
          s.serve calls = .ok p ∧ t.serve calls = .ok q ∧ p.1.length = 2 ∧
            ShowsAlike false true p q := by
  intro model x plain traced calls
  have hnew (settings : FitSettings) (hvalid : settings.issue? = none)
      (hwithin : withinCapacity 3 1024 settings.truncateRatio) :
      Solver.new ⟨.avx2, 1024⟩ model x [1.0, 0.5, 4.0] [0.0, 1.0] settings =
        .ok (.fresh ⟨.avx2, 1024⟩ model x [1.0, 0.5, 4.0] [0.0, 1.0] settings) :=
    Solver.new_eq_fresh hvalid (by decide +kernel) (by decide +kernel) (List.cons_ne_nil _ _) hwithin
  have hs := hnew plain (by decide +kernel) (by decide +kernel)
  have ht := hnew traced (by decide +kernel) (by decide +kernel)
  obtain ⟨p, hp, hlen⟩ : ∃ p, (fresh ⟨.avx2, 1024⟩ model x [1.0, 0.5, 4.0] [0.0, 1.0] plain).serve
      calls = .ok p ∧ decide (p.1.length = 2) = true := exists_of_any (by decide +kernel)
  have hagree := serve_showsAlike hs ht calls
  rw [hp] at hagree
  obtain ⟨q, hq, halike⟩ := hagree.ok_left
  exact ⟨_, _, p, q, hs, ht, hp, hq, of_decide_eq_true hlen, halike⟩

end Binary64

end Solver

end CurveFit
