import CurveFit.Proofs.Fit.Points
import CurveFit.Proofs.Model.Projection

/-!
# Parameters on their constraints

A pass with a finite trial ends at what the constraints make of its decision, and a pass that
diverges ends where it started.  So from the second pass on, every pass starts at settled parameters
(`Trail.settled`), and a fit ends at such parameters, unless its first pass diverges: then it ends
where it started (`Solver.fit_settles`).
-/

namespace CurveFit

/-- In a chain every element but the first follows one. -/
theorem exists_follows {β : Type} {R : β → β → Prop} {l : List β} (h : l.IsChain R) :
    ∀ b ∈ l.tail, ∃ a ∈ l, R a b := by
  induction h with
  | nil => exact nofun
  | singleton a => exact nofun
  | @cons_cons a b l hab _ ih =>
    intro c hc
    rcases List.mem_cons.mp hc with rfl | hc
    · exact ⟨a, List.mem_cons_self .., hab⟩
    · obtain ⟨a', ha', hR⟩ := ih c hc
      exact ⟨a', List.mem_cons_of_mem _ ha', hR⟩

variable {s t : Solver Float} {i budget : ℕ} {visits : List (Visit Float)} {ending : Termination}
  {report : FitReport Float}

/-- What a pass decides on is settled once it is projected. -/
theorem Trail.settled_decided (htrail : Trail s i budget visits t ending) (hs : s.Ready) :
    ∀ v ∈ visits, s.model.Settled (s.model.project (v.solver.decided v.found)) :=
  fun v hv => s.model.settled_project (htrail.length_decided hs v hv)

/-- Every pass but the first starts at the projected decision of one with a finite trial. -/
theorem Trail.starts_projected (htrail : Trail s i budget visits t ending) (hs : s.Ready) :
    ∀ v ∈ visits.tail, ∃ u ∈ visits, u.found.isFinite ∧
      v.solver.parameters = s.model.project (u.solver.decided u.found) := by
  intro v hv
  obtain ⟨u, hu, hfin, hparameters, -⟩ := exists_follows htrail.follows v hv
  rw [Solver.kept_of_isFinite hfin, (htrail.visited hs u hu).2.1.model] at hparameters
  exact ⟨u, hu, hfin, hparameters⟩

/-- A fit ends at the projected decision of its last pass, or where its last pass started. -/
theorem Trail.parameters_cases (htrail : Trail s 0 budget visits t report.termination)
    (hlocated : report.Located s visits) :
    ∃ v ∈ visits.getLast?,
      v.found.isFinite ∧ report.parameters = s.model.project (v.solver.decided v.found) ∨
        ¬ v.found.isFinite ∧ report.parameters = v.solver.parameters := by
  obtain ⟨front, v, rfl, -, -, -, -, hlast⟩ := htrail.ends
  have hgetLast : v ∈ (front ++ [v]).getLast? := List.getLast?_concat
  refine ⟨v, hgetLast, ?_⟩
  by_cases hdiverged : report.termination = .diverged
  · obtain ⟨hstays, -⟩ := hlocated.stays v hgetLast hdiverged
    exact .inr ⟨fun hfin => (Attempt.isFinite_iff hlast).mp hfin hdiverged, hstays⟩
  · exact .inl ⟨(Attempt.isFinite_iff hlast).mpr hdiverged, hlocated.ends v hgetLast hdiverged⟩

/-- A first pass without a finite trial is the only one. -/
theorem Trail.eq_singleton (htrail : Trail s i budget visits t ending)
    {v : Visit Float} (hv : v ∈ visits.head?) (hfin : ¬ v.found.isFinite) : visits = [v] := by
  obtain ⟨later, rfl⟩ := List.head?_eq_some_iff.mp hv
  cases later with
  | nil => rfl
  | cons w later =>
    obtain ⟨hgoes, -⟩ := (List.isChain_cons_cons.mp htrail.follows).1
    exact absurd hgoes hfin

/-- A fit with a pass that has a finite trial ends at the projected decision of such a pass. -/
theorem Trail.ends_projected (htrail : Trail s 0 budget visits t report.termination) (hs : s.Ready)
    (hlocated : report.Located s visits) (hfinite : ∃ v ∈ visits, v.found.isFinite) :
    ∃ v ∈ visits, v.found.isFinite ∧
      report.parameters = s.model.project (v.solver.decided v.found) := by
  obtain ⟨v, hlast, ⟨hfin, hparameters⟩ | ⟨hfin, hparameters⟩⟩ := htrail.parameters_cases hlocated
  · exact ⟨v, List.mem_of_getLast? hlast, hfin, hparameters⟩
  · obtain ⟨first, later, rfl⟩ :=
      List.exists_cons_of_ne_nil (List.ne_nil_of_mem (List.mem_of_getLast? hlast))
    rcases List.mem_cons.mp (List.mem_of_getLast? hlast) with rfl | hlater
    · -- the only pass would have a finite trial and none
      obtain ⟨u, hu, hufin⟩ := hfinite
      rw [htrail.eq_singleton rfl hfin, List.mem_singleton] at hu
      exact absurd (hu ▸ hufin) hfin
    · rw [hparameters]
      exact htrail.starts_projected hs v hlater

/-! ## Fits -/

variable {u : VectorUnit} {model : Model Float} {settings : FitSettings}
  {x y initial : List Float} {s₀ : Solver Float} {calls : List (Call Float)}
  {reports : List (FitReport Float)}

/-- **The parameters of a fit** of a solver that has served any calls.  Each pass after the first
starts at settled parameters: their constraints leave them alone and allow them as far as they are
finite.  If a pass has a finite trial, the fit ends at settled parameters, which are what the
constraints make of the decision of such a pass.  If the first pass diverges, the fit ends with the
parameters that it started from. -/
theorem Solver.fit_settles (hnew : Solver.new u model x y initial settings = .ok s₀)
    (hserve : s₀.serve calls = .ok (reports, s)) (hfit : s.fit = .ok (report, t)) :
    ∃ visits s', Trail s 0 settings.maxIterations visits s' report.termination ∧
      t.parameters = report.parameters ∧
      (∀ v ∈ visits.tail, model.Settled v.solver.parameters) ∧
      ((∃ v ∈ visits, v.found.isFinite) → model.Settled report.parameters ∧
        ∃ v ∈ visits, v.found.isFinite ∧
          report.parameters = model.project (v.solver.decided v.found)) ∧
      ((∃ v ∈ visits.head?, ¬ v.found.isFinite) → report.parameters = s.parameters) := by
  obtain ⟨hlen, hcount, rfl⟩ := Solver.new_ok hnew
  obtain ⟨hs, htask⟩ := (ready_fresh hlen hcount).serve hserve
  have hmodel : s.model = model := htask.model
  have hsettings : s.settings = settings := htask.settings
  obtain ⟨visits, s', htrail, hlocated, -, hparameters, -⟩ :=
    fit_located hs (trace_serve (fun _ => rfl) hserve) hfit
  rw [← hmodel, ← hsettings]
  refine ⟨visits, s', htrail, hparameters, ?starts, ?ends, ?stays⟩
  case starts =>
    intro v hv
    obtain ⟨w, hw, -, hstart⟩ := htrail.starts_projected hs v hv
    rw [hstart]
    exact htrail.settled_decided hs w hw
  case ends =>
    intro hfinite
    obtain ⟨v, hv, hfin, hend⟩ := htrail.ends_projected hs hlocated hfinite
    refine ⟨?_, v, hv, hfin, hend⟩
    rw [hend]
    exact htrail.settled_decided hs v hv
  case stays =>
    rintro ⟨v, hv, hfin⟩
    obtain ⟨w, hw, hcases⟩ := htrail.parameters_cases hlocated
    rw [htrail.eq_singleton hv hfin] at hw
    obtain rfl : v = w := Option.some.inj hw
    rcases hcases with ⟨hfin', -⟩ | ⟨-, hend⟩
    · exact absurd hfin' hfin
    · rw [hend]
      exact (hlocated.starts v hv).1

/-- A line whose start is not settled, and one whose first trial is too far off for a sum of
squares. -/
theorem Solver.fit_settles_line :
    let model : Model Float := .polynomial [0.5, 1.0] [.integer, .nonNegative]
    let settings := { FitSettings.default with maxIterations := 1 }
    let new := fun y => Solver.new ⟨.portable, 1024⟩ model [1.0, 2.0] y [0.5, 1.0] settings
    (∃ s₀ report t, new [2.0, 1.0] = .ok s₀ ∧ s₀.fit = .ok (report, t) ∧
      model.Settled report.parameters) ∧
    ∃ s₀ report t, new [1e200, 1.0] = .ok s₀ ∧ s₀.fit = .ok (report, t) ∧
      report.parameters = [0.5, 1.0] := by
  intro model settings new
  have hnew : ∀ y : List Float, y.length = 2 →
      new y = .ok (.fresh ⟨.portable, 1024⟩ model [1.0, 2.0] y [0.5, 1.0] settings) := fun y hy =>
    Solver.new_eq_fresh (by decide +kernel) hy.symm (by decide +kernel) (List.cons_ne_nil _ _)
      (by decide +kernel)
  constructor
  · let s₀ : Solver Float :=
      .fresh ⟨.portable, 1024⟩ model [1.0, 2.0] [2.0, 1.0] [0.5, 1.0] settings
    obtain ⟨⟨report, t⟩, hfit⟩ : ∃ r, s₀.fit = .ok r := exists_of_isOk (by decide +kernel)
    obtain ⟨visits, s', htrail, -, -, hends, -⟩ :=
      Solver.fit_settles (hnew [2.0, 1.0] rfl) (show s₀.serve [] = .ok ([], s₀) from rfl) hfit
    obtain ⟨a, w, later, found, rfl⟩ := htrail.start
    obtain ⟨r, hfound, hfinite⟩ : ∃ r, s₀.attempt = .ok r ∧ r.1.isFinite :=
      exists_of_any (by decide +kernel)
    obtain rfl : (a, w) = r := Except.ok.inj (found.symm.trans hfound)
    exact ⟨s₀, report, t, hnew [2.0, 1.0] rfl, hfit, (hends ⟨_, List.mem_cons_self .., hfinite⟩).1⟩
  · let s₀ : Solver Float :=
      .fresh ⟨.portable, 1024⟩ model [1.0, 2.0] [1e200, 1.0] [0.5, 1.0] settings
    obtain ⟨⟨report, t⟩, hfit⟩ : ∃ r, s₀.fit = .ok r := exists_of_isOk (by decide +kernel)
    obtain ⟨visits, s', htrail, -, -, -, hstays⟩ :=
      Solver.fit_settles (hnew [1e200, 1.0] rfl) (show s₀.serve [] = .ok ([], s₀) from rfl) hfit
    obtain ⟨a, w, later, found, rfl⟩ := htrail.start
    obtain ⟨r, hfound, hfinite⟩ : ∃ r, s₀.attempt = .ok r ∧ (!r.1.isFinite) :=
      exists_of_any (by decide +kernel)
    obtain rfl : (a, w) = r := Except.ok.inj (found.symm.trans hfound)
    have hinfinite : ¬ a.isFinite := by simpa using hfinite
    exact ⟨s₀, report, t, hnew [1e200, 1.0] rfl, hfit, hstays ⟨_, rfl, hinfinite⟩⟩

end CurveFit
