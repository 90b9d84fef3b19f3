import CurveFit.Proofs.Fit.Answers
import CurveFit.Proofs.Fit.History
import Mathlib.Data.List.Chain

/-!
# What a trace tells

A trace has one record for each pass.  Every pass but the last goes on; the last one stops the fit,
or the passes run out.  `Trail.ends` says so of the visits of a fit, `Trail.follows` ties each visit
to the next, and `Solver.fit_trail` reads the report off them.  Together they give the course of a fit
as its records tell it, from the first pass of any solver that can be reached: `Solver.fit_traced`.
-/

namespace CurveFit

variable {α : Type}

/-! ## How a pass ends -/

section Verdict

variable [Sub α] [LT α] [DecidableLT α] [FitScalar α] {a : Attempt α} {minDelta : α}

theorem Attempt.verdict_eq_running : a.verdict minDelta = .running ↔
    a.isFinite ∧ ¬ FitScalar.abs (a.chi2 - a.trialChi2) < minDelta := by
  unfold Attempt.verdict
  by_cases hfin : a.isFinite <;>
    by_cases hsmall : FitScalar.abs (a.chi2 - a.trialChi2) < minDelta <;> simp [hfin, hsmall]

theorem Attempt.verdict_eq_stopped {ending : Termination} : a.verdict minDelta = .stopped ending ↔
    (¬ a.isFinite ∧ ending = .diverged) ∨
      (a.isFinite ∧ FitScalar.abs (a.chi2 - a.trialChi2) < minDelta ∧ ending = .converged) := by
  unfold Attempt.verdict
  by_cases hfin : a.isFinite <;>
    by_cases hsmall : FitScalar.abs (a.chi2 - a.trialChi2) < minDelta <;>
    simp [hfin, hsmall, eq_comm]

/-- The trial of a last pass has a finite sum of squares unless the fit diverged. -/
theorem Attempt.isFinite_iff {ending : Termination} {exhausted : Prop}
    (h : a.verdict minDelta = .stopped ending ∨
      a.verdict minDelta = .running ∧ ending = .iterationLimit ∧ exhausted) :
    a.isFinite ↔ ending ≠ .diverged := by
  rcases h with hstopped | ⟨hrunning, rfl, -⟩
  · rcases verdict_eq_stopped.mp hstopped with ⟨hfin, rfl⟩ | ⟨hfin, -, rfl⟩
    · exact ⟨fun h => absurd h hfin, fun h => absurd rfl h⟩
    · exact ⟨nofun, fun _ => hfin⟩
  · exact ⟨nofun, fun _ => (verdict_eq_running.mp hrunning).1⟩

end Verdict

/-! ## Records -/

section Records

variable [OfNat α 10] [Mul α] [Div α] [LT α] [DecidableLT α] [FitScalar α] {visits : List (Visit α)}

/-- The records of visits, numbered from the first pass on. -/
def Visit.records (visits : List (Visit α)) : List (PassRecord α) :=
  visits.mapIdx fun i v => v.solver.entry i v.found

theorem Visit.records_concat (front : List (Visit α)) (v : Visit α) :
    records (front ++ [v]) = records front ++ [v.solver.entry front.length v.found] :=
  List.mapIdx_concat

theorem Visit.mem_records {r : PassRecord α} (h : r ∈ records visits) :
    ∃ i, ∃ v ∈ visits, r = v.solver.entry i v.found := by
  obtain ⟨i, hi, rfl⟩ := List.mem_mapIdx.mp h
  exact ⟨i, _, List.getElem_mem hi, rfl⟩

theorem Visit.iteration_of_getElem? {i : Nat} {r : PassRecord α} (h : (records visits)[i]? = some r) :
    r.iteration = i := by
  rw [records, List.getElem?_mapIdx] at h
  obtain ⟨v, -, rfl⟩ := Option.map_eq_some_iff.mp h
  rfl

theorem Visit.getLast?_records {front : List (Visit α)} {v : Visit α} {r : PassRecord α}
    (h : r ∈ (records (front ++ [v])).getLast?) : r = v.solver.entry front.length v.found := by
  rw [records_concat, List.getLast?_concat] at h
  exact (Option.some.inj h).symm

/-- What holds of neighbouring visits holds of their records. -/
theorem Visit.isChain_records {R : PassRecord α → PassRecord α → Prop}
    (h : visits.IsChain fun v v' =>
      ∀ i, R (v.solver.entry i v.found) (v'.solver.entry (i + 1) v'.found)) :
    (records visits).IsChain R := by
  rw [List.isChain_iff_getElem] at h ⊢
  intro i hi
  unfold records at hi ⊢
  rw [List.length_mapIdx] at hi
  rw [List.getElem_mapIdx, List.getElem_mapIdx]
  exact h i hi i

end Records

/-! ## The visits of a fit -/

section Trail

variable [OfNat α 0] [OfNat α 1] [OfNat α 10] [Add α] [Sub α] [Mul α] [Div α] [Neg α] [BEq α]
  [LE α] [DecidableLE α] [LT α] [DecidableLT α] [FitScalar α]
  {s t : Solver α} {i budget : Nat} {visits : List (Visit α)} {ending : Termination}

/-- Every pass but the last goes on.  The last one stops the fit or uses up the budget, and the fit
ends with the parameters and the damping that it leaves. -/
theorem Trail.ends (htrail : Trail s i budget visits t ending) :
    ∃ front v, visits = front ++ [v] ∧ front.length ≤ budget ∧
      (∀ u ∈ front, u.found.verdict s.settings.minDeltaChi2 = .running) ∧
      t.parameters = v.solver.kept v.found ∧ t.lambda = v.solver.damping v.found ∧
      (v.found.verdict s.settings.minDeltaChi2 = .stopped ending ∨
        v.found.verdict s.settings.minDeltaChi2 = .running ∧ ending = .iterationLimit ∧
          front.length = budget) := by
  induction htrail with
  | stopped _ verdict =>
    exact ⟨[], _, rfl, Nat.zero_le _, fun _ hu => absurd hu List.not_mem_nil, rfl, rfl, .inl verdict⟩
  | exhausted _ verdict =>
    exact ⟨[], _, rfl, Nat.zero_le _, fun _ hu => absurd hu List.not_mem_nil, rfl, rfl,
      .inr ⟨verdict, rfl, rfl⟩⟩
  | @next s t i budget a w visits ending _ verdict _ ih =>
    obtain ⟨front, v, rfl, hlen, hfront, hparameters, hlambda, hlast⟩ := ih
    refine ⟨⟨s, a⟩ :: front, v, rfl, Nat.succ_le_succ hlen, ?_, hparameters, hlambda, ?_⟩
    · intro u hu
      rcases List.mem_cons.mp hu with rfl | hu
      · exact verdict
      · exact hfront u hu
    · rcases hlast with hstopped | ⟨hrunning, hending, hall⟩
      · exact .inl hstopped
      · exact .inr ⟨hrunning, hending, congrArg (· + 1) hall⟩

/-- Each pass starts with the parameters and the damping that the one before it leaves, which had a
finite trial. -/
theorem Trail.follows (htrail : Trail s i budget visits t ending) :
    visits.IsChain fun v v' => v.found.isFinite ∧
      v'.solver.parameters = v.solver.kept v.found ∧ v'.solver.lambda = v.solver.damping v.found := by
  induction htrail with
  | stopped _ _ => exact .singleton _
  | exhausted _ _ => exact .singleton _
  | next _ verdict rest ih =>
    refine List.isChain_cons.mpr ⟨fun v' hv' => ?_, ih⟩
    obtain ⟨a', w', later, -, hvisits⟩ := rest.start
    rw [hvisits] at hv'
    cases hv'
    exact ⟨(Attempt.verdict_eq_running.mp verdict).1, rfl, rfl⟩

/-- **The report of a fit** is read off its visits. -/
theorem Solver.fit_trail {report : FitReport α} (hs : s.Ready)
    (hquiet : s.settings.collectTrace = true → s.trace = #[]) (hfit : s.fit = .ok (report, t)) :
    ∃ visits s' ending chi2, Trail s 0 s.settings.maxIterations visits s' ending ∧
      s.chi2At s'.parameters = .ok chi2 ∧
      report =
        { parameters := s'.parameters
          chi2 := chi2
          iterations := visits.length
          lambda := s'.lambda
          termination := ending
          points := s.points
          trace := if s.settings.collectTrace then some (Visit.records visits) else none } ∧
      t.parameters = s'.parameters ∧ t.lambda = s'.lambda := by
  obtain ⟨visits, s', ending, chi2, w, htrail, hchi2, -, rfl, rfl⟩ := fit_ok hs hfit
  obtain ⟨-, hshares⟩ := htrail.ready hs
  refine ⟨visits, s', ending, chi2, htrail, hchi2, ?_, rfl, rfl⟩
  unfold reportOf points Visit.records
  rw [hshares.settings, hshares.x]
  by_cases hwanted : s.settings.collectTrace
  · rw [if_pos hwanted, if_pos hwanted, htrail.trace hwanted, hquiet hwanted]
    simp only [Nat.zero_add]
    rfl
  · rw [if_neg hwanted, if_neg hwanted]

end Trail

/-! ## The course of a fit in binary64 -/

section Binary64

/-- The damping that a pass leaves, by its record: unchanged where the trial has no finite sum of
squares, after an accepted trial a tenth but at least the least normal number, else tenfold. -/
def PassRecord.dampingFrom (r : PassRecord Float) (before : Float) : Float :=
  if r.trialChi2.isFinite then
    if r.accepted then Binary64.greatest (before / 10) Binary64.leastNormal else before * 10
  else before

/-- Why a fit stopped, by its last record. -/
def PassRecord.ending (r : PassRecord Float) (settings : FitSettings) : Termination :=
  if r.trialChi2.isFinite then
    if (r.chi2 - r.trialChi2).abs < settings.minDeltaChi2 then .converged else .iterationLimit
  else .diverged

/-- The report holds the given records, and they tell the course of a fit from the damping `lambda`
on. -/
structure FitReport.Traced (report : FitReport Float) (settings : FitSettings) (lambda : Float)
    (records : List (PassRecord Float)) : Prop where
  trace : report.trace = some records
  iterations : report.iterations = records.length
  nonempty : 1 ≤ records.length
  bounded : records.length ≤ settings.maxIterations + 1
  numbered : ∀ (i : Nat) (r : PassRecord Float), records[i]? = some r → r.iteration = i
  goes_on : ∀ r ∈ records.dropLast,
    r.trialChi2.isFinite ∧ ¬ (r.chi2 - r.trialChi2).abs < settings.minDeltaChi2
  termination : ∀ r ∈ records.getLast?, report.termination = r.ending settings
  limited : report.termination = .iterationLimit → records.length = settings.maxIterations + 1
  accepted : ∀ r ∈ records, (r.accepted ↔ r.trialChi2.isFinite ∧ r.trialChi2 < r.chi2)
  damped_first : ∀ r ∈ records.head?, r.lambda = r.dampingFrom lambda
  damped_next : records.IsChain fun r r' => r'.lambda = r'.dampingFrom r.lambda
  damped_last : ∀ r ∈ records.getLast?, report.lambda = r.lambda

theorem Solver.relax_eq (lambda : Float) :
    relax lambda = Binary64.greatest (lambda / 10) Binary64.leastNormal := by
  have hfloor : Binary64.leastNormal.isNaN = false := by decide +kernel
  unfold Binary64.greatest
  rw [hfloor]
  rfl

theorem Solver.damping_eq (s : Solver Float) (i : Nat) (a : Attempt Float) :
    s.damping a = (s.entry i a).dampingFrom s.lambda := by
  unfold damping PassRecord.dampingFrom entry Attempt.isFinite tighten
  rw [relax_eq]
  show (if a.trialChi2.isFinite then _ else _) = if a.trialChi2.isFinite then _ else _
  by_cases hfin : a.trialChi2.isFinite
  · have hsame : (FitScalar.isFinite a.trialChi2 && a.isBetter) = a.isBetter := by
      show (a.trialChi2.isFinite && a.isBetter) = a.isBetter
      rw [hfin, Bool.true_and]
    rw [if_pos hfin, if_pos hfin]
    simp only [hsame]
  · rw [if_neg hfin, if_neg hfin]

theorem Solver.ending_entry (s : Solver Float) (i : Nat) (a : Attempt Float)
    (settings : FitSettings) : (s.entry i a).ending settings =
      match a.verdict settings.minDeltaChi2 with
      | .stopped ending => ending
      | .running => .iterationLimit := by
  unfold PassRecord.ending Attempt.verdict
  show (if a.isFinite then
    if FitScalar.abs (a.chi2 - a.trialChi2) < settings.minDeltaChi2 then _ else _ else _) = _
  by_cases hfin : a.isFinite <;>
    by_cases hsmall : FitScalar.abs (a.chi2 - a.trialChi2) < settings.minDeltaChi2 <;>
    simp [hfin, hsmall]

theorem Visit.accepted_iff {visits : List (Visit Float)} {r : PassRecord Float}
    (h : r ∈ records visits) : r.accepted ↔ r.trialChi2.isFinite ∧ r.trialChi2 < r.chi2 := by
  obtain ⟨i, v, -, rfl⟩ := mem_records h
  show (FitScalar.isFinite v.found.trialChi2 && v.found.isBetter) = true ↔ _
  rw [Bool.and_eq_true, Attempt.isBetter, decide_eq_true_iff]
  rfl

section Trail

variable {s t : Solver Float} {i budget : Nat} {visits : List (Visit Float)} {ending : Termination}

theorem Trail.damped_first (htrail : Trail s i budget visits t ending) :
    ∀ r ∈ (Visit.records visits).head?, r.lambda = r.dampingFrom s.lambda := by
  intro r hr
  obtain ⟨found, _, later, -, rfl⟩ := htrail.start
  rw [Visit.records, List.mapIdx_cons] at hr
  cases hr
  exact Solver.damping_eq ..

/-- Each pass goes on from the damping that the one before it has left. -/
theorem Trail.damped_next (htrail : Trail s i budget visits t ending) :
    (Visit.records visits).IsChain fun r r' => r'.lambda = r'.dampingFrom r.lambda := by
  refine Visit.isChain_records (htrail.follows.imp fun u u' ⟨_, _, hlambda⟩ i => ?_)
  show u'.solver.damping u'.found = PassRecord.dampingFrom _ (u.solver.damping u.found)
  rw [← hlambda]
  exact Solver.damping_eq ..

end Trail

/-- **A fit** of a solver that has served any calls returns when its model answers.  Whenever it
returns, its trace tells its course: one record for each pass, numbered in their order; the damping
goes on from what it was when the fit was called; and the last record says why the fit stopped. -/
theorem Solver.fit_traced {u : VectorUnit} {model : Model Float} {settings : FitSettings}
    {x y initial : List Float} {s₀ s : Solver Float} {calls : List (Call Float)}
    {reports : List (FitReport Float)}
    (hnew : Solver.new u model x y initial settings = .ok s₀)
    (hserve : s₀.serve calls = .ok (reports, s)) (hwanted : settings.collectTrace = true) :
    (model.Answers → ∃ report t, s.fit = .ok (report, t)) ∧
    ∀ report t, s.fit = .ok (report, t) →
      ∃ records, report.Traced settings s.lambda records := by
  obtain ⟨hlen, hcount, rfl⟩ := Solver.new_ok hnew
  obtain ⟨hs, htask⟩ := (ready_fresh hlen hcount).serve hserve
  have hmodel : s.model = model := htask.model
  have hsettings : s.settings = settings := htask.settings
  have hquiet : s.settings.collectTrace = true → s.trace = #[] :=
    trace_serve (fun _ => rfl) hserve
  refine ⟨fun hanswers => hs.exists_fit (hmodel ▸ hanswers), fun report t hfit => ?_⟩
  obtain ⟨visits, s', ending, chi2, htrail, -, rfl, -, -⟩ := fit_trail hs hquiet hfit
  rw [hsettings] at htrail ⊢
  rw [if_pos hwanted]
  have hfirst := htrail.damped_first
  have hnext := htrail.damped_next
  obtain ⟨front, v, rfl, hbudget, hfront, -, hlambda, hlast⟩ := htrail.ends
  rw [hsettings] at hfront hlast
  refine ⟨_,
    { trace := rfl
      iterations := (List.length_mapIdx ..).symm
      nonempty := ?nonempty
      bounded := ?bounded
      numbered := fun _ _ => Visit.iteration_of_getElem?
      goes_on := ?goes_on
      termination := ?termination
      limited := ?limited
      accepted := fun _ => Visit.accepted_iff
      damped_first := hfirst
      damped_next := hnext
      damped_last := ?damped_last }⟩
  case nonempty => simp [Visit.records]
  case bounded => simpa [Visit.records] using hbudget
  case goes_on =>
    intro r hr
    rw [Visit.records_concat, List.dropLast_concat] at hr
    obtain ⟨i, u, hu, rfl⟩ := Visit.mem_records hr
    exact Attempt.verdict_eq_running.mp (hfront u hu)
  case termination =>
    intro r hr
    rw [Visit.getLast?_records hr, ending_entry]
    rcases hlast with hstopped | ⟨hrunning, rfl, -⟩
    · rw [hstopped]
    · rw [hrunning]
  case limited =>
    intro hending
    rcases hlast with hstopped | ⟨-, -, hall⟩
    · rcases Attempt.verdict_eq_stopped.mp hstopped with ⟨-, rfl⟩ | ⟨-, -, rfl⟩ <;> cases hending
    · rw [Visit.records, List.length_mapIdx, List.length_append, hall]
      rfl
  case damped_last =>
    intro r hr
    rw [Visit.getLast?_records hr]
    exact hlambda

/-- A line that is fitted a third time, after a fit and the fit of another series. -/
theorem Solver.fit_traced_line :
    let model : Model Float := .polynomial [0.0, 1.0] []
    let x : List Float := [1.0, 2.0, 3.0]
    let settings := { FitSettings.default with maxIterations := 1, collectTrace := true }
    ∃ s₀ reports s report t records,
      Solver.new ⟨.portable, 1024⟩ model x [1.0, 0.5, 4.0] [0.0, 1.0] settings = .ok s₀ ∧
        s₀.serve [.fit, .reload [2.0, 1.0, 0.0] [0.5, 0.5], .fit] = .ok (reports, s) ∧
          s.fit = .ok (report, t) ∧ FitReport.Traced report settings s.lambda records := by
  intro model x settings
  have hanswers : model.Answers := Model.polynomial_answers _ _
  let s₀ : Solver Float := .fresh ⟨.portable, 1024⟩ model x [1.0, 0.5, 4.0] [0.0, 1.0] settings
  have hnew : Solver.new ⟨.portable, 1024⟩ model x [1.0, 0.5, 4.0] [0.0, 1.0] settings = .ok s₀ :=
    Solver.new_eq_fresh (by decide +kernel) (by decide +kernel) (by decide +kernel)
      (List.cons_ne_nil _ _) (by decide +kernel)
  obtain ⟨⟨reports, s⟩, hserve⟩ :
      ∃ r, s₀.serve [.fit, .reload [2.0, 1.0, 0.0] [0.5, 0.5], .fit] = .ok r :=
    exists_of_isOk (by decide +kernel)
  obtain ⟨hreturns, htraced⟩ := Solver.fit_traced hnew hserve rfl
  obtain ⟨report, t, hfit⟩ := hreturns hanswers
  obtain ⟨records, hrecords⟩ := htraced report t hfit
  exact ⟨s₀, reports, s, report, t, records, hnew, hserve, hfit, hrecords⟩

end Binary64

end CurveFit
