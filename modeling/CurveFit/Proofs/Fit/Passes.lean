import CurveFit.Proofs.Fit.Ready

/-!
# One pass, and the passes of a fit

`Solver.conclude_eq` says once what a pass does with what it has found.  The passes of a fit form a
`Trail`: a list of visits, each a solver at the start of a pass with what the pass found there.
`Solver.passes_eq_ok_iff` turns the recursion of a fit into trails, so that what holds along every
fit is proved by induction on them; `Trail.ready` is the first such fact.
-/

namespace CurveFit

variable {α : Type}

/-! ## One pass -/

section Pass

variable [OfNat α 0] [LE α] [DecidableLE α] [LT α] [DecidableLT α] [FitScalar α]

theorem Model.length_project {m : Model α} {values : List α} (h : values.length = m.parameterCount) :
    (m.project values).length = m.parameterCount := by
  unfold Model.project
  rw [List.length_zipWith, h]
  exact Nat.min_self _

variable [OfNat α 10] [Sub α] [Mul α] [Div α]

/-- Whether a trial has a finite sum of squares. -/
def Attempt.isFinite (a : Attempt α) : Bool := FitScalar.isFinite a.trialChi2

/-- How a pass ends that has found `a`. -/
def Attempt.verdict (a : Attempt α) (minDelta : α) : Verdict :=
  if a.isFinite then
    if FitScalar.abs (a.chi2 - a.trialChi2) < minDelta then .stopped .converged else .running
  else .stopped .diverged

namespace Solver

variable {s : Solver α}

/-- The parameters after a pass. -/
def kept (s : Solver α) (a : Attempt α) : List α :=
  if a.isFinite then s.model.project (if a.isBetter then a.trial else s.parameters)
  else s.parameters

/-- The damping after a pass. -/
def damping (s : Solver α) (a : Attempt α) : α :=
  if a.isFinite then if a.isBetter then relax s.lambda else tighten s.lambda else s.lambda

/-- The record of a pass. -/
def entry (s : Solver α) (iteration : Nat) (a : Attempt α) : PassRecord α :=
  ⟨iteration, a.chi2, a.trialChi2, s.damping a, a.isFinite && a.isBetter⟩

/-- The solver after a pass. -/
def after (s : Solver α) (iteration : Nat) (a : Attempt α) : Solver α :=
  { s with
    parameters := s.kept a
    lambda := s.damping a
    trace := if s.settings.collectTrace then s.trace.push (s.entry iteration a) else s.trace }

/-- **One pass.**  What a pass does with what it has found. -/
theorem conclude_eq (s : Solver α) (iteration : Nat) (a : Attempt α) :
    s.conclude iteration a = (s.after iteration a, a.verdict s.settings.minDeltaChi2) := by
  unfold conclude after kept damping entry damping Attempt.verdict Attempt.isFinite record settle
  by_cases hfin : FitScalar.isFinite a.trialChi2 <;> by_cases hct : s.settings.collectTrace <;>
    by_cases hstop : FitScalar.abs (a.chi2 - a.trialChi2) < s.settings.minDeltaChi2 <;>
    simp [hfin, hct, hstop]

omit [OfNat α 10] [Sub α] [Mul α] [Div α] in
/-- A pass keeps the number of parameters. -/
theorem length_kept (hs : s.parameters.length = s.model.parameterCount) {a : Attempt α}
    (ha : a.trial.length = s.model.parameterCount) :
    (s.kept a).length = s.model.parameterCount := by
  unfold kept
  by_cases hfin : a.isFinite
  · rw [if_pos hfin]
    by_cases hbetter : a.isBetter
    · rw [if_pos hbetter, Model.length_project ha]
    · rw [if_neg hbetter, Model.length_project hs]
  · rw [if_neg hfin, hs]

omit [Sub α] in
/-- A workspace that fits makes the solver after a pass ready. -/
theorem Ready.after (hs : s.Ready) {w : Workspace α}
    (hw : w.Fits s.points s.model.parameterCount) {a : Attempt α}
    (ha : a.trial.length = s.model.parameterCount) (iteration : Nat) :
    ({ s with workspace := w }.after iteration a).Ready where
  points := hs.points
  observed := hs.observed
  counted := length_kept hs.counted ha
  fits := hw

end Solver

end Pass

/-! ## What solvers share -/

namespace Solver

/-- Two solvers share everything that is settled when a solver is set up. -/
structure SharesTask (s t : Solver α) : Prop where
  unit : t.unit = s.unit
  model : t.model = s.model
  settings : t.settings = s.settings
  sourceLength : t.sourceLength = s.sourceLength
  x : t.x = s.x

/-- Two solvers share everything that passes leave alone. -/
structure SharesData (s t : Solver α) : Prop extends SharesTask s t where
  y : t.y = s.y

variable {s t u : Solver α}

theorem SharesTask.refl (s : Solver α) : s.SharesTask s := ⟨rfl, rfl, rfl, rfl, rfl⟩

theorem SharesTask.trans (hst : s.SharesTask t) (htu : t.SharesTask u) : s.SharesTask u where
  unit := htu.unit.trans hst.unit
  model := htu.model.trans hst.model
  settings := htu.settings.trans hst.settings
  sourceLength := htu.sourceLength.trans hst.sourceLength
  x := htu.x.trans hst.x

theorem SharesData.refl (s : Solver α) : s.SharesData s := ⟨.refl s, rfl⟩

theorem SharesData.trans (hst : s.SharesData t) (htu : t.SharesData u) : s.SharesData u where
  toSharesTask := hst.toSharesTask.trans htu.toSharesTask
  y := htu.y.trans hst.y

/-- Solvers that share their data have one sum of squares. -/
theorem SharesData.chi2At [OfNat α 0] [Add α] [Sub α] [Mul α] [Div α] [Neg α]
    (h : s.SharesData t) (values : List α) : t.chi2At values = s.chi2At values := by
  unfold Solver.chi2At Solver.chi2Of Solver.misses
  rw [h.unit, h.model, h.x, h.y]

end Solver

/-! ## The passes of a fit -/

section Trail

variable [OfNat α 0] [OfNat α 1] [OfNat α 10] [Add α] [Sub α] [Mul α] [Div α] [Neg α] [BEq α]
  [LE α] [DecidableLE α] [LT α] [DecidableLT α] [FitScalar α]

/-- A pass: the solver it starts from, and what it finds. -/
structure Visit (α : Type) where
  solver : Solver α
  found : Attempt α

/-- `Trail s i budget visits t ending`: from `s`, the visits are the passes number `i` and on, at
most `budget` of them after the first, and the fit stops at `t` for the reason `ending`. -/
inductive Trail : Solver α → Nat → Nat → List (Visit α) → Solver α → Termination → Prop
  | stopped {s : Solver α} {i budget : Nat} {a : Attempt α} {w : Workspace α} {ending : Termination}
      (found : s.attempt = .ok (a, w))
      (verdict : a.verdict s.settings.minDeltaChi2 = .stopped ending) :
      Trail s i budget [⟨s, a⟩] ({ s with workspace := w }.after i a) ending
  | exhausted {s : Solver α} {i : Nat} {a : Attempt α} {w : Workspace α}
      (found : s.attempt = .ok (a, w)) (verdict : a.verdict s.settings.minDeltaChi2 = .running) :
      Trail s i 0 [⟨s, a⟩] ({ s with workspace := w }.after i a) .iterationLimit
  | next {s t : Solver α} {i budget : Nat} {a : Attempt α} {w : Workspace α}
      {visits : List (Visit α)} {ending : Termination} (found : s.attempt = .ok (a, w))
      (verdict : a.verdict s.settings.minDeltaChi2 = .running)
      (rest : Trail ({ s with workspace := w }.after i a) (i + 1) budget visits t ending) :
      Trail s i (budget + 1) (⟨s, a⟩ :: visits) t ending

variable {s t : Solver α} {i budget n : Nat} {visits : List (Visit α)} {ending : Termination}

theorem Solver.pass_eq_ok_iff {verdict : Verdict} :
    s.pass i = .ok (t, verdict) ↔ ∃ a w, s.attempt = .ok (a, w) ∧
      t = { s with workspace := w }.after i a ∧ verdict = a.verdict s.settings.minDeltaChi2 := by
  unfold Solver.pass
  constructor
  · intro h
    obtain ⟨⟨a, w⟩, hattempt, h⟩ := bind_eq_ok_iff.mp h
    have h := Except.ok.inj h
    rw [Solver.conclude_eq] at h
    cases h
    exact ⟨a, w, hattempt, rfl, rfl⟩
  · rintro ⟨a, w, hattempt, rfl, rfl⟩
    rw [hattempt]
    exact congrArg Except.ok (Solver.conclude_eq ..)

/-- **The passes of a fit** are the visits of a trail. -/
theorem Solver.passes_eq_ok_iff :
    s.passes i budget = .ok (t, n, ending) ↔
      ∃ visits, Trail s i budget visits t ending ∧ n = i + visits.length := by
  constructor
  · intro h
    induction budget generalizing s i with
    | zero =>
      unfold passes at h
      obtain ⟨⟨s', verdict⟩, hpass, h⟩ := bind_eq_ok_iff.mp h
      obtain ⟨a, w, hattempt, rfl, hverdict⟩ := pass_eq_ok_iff.mp hpass
      cases verdict with
      | stopped e =>
        cases h
        exact ⟨_, .stopped hattempt hverdict.symm, rfl⟩
      | running =>
        cases h
        exact ⟨_, .exhausted hattempt hverdict.symm, rfl⟩
    | succ budget ih =>
      unfold passes at h
      obtain ⟨⟨s', verdict⟩, hpass, h⟩ := bind_eq_ok_iff.mp h
      obtain ⟨a, w, hattempt, rfl, hverdict⟩ := pass_eq_ok_iff.mp hpass
      cases verdict with
      | stopped e =>
        cases h
        exact ⟨_, .stopped hattempt hverdict.symm, rfl⟩
      | running =>
        obtain ⟨visits, htrail, hn⟩ := ih h
        refine ⟨_, .next hattempt hverdict.symm htrail, ?_⟩
        rw [hn, List.length_cons]
        omega
  · rintro ⟨visits, htrail, rfl⟩
    induction htrail with
    | stopped found verdict =>
      unfold passes
      rw [pass_eq_ok_iff.mpr ⟨_, _, found, rfl, verdict.symm⟩]
      rfl
    | exhausted found verdict =>
      unfold passes
      rw [pass_eq_ok_iff.mpr ⟨_, _, found, rfl, verdict.symm⟩]
      rfl
    | next found verdict rest ih =>
      unfold passes
      rw [pass_eq_ok_iff.mpr ⟨_, _, found, rfl, verdict.symm⟩]
      refine ih.trans ?_
      rw [List.length_cons, Nat.add_assoc, Nat.add_comm 1]

omit [OfNat α 1] [Add α] [Sub α] [Neg α] [BEq α] in
theorem Solver.SharesData.after (s : Solver α) (w : Workspace α) (i : Nat) (a : Attempt α) :
    s.SharesData ({ s with workspace := w }.after i a) :=
  ⟨⟨rfl, rfl, rfl, rfl, rfl⟩, rfl⟩

/-- A pass of a ready solver leaves it ready. -/
theorem Solver.Ready.next (hs : s.Ready) {a : Attempt α} {w : Workspace α}
    (found : s.attempt = .ok (a, w)) (i : Nat) :
    ({ s with workspace := w }.after i a).Ready := by
  obtain ⟨hw, hfind⟩ := attempt_ok hs found
  exact hs.after hw (findWith_ok hs hfind).2.1 i

/-- The passes of a ready solver leave it ready and its data alone. -/
theorem Trail.ready (htrail : Trail s i budget visits t ending) (hs : s.Ready) :
    t.Ready ∧ s.SharesData t := by
  induction htrail with
  | stopped found _ => exact ⟨hs.next found _, .after ..⟩
  | exhausted found _ => exact ⟨hs.next found _, .after ..⟩
  | next found _ _ ih =>
    obtain ⟨hready, hshares⟩ := ih (hs.next found _)
    exact ⟨hready, (Solver.SharesData.after ..).trans hshares⟩

/-- The first visit of a trail is where it starts. -/
theorem Trail.start (htrail : Trail s i budget visits t ending) :
    ∃ a w rest, s.attempt = .ok (a, w) ∧ visits = ⟨s, a⟩ :: rest := by
  cases htrail with
  | stopped found _ => exact ⟨_, _, _, found, rfl⟩
  | exhausted found _ => exact ⟨_, _, _, found, rfl⟩
  | next found _ _ => exact ⟨_, _, _, found, rfl⟩

/-- A trace that is wanted grows by one record for each visit. -/
theorem Trail.trace (htrail : Trail s i budget visits t ending)
    (hwanted : s.settings.collectTrace = true) :
    t.trace.toList = s.trace.toList ++ visits.mapIdx fun j v => v.solver.entry (i + j) v.found := by
  have hpush : ∀ (s : Solver α) (i : Nat) (a : Attempt α) (w : Workspace α),
      s.settings.collectTrace = true →
      ({ s with workspace := w }.after i a).trace.toList = s.trace.toList ++ [s.entry i a] := by
    intro s i a w hwanted
    show (if s.settings.collectTrace = true then s.trace.push (s.entry i a) else _).toList = _
    rw [if_pos hwanted, Array.toList_push]
  induction htrail with
  | stopped found _ => exact hpush _ _ _ _ hwanted
  | exhausted found _ => exact hpush _ _ _ _ hwanted
  | next found _ _ ih =>
    rw [ih hwanted, hpush _ _ _ _ hwanted, List.mapIdx_cons, List.append_assoc]
    simp only [Nat.add_assoc, Nat.add_comm 1]
    rfl

/-! ## The whole fit -/

namespace Solver

omit [OfNat α 0] [OfNat α 1] [OfNat α 10] [Add α] [Sub α] [Mul α] [Div α] [Neg α] [BEq α]
  [LE α] [DecidableLE α] [LT α] [DecidableLT α] [FitScalar α]

/-- The report on passes that ended at a solver. -/
def reportOf (s : Solver α) (chi2 : α) (iterations : Nat) (ending : Termination) : FitReport α :=
  { parameters := s.parameters
    chi2 := chi2
    iterations := iterations
    lambda := s.lambda
    termination := ending
    points := s.points
    trace := if s.settings.collectTrace then some s.trace.toList else none }

/-- The solver once its trace has been handed out. -/
def rested (s : Solver α) (w : Workspace α) : Solver α :=
  { s with workspace := w, trace := if s.settings.collectTrace then #[] else s.trace }

variable [OfNat α 0]

theorem Ready.rested (hs : s.Ready) {w : Workspace α}
    (hw : w.Fits s.points s.model.parameterCount) : (s.rested w).Ready :=
  ⟨hs.points, hs.observed, hs.counted, hw⟩

variable [OfNat α 1] [OfNat α 10] [Add α] [Sub α] [Mul α] [Div α] [Neg α] [BEq α]
  [LE α] [DecidableLE α] [LT α] [DecidableLT α] [FitScalar α]

theorem fit_eq_ok_iff {report : FitReport α} :
    s.fit = .ok (report, t) ↔ ∃ s' n ending chi2 w,
      s.passes 0 s.settings.maxIterations = .ok (s', n, ending) ∧
        s'.chiSquared s'.parameters s'.workspace = .ok (chi2, w) ∧
          report = s'.reportOf chi2 n ending ∧ t = s'.rested w := by
  unfold fit
  constructor
  · intro h
    obtain ⟨⟨s', n, ending⟩, hpasses, h⟩ := bind_eq_ok_iff.mp h
    obtain ⟨⟨chi2, w⟩, hchi2, h⟩ := bind_eq_ok_iff.mp h
    cases h
    exact ⟨s', n, ending, chi2, w, hpasses, hchi2, rfl, rfl⟩
  · rintro ⟨s', n, ending, chi2, w, hpasses, hchi2, rfl, rfl⟩
    rw [hpasses]
    show Except.bind (s'.chiSquared _ _) _ = _
    rw [hchi2]
    rfl

/-- **A fit** of a ready solver is a trail, and its report is on the solver where the trail ends. -/
theorem fit_ok (hs : s.Ready) {report : FitReport α} (h : s.fit = .ok (report, t)) :
    ∃ visits s' ending chi2 w, Trail s 0 s.settings.maxIterations visits s' ending ∧
      s.chi2At s'.parameters = .ok chi2 ∧ w.Fits s'.points s'.model.parameterCount ∧
        report = s'.reportOf chi2 visits.length ending ∧ t = s'.rested w := by
  obtain ⟨s', n, ending, chi2, w, hpasses, hchi2, hreport, ht⟩ := fit_eq_ok_iff.mp h
  obtain ⟨visits, htrail, rfl⟩ := passes_eq_ok_iff.mp hpasses
  obtain ⟨hready, hshares⟩ := htrail.ready hs
  obtain ⟨hat, hw⟩ := chiSquared_ok hready.observed hready.fits hchi2
  rw [hshares.chi2At] at hat
  rw [Nat.zero_add] at hreport
  exact ⟨visits, s', ending, chi2, w, htrail, hat, hw, hreport, ht⟩

/-- A fit leaves a ready solver ready and its data alone. -/
theorem Ready.fit (hs : s.Ready) {report : FitReport α} (h : s.fit = .ok (report, t)) :
    t.Ready ∧ s.SharesData t := by
  obtain ⟨visits, s', ending, chi2, w, htrail, _, hw, _, rfl⟩ := fit_ok hs h
  obtain ⟨hready, hshares⟩ := htrail.ready hs
  exact ⟨hready.rested hw, ⟨⟨hshares.unit, hshares.model, hshares.settings,
    hshares.sourceLength, hshares.x⟩, hshares.y⟩⟩

end Solver

end Trail

end CurveFit
