import CurveFit.Proofs.Binary64.Order
import CurveFit.Model.Shapes
import CurveFit.Proofs.Fit.Setup
import Mathlib.Data.List.Chain

/-!
# When the sum of squares falls

A pass decides on the trial, and keeps what the constraints make of the decision.  Where the
constraints leave the decision alone, the next pass starts at the sum of squares that was decided on
(`Solver.chi2_after`), which is never larger than the one before.  So the sum of squares rises from
one pass to the next only where a constraint has moved the parameters, and a fit in which none has
does not end at a worse point than it started from (`Solver.fit_rises_only_if_moved`).

The constraints can undo what a step has gained: `Solver.fit_rises_when_moved`.
-/

namespace CurveFit

variable {α : Type}

/-! ## What a pass decides on -/

section Decision

variable [OfNat α 0] [LE α] [DecidableLE α] [LT α] [DecidableLT α] [FitScalar α]

/-- Whether a pass takes its trial. -/
def Attempt.accepted (a : Attempt α) : Bool := a.isFinite && a.isBetter

/-- The sum of squares that a pass decides on. -/
def Attempt.decidedChi2 (a : Attempt α) : α := if a.accepted then a.trialChi2 else a.chi2

/-- The sum of squares at the last trial that visits have accepted, or `start` if they have accepted
none. -/
def Visit.lastAccepted (visits : List (Visit α)) (start : α) : α :=
  ((visits.filter (·.found.accepted)).getLast?.map (·.found.trialChi2)).getD start

omit [OfNat α 0] [LE α] [DecidableLE α] in
theorem Visit.lastAccepted_cons {s : Solver α} {a : Attempt α} (visits : List (Visit α)) :
    lastAccepted (⟨s, a⟩ :: visits) a.chi2 = lastAccepted visits a.decidedChi2 := by
  unfold lastAccepted Attempt.decidedChi2
  by_cases haccepted : a.accepted
  · rw [List.filter_cons, if_pos haccepted, List.getLast?_cons, if_pos haccepted]
    cases (visits.filter (·.found.accepted)).getLast? <;> rfl
  · rw [List.filter_cons, if_neg haccepted, if_neg haccepted]

/-- The parameters that a pass decides on. -/
def Solver.decided (s : Solver α) (a : Attempt α) : List α :=
  if a.accepted then a.trial else s.parameters

/-- The constraints change the parameters that a pass has decided on. -/
def Visit.Moved (v : Visit α) : Prop :=
  v.found.isFinite ∧ v.solver.model.project (v.solver.decided v.found) ≠ v.solver.decided v.found

/-- A pass with a finite trial keeps what the constraints make of its decision. -/
theorem Solver.kept_of_isFinite {s : Solver α} {a : Attempt α} (hfin : a.isFinite) :
    s.kept a = s.model.project (s.decided a) := by
  unfold Solver.kept Solver.decided Attempt.accepted
  rw [if_pos hfin, hfin, Bool.true_and]

theorem Solver.kept_eq_decided {s : Solver α} {a : Attempt α} (h : ¬ (Visit.mk s a).Moved) :
    s.kept a = s.decided a := by
  by_cases hfin : a.isFinite
  · rw [kept_of_isFinite hfin]
    exact not_not.mp fun hne => h ⟨hfin, hne⟩
  · unfold Solver.kept Solver.decided Attempt.accepted
    rw [if_neg hfin, Bool.eq_false_iff.mpr hfin, Bool.false_and]
    rfl

/-- The constraints change the trial that a pass has taken. -/
def Visit.Overruled (v : Visit α) : Prop :=
  v.found.accepted ∧ v.solver.model.project v.found.trial ≠ v.found.trial

/-- From parameters that the constraints leave alone, they move only trials. -/
theorem Visit.Moved.overruled {v : Visit α} (hmoved : v.Moved)
    (hstart : v.solver.model.project v.solver.parameters = v.solver.parameters) :
    v.Overruled := by
  obtain ⟨-, hne⟩ := hmoved
  unfold Solver.decided at hne
  by_cases haccepted : v.found.accepted
  · rw [if_pos haccepted] at hne
    exact ⟨haccepted, hne⟩
  · rw [if_neg haccepted] at hne
    exact absurd hstart hne

theorem Solver.project_kept {s : Solver α} {a : Attempt α}
    (hstart : s.model.project s.parameters = s.parameters) (hstill : ¬ (Visit.mk s a).Moved) :
    s.model.project (s.kept a) = s.kept a := by
  rw [kept_eq_decided hstill]
  by_cases hfin : a.isFinite
  · exact not_not.mp fun hne => hstill ⟨hfin, hne⟩
  · unfold Solver.decided Attempt.accepted
    rw [Bool.eq_false_iff.mpr hfin, Bool.false_and]
    exact hstart

variable [OfNat α 1] [OfNat α 10] [Add α] [Sub α] [Mul α] [Div α] [Neg α] [BEq α]

/-- On a trail that starts from parameters which the constraints leave alone, nothing is moved unless
a trial that was taken is. -/
theorem Trail.exists_overruled {s t : Solver α} {i budget : Nat} {visits : List (Visit α)}
    {ending : Termination} (htrail : Trail s i budget visits t ending)
    (hstart : s.model.project s.parameters = s.parameters) (hmoved : ∃ v ∈ visits, v.Moved) :
    ∃ v ∈ visits, v.Overruled := by
  induction htrail with
  | stopped _ _ =>
    obtain ⟨v, hv, hmoved⟩ := hmoved
    cases List.mem_singleton.mp hv
    exact ⟨_, hv, hmoved.overruled hstart⟩
  | exhausted _ _ =>
    obtain ⟨v, hv, hmoved⟩ := hmoved
    cases List.mem_singleton.mp hv
    exact ⟨_, hv, hmoved.overruled hstart⟩
  | @next s t i budget a w visits ending _ _ _ ih =>
    by_cases hfirst : (Visit.mk s a).Moved
    · exact ⟨_, List.mem_cons_self, hfirst.overruled hstart⟩
    · obtain ⟨v, hv, hmoved⟩ := hmoved
      rcases List.mem_cons.mp hv with rfl | hv
      · exact absurd hmoved hfirst
      · obtain ⟨v', hv', hover⟩ := ih (Solver.project_kept hstart hfirst) ⟨v, hv, hmoved⟩
        exact ⟨v', List.mem_cons_of_mem _ hv', hover⟩

/-- **One pass.**  Unless a constraint moves the parameters, the next pass starts at the sum of
squares that this one has decided on. -/
theorem Solver.chi2_after {s : Solver α} (hs : s.Ready) {a : Attempt α} {w : Workspace α}
    (found : s.attempt = .ok (a, w)) (hstill : ¬ (Visit.mk s a).Moved) {i : Nat} :
    let t := { s with workspace := w }.after i a
    t.chi2At t.parameters = .ok a.decidedChi2 := by
  intro t
  obtain ⟨hchi2, htrial⟩ := hs.measured found
  have hshares : s.SharesData t := .after s w i a
  have hkept : t.parameters = s.decided a := kept_eq_decided hstill
  rw [hshares.chi2At, hkept]
  unfold Solver.decided Attempt.decidedChi2
  by_cases haccepted : a.accepted
  · rw [if_pos haccepted, if_pos haccepted, htrial]
  · rw [if_neg haccepted, if_neg haccepted, hchi2]

/-- Where the constraints leave the parameters alone, each pass starts at the sum of squares that the
one before it has decided on. -/
theorem Trail.starts_at_decided {s t : Solver α} {i budget : Nat} {visits : List (Visit α)}
    {ending : Termination} (htrail : Trail s i budget visits t ending) (hs : s.Ready) :
    visits.IsChain fun v v' => v.Moved ∨ v'.found.chi2 = v.found.decidedChi2 := by
  induction htrail with
  | stopped _ _ => exact .singleton _
  | exhausted _ _ => exact .singleton _
  | @next s t i budget a w visits ending found _ rest ih =>
    have hnext := hs.next found i
    refine List.isChain_cons.mpr ⟨fun v' hv' => ?_, ih hnext⟩
    obtain ⟨a', w', later, found', hvisits⟩ := rest.start
    rw [hvisits] at hv'
    cases hv'
    rw [Classical.or_iff_not_imp_left]
    intro hstill
    exact Except.ok.inj
      ((hnext.measured found').1.symm.trans (Solver.chi2_after hs found hstill))

/-- Where the constraints leave the parameters alone, a trail ends at the sum of squares that it has
accepted last. -/
theorem Trail.ends_at_accepted {s t : Solver α} {i budget : Nat} {visits : List (Visit α)}
    {ending : Termination} (htrail : Trail s i budget visits t ending) (hs : s.Ready)
    (hstill : ∀ v ∈ visits, ¬ v.Moved) {c : α} (hc : s.chi2At s.parameters = .ok c) :
    t.chi2At t.parameters = .ok (Visit.lastAccepted visits c) := by
  induction htrail generalizing c with
  | @stopped s i budget a w ending found _ =>
    cases hc.symm.trans (hs.measured found).1
    rw [Visit.lastAccepted_cons]
    exact Solver.chi2_after hs found (hstill _ (List.mem_singleton_self _))
  | @exhausted s i a w found _ =>
    cases hc.symm.trans (hs.measured found).1
    rw [Visit.lastAccepted_cons]
    exact Solver.chi2_after hs found (hstill _ (List.mem_singleton_self _))
  | @next s t i budget a w visits ending found _ _ ih =>
    cases hc.symm.trans (hs.measured found).1
    rw [Visit.lastAccepted_cons]
    exact ih (hs.next found _) (fun v hv => hstill v (List.mem_cons_of_mem _ hv))
      (Solver.chi2_after hs found (hstill _ List.mem_cons_self))

end Decision

/-! ## Runs in binary64 -/

section Binary64

open Binary64

/-- No pass decides on more than it started from. -/
theorem Attempt.not_lt_decidedChi2 (a : Attempt Float) : ¬ a.chi2 < a.decidedChi2 := by
  unfold decidedChi2
  by_cases haccepted : a.accepted
  · rw [if_pos haccepted]
    exact lt_asymm (of_decide_eq_true (Bool.and_eq_true_iff.mp haccepted).2)
  · rw [if_neg haccepted]
    exact lt_irrefl a.chi2

theorem Attempt.decidedChi2_le {a : Attempt Float} (h : a.chi2.isNaN = false) :
    a.decidedChi2 ≤ a.chi2 := by
  unfold decidedChi2
  by_cases haccepted : a.accepted
  · rw [if_pos haccepted]
    exact le_of_lt (of_decide_eq_true (Bool.and_eq_true_iff.mp haccepted).2)
  · rw [if_neg haccepted]
    exact le_refl h

variable {s t : Solver Float} {i budget : Nat} {visits : List (Visit Float)} {ending : Termination}

/-- The sum of squares rises from one pass to the next only where a constraint has moved the
parameters. -/
theorem Trail.rises_only_if_moved (htrail : Trail s i budget visits t ending) (hs : s.Ready) :
    visits.IsChain fun v v' => v.Moved ∨ ¬ v.found.chi2 < v'.found.chi2 := by
  refine (htrail.starts_at_decided hs).imp fun v v' h => h.imp_right fun hdecided => ?_
  rw [hdecided]
  exact v.found.not_lt_decidedChi2

/-- Where no constraint moves the parameters, the sum of squares does not rise along a trail. -/
theorem Trail.falls (htrail : Trail s i budget visits t ending) (hs : s.Ready)
    (hstill : ∀ v ∈ visits, ¬ v.Moved) {c c' : Float} (hc : s.chi2At s.parameters = .ok c)
    (hnumber : c.isNaN = false) (hc' : t.chi2At t.parameters = .ok c') :
    (visits.map (·.found.chi2) ++ [c']).IsChain (· ≥ ·) := by
  induction htrail generalizing c with
  | @stopped s i budget a w ending found _ =>
    cases hc.symm.trans (hs.measured found).1
    have hafter := Solver.chi2_after hs found (hstill _ (List.mem_singleton_self _)) (i := i)
    cases hc'.symm.trans hafter
    exact List.isChain_pair.mpr (a.decidedChi2_le hnumber)
  | @exhausted s i a w found _ =>
    cases hc.symm.trans (hs.measured found).1
    have hafter := Solver.chi2_after hs found (hstill _ (List.mem_singleton_self _)) (i := i)
    cases hc'.symm.trans hafter
    exact List.isChain_pair.mpr (a.decidedChi2_le hnumber)
  | @next s t i budget a w visits ending found _ rest ih =>
    cases hc.symm.trans (hs.measured found).1
    have hafter := Solver.chi2_after hs found (hstill _ List.mem_cons_self) (i := i)
    have hle := a.decidedChi2_le hnumber
    have hchain := ih (hs.next found _) (fun v hv => hstill v (List.mem_cons_of_mem _ hv))
      hafter (le_iff.mp hle).1 hc'
    obtain ⟨a', w', later, found', rfl⟩ := rest.start
    have hdecided : a'.chi2 = a.decidedChi2 :=
      Except.ok.inj (((hs.next found i).measured found').1.symm.trans hafter)
    rw [← hdecided] at hle
    exact .cons_cons hle hchain

/-- Where no constraint moves the parameters, a trail does not end at more than it starts from. -/
theorem Trail.chi2_le (htrail : Trail s i budget visits t ending) (hs : s.Ready)
    (hstill : ∀ v ∈ visits, ¬ v.Moved) {c : Float} (hc : s.chi2At s.parameters = .ok c)
    (hnumber : c.isNaN = false) : ∃ c', t.chi2At t.parameters = .ok c' ∧ c' ≤ c := by
  have hc' := htrail.ends_at_accepted hs hstill hc
  have hpairwise := (htrail.falls hs hstill hc hnumber hc').pairwise
  obtain ⟨a, w, later, found, rfl⟩ := htrail.start
  cases hc.symm.trans (hs.measured found).1
  exact ⟨_, hc', List.rel_of_pairwise_cons hpairwise
    (List.mem_append_right _ (List.mem_singleton_self _))⟩

/-! ## The whole fit -/

variable {u : VectorUnit} {model : Model Float} {settings : FitSettings}
  {x y initial : List Float} {report : FitReport Float}

/-- **A fit** of a new solver records its passes.  From one pass to the next the sum of squares
rises only where a constraint has moved the parameters, and unless one has, the report is on a point
that is no worse than the starting point.  Where the constraints leave the starting point alone, nothing
is moved unless an accepted trial is. -/
theorem Solver.fit_rises_only_if_moved (hnew : Solver.new u model x y initial settings = .ok s)
    (hfit : s.fit = .ok (report, t)) :
    ∃ visits s' ending, Trail s 0 settings.maxIterations visits s' ending ∧
      report.trace = (if settings.collectTrace then
        some (visits.mapIdx fun i v => v.solver.entry i v.found) else none) ∧
      (visits.IsChain fun v v' => v.Moved ∨ ¬ v.found.chi2 < v'.found.chi2) ∧
      (∀ start, s.chi2At initial = .ok start → start.isFinite →
        (∃ v ∈ visits, v.Moved) ∨ report.chi2 ≤ start) ∧
      (model.project initial = initial → (∃ v ∈ visits, v.Moved) →
        ∃ v ∈ visits, v.Overruled) := by
  obtain ⟨hlen, hcount, rfl⟩ := Solver.new_ok hnew
  have hs : (fresh u model x y initial settings).Ready := ready_fresh hlen hcount
  obtain ⟨visits, s', ending, chi2, w, htrail, hchi2, -, rfl, -⟩ := fit_ok hs hfit
  obtain ⟨-, hshares⟩ := htrail.ready hs
  refine ⟨visits, s', ending, htrail, ?trace, htrail.rises_only_if_moved hs, ?progress,
    htrail.exists_overruled⟩
  case trace =>
    have hsettings : s'.settings = settings := hshares.settings
    show (if s'.settings.collectTrace then some s'.trace.toList else none) = _
    rw [hsettings]
    by_cases hwanted : settings.collectTrace
    · rw [if_pos hwanted, if_pos hwanted, htrail.trace hwanted]
      simp only [Nat.zero_add]
      rfl
    · rw [if_neg hwanted, if_neg hwanted]
  case progress =>
    intro start hstart hfinite
    rw [Classical.or_iff_not_imp_left]
    intro hnone
    have hstill : ∀ v ∈ visits, ¬ v.Moved := fun v hv hmoved => hnone ⟨v, hv, hmoved⟩
    obtain ⟨c', hc', hle⟩ := htrail.chi2_le hs hstill hstart (isNaN_of_isFinite hfinite)
    rw [hshares.chi2At, hchi2] at hc'
    cases hc'
    exact hle

/-- A line that starts at `y = x` and is fitted to falling points. -/
theorem Solver.fit_rises_only_if_moved_line :
    let model : Model Float := .polynomial [0.0, 1.0] [.nonNegative]
    let settings := FitSettings.default
    ∃ s report t visits s' ending start,
      Solver.new ⟨.avx2, 1024⟩ model [1.0, 2.0] [2.0, 1.0] [0.0, 1.0] settings = .ok s ∧
        s.fit = .ok (report, t) ∧ Trail s 0 settings.maxIterations visits s' ending ∧
          s.chi2At [0.0, 1.0] = .ok start ∧ start.isFinite ∧
            ((∃ v ∈ visits, v.Moved) ∨ report.chi2 ≤ start) := by
  intro model settings
  let s : Solver Float :=
    .fresh ⟨.avx2, 1024⟩ model [1.0, 2.0] [2.0, 1.0] [0.0, 1.0] settings
  have hnew : Solver.new ⟨.avx2, 1024⟩ model [1.0, 2.0] [2.0, 1.0] [0.0, 1.0] settings = .ok s :=
    Solver.new_eq_fresh (by decide +kernel) (by decide) (by decide) (List.cons_ne_nil _ _)
      (by decide +kernel)
  obtain ⟨⟨report, t⟩, hfit⟩ : ∃ r, s.fit = .ok r := exists_of_isOk (by decide +kernel)
  obtain ⟨start, hstart, hfinite⟩ : ∃ c, s.chi2At [0.0, 1.0] = .ok c ∧ c.isFinite :=
    exists_of_any (by decide +kernel)
  obtain ⟨visits, s', ending, htrail, -, -, hprogress, -⟩ :=
    Solver.fit_rises_only_if_moved hnew hfit
  exact ⟨_, report, t, visits, s', ending, start, hnew, hfit, htrail, hstart, hfinite,
    hprogress start hstart hfinite⟩

/-- A step that a constraint undoes.  The first parameter starts on its bound and the accepted step
takes it across; moved back, the next pass starts at more than the first one did, and the report is
on a worse point than the starting point. -/
theorem Solver.fit_rises_when_moved :
    let model : Model Float := .polynomial [0.0, 0.25] [.nonNegative, .none]
    let settings := { FitSettings.default with maxIterations := 1, collectTrace := true }
    ∃ s report t start records,
      Solver.new ⟨.avx2, 1024⟩ model [1.0, 2.0] [-1.0, 1.0] [0.0, 0.25] settings = .ok s ∧
        (Constraint.admits .nonNegative 0.0 ∧ Constraint.admits .none 0.25) ∧
          s.chi2At [0.0, 0.25] = .ok start ∧ start.isFinite ∧ s.fit = .ok (report, t) ∧
            ¬ report.chi2 ≤ start ∧ report.trace = some records ∧
              ¬ records.IsChain fun r r' => ¬ r.chi2 < r'.chi2 := by
  intro model settings
  let s : Solver Float :=
    .fresh ⟨.avx2, 1024⟩ model [1.0, 2.0] [-1.0, 1.0] [0.0, 0.25] settings
  have hnew : Solver.new ⟨.avx2, 1024⟩ model [1.0, 2.0] [-1.0, 1.0] [0.0, 0.25] settings = .ok s :=
    Solver.new_eq_fresh (by decide +kernel) (by decide) (by decide) (List.cons_ne_nil _ _)
      (by decide +kernel)
  obtain ⟨start, hstart, hvalue⟩ : ∃ c, s.chi2At [0.0, 0.25] = .ok c ∧ decide (c = 1.8125) :=
    exists_of_any (by decide +kernel)
  obtain ⟨⟨report, t⟩, hfit, hrises⟩ : ∃ r, s.fit = .ok r ∧ (decide (¬ r.1.chi2 ≤ 1.8125) &&
      r.1.trace.any fun records => decide (¬ records.IsChain fun r r' => ¬ r.chi2 < r'.chi2)) :=
    exists_of_any (by decide +kernel)
  obtain ⟨hworse, htrace⟩ := Bool.and_eq_true_iff.mp hrises
  obtain ⟨records, hrecords, hchain⟩ := (Option.any_eq_true _ _).mp htrace
  cases of_decide_eq_true hvalue
  exact ⟨_, report, t, _, records, hnew, ⟨by decide +kernel, by decide +kernel⟩, hstart,
    by decide +kernel, hfit, of_decide_eq_true hworse, hrecords, of_decide_eq_true hchain⟩

end Binary64

end CurveFit
