import CurveFit.Proofs.Fit.Answers
import CurveFit.Proofs.Fit.Descent
import CurveFit.Proofs.Fit.Exact
import CurveFit.Proofs.Fit.History
import CurveFit.Proofs.Fit.Points

/-!
# Fits of linear models

The curve of a linear model is a fixed curve plus a combination of basis curves, with the parameters
as coefficients (`Model.LinearIn`).  A pass then moves the residual along the derivatives
(`Solver.missed_add`).  So in exact arithmetic its increment makes the sum of squares fall unless
the gradient is zero, and where the gradient is zero the sum is the least that any parameters give: a
fit of a linear model without constraints rejects no trial before it has reached the minimum
(`Solver.fit_linear`).
-/

namespace CurveFit

open LaneVector Matrix

variable {α : Type} [Field α] {p : ℕ}

/-- A model is linear in its parameters: its curve is `base` plus the combination of the `basis`
curves whose coefficients are the parameters. -/
structure Model.LinearIn (m : Model α) (base : α → α) (basis : Fin p → α → α) : Prop where
  counted : m.parameterCount = p
  curve : ∀ c : Fin p → α, ∃ f, m.curve (List.ofFn c) = .ok f ∧
    ∀ x, f x = base x + ∑ j, c j * basis j x
  slopes : ∀ c : Fin p → α, ∃ d, m.slopes (List.ofFn c) = .ok d ∧
    ∀ x, d x = List.ofFn fun j => basis j x

omit [Field α] in
theorem exists_ofFn_of_length {l : List α} (h : l.length = p) :
    ∃ c : Fin p → α, l = List.ofFn c := by
  subst h
  exact ⟨l.get, (List.ofFn_get l).symm⟩

namespace Model.LinearIn

variable {m : Model α} {base : α → α} {basis : Fin p → α → α}

theorem answers (hm : m.LinearIn base basis) : m.Answers where
  curve values hvalues := by
    obtain ⟨c, rfl⟩ := exists_ofFn_of_length (hvalues.trans hm.counted)
    obtain ⟨f, hf, -⟩ := hm.curve c
    exact ⟨f, hf⟩
  slopes values hvalues := by
    obtain ⟨c, rfl⟩ := exists_ofFn_of_length (hvalues.trans hm.counted)
    obtain ⟨d, hd, hrow⟩ := hm.slopes c
    refine ⟨d, hd, fun x => ?_⟩
    rw [hrow, List.length_ofFn, hm.counted]

theorem fillsSlots (hm : m.LinearIn base basis) : m.FillsSlots := by
  intro values d hvalues hd x
  obtain ⟨c, rfl⟩ := exists_ofFn_of_length (hvalues.trans hm.counted)
  obtain ⟨d', hd', hrow⟩ := hm.slopes c
  obtain rfl : d = d' := Except.ok.inj ((Model.slopes_of_some hd).symm.trans hd')
  rw [hrow, List.length_ofFn, hm.counted]

end Model.LinearIn

/-! ## Residuals and derivatives -/

namespace Solver

variable {s : Solver α} {base : α → α} {basis : Fin p → α → α}

/-- The derivatives of a linear model at the points of a solver. -/
def design (s : Solver α) (basis : Fin p → α → α) : Matrix (Fin s.points) (Fin p) α :=
  fun i j => basis j (s.x.get i)

/-- What a curve misses of the observation at a point. -/
def missed (s : Solver α) (f : α → α) : Fin s.points → α :=
  fun i => s.y.lanes.getD i 0 - f (s.x.get i)

/-- The derivatives times what a curve misses, summed over the points: half the direction in which
the sum of squares falls. -/
def gradient (s : Solver α) (basis : Fin p → α → α) (f : α → α) : Fin p → α :=
  (s.design basis)ᵀ *ᵥ s.missed f

theorem misses_eq_ofFn (hs : s.y.HasLanes s.points) (f : α → α) :
    s.misses f = List.ofFn (s.missed f) := by
  obtain ⟨ys, hys, hy⟩ := hs
  unfold misses missed
  rw [hy, lanes_ofLanes]
  apply List.ext_getElem
  · rw [List.length_zipWith, List.length_map, List.length_ofFn, hys]
    exact Nat.min_self _
  · intro i hi _
    have hiy : i < ys.length := (List.lt_length_left_of_zipWith hi)
    rw [List.getElem_zipWith, List.getElem_map, List.getElem_ofFn]
    show _ = ys.getD i 0 - _
    rw [List.getD_eq_getElem _ _ hiy]
    rfl

theorem chi2Of_eq (hs : s.y.HasLanes s.points) (f : α → α) :
    s.chi2Of f = s.missed f ⬝ᵥ s.missed f := by
  unfold chi2Of
  rw [misses_eq_ofFn hs, Kernel.productSum_ofFn]

/-- Moving the coefficients moves the residual along the derivatives. -/
theorem missed_add {c v : Fin p → α} {f g : α → α} (hf : ∀ x, f x = base x + ∑ j, c j * basis j x)
    (hg : ∀ x, g x = base x + ∑ j, (c + v) j * basis j x) :
    s.missed g = s.missed f - s.design basis *ᵥ v := by
  funext i
  show _ - g _ = _ - f _ - ∑ j, basis j _ * v j
  have hsum : ∑ j, (c + v) j * basis j (s.x.get i) =
      ∑ j, c j * basis j (s.x.get i) + ∑ j, basis j (s.x.get i) * v j := by
    rw [← Finset.sum_add_distrib]
    refine Finset.sum_congr rfl fun j _ => ?_
    rw [Pi.add_apply, add_mul, mul_comm (v j)]
  rw [hf, hg, hsum]
  abel

theorem slotLanes_design {d : α → List α} (hd : ∀ x, d x = List.ofFn fun j => basis j x) {j : ℕ}
    (hj : j < p) : slotLanes (s.x.map d) j = columnLanes (s.design basis) j := by
  rw [columnLanes_eq _ ⟨j, hj⟩]
  unfold slotLanes
  rw [List.map_map]
  apply List.ext_getElem
  · simp [points]
  · intro i hi _
    rw [List.getElem_map, List.getElem_ofFn]
    simp [hd, hj]
    rfl

variable [DecidableEq α]

/-- The trial of a pass solves the damped normal equations for the derivatives and the residual. -/
theorem trialFrom_linear (hs : s.Ready) (hm : s.model.LinearIn base basis) {c : Fin p → α}
    (hc : s.parameters = List.ofFn c) {buffer : List α}
    (hb : buffer.length = s.model.parameterCount) (f : α → α) :
    ∃ system : SquareSystem α p, system.coeff = dampedGram (s.design basis) s.lambda ∧
      system.target = s.gradient basis f ∧
      s.trialFrom (s.misses f) buffer = .ok (List.ofFn (c + system.solve.unknowns.get)) := by
  obtain ⟨d, hd, hrow⟩ := hm.slopes c
  obtain ⟨system, hcoeff, htarget, hincrement, -⟩ :=
    s.unit.kernel.exists_normalSystem (s.design basis) (s.missed f) s.lambda
  refine ⟨system, hcoeff, htarget, ?_⟩
  have hcolumns : s.unit.kernel.increment s.lambda (slotLanes (s.x.map d)) (s.misses f) p =
      s.unit.kernel.increment s.lambda (columnLanes (s.design basis)) (s.misses f) p := by
    refine Kernel.increment_congr (fun i hi j hj => ?_) (fun j hj => ?_) s.lambda
    · rw [slotLanes_design hrow hi, slotLanes_design hrow hj]
    · rw [slotLanes_design hrow hj]
  rw [trialFrom_eq hs.counted hm.fillsSlots hb, hc, hd, hm.counted]
  show Except.ok (List.zipWith _ _ _) = _
  rw [hcolumns, misses_eq_ofFn hs.observed, hincrement, zipWith_ofFn]
  rfl

end Solver

/-! ## One pass -/

section Ordered

variable [LinearOrder α] [IsStrictOrderedRing α]

namespace Solver

variable {s t : Solver α} {base : α → α} {basis : Fin p → α → α}

/-- Without a gradient no parameters give a smaller sum of squares. -/
theorem chi2Of_le (hs : s.Ready) (hm : s.model.LinearIn base basis) {c : Fin p → α} {f : α → α}
    (hf : ∀ x, f x = base x + ∑ j, c j * basis j x) (hgradient : s.gradient basis f = 0)
    {values : List α} (hvalues : values.length = p) :
    ∃ chi2, s.chi2At values = .ok chi2 ∧ s.chi2Of f ≤ chi2 := by
  obtain ⟨c', rfl⟩ := exists_ofFn_of_length hvalues
  obtain ⟨g, hcurve, hg⟩ := hm.curve c'
  rw [← add_sub_cancel c c'] at hg
  refine ⟨s.chi2Of g, map_eq_ok_iff.mpr ⟨g, hcurve, rfl⟩, ?_⟩
  rw [chi2Of_eq hs.observed, chi2Of_eq hs.observed, missed_add hf hg]
  exact dotProduct_self_le hgradient _

/-- **The step.**  The trial of a pass moves the coefficients by a solution of the damped normal
equations, and the residual with them. -/
theorem Ready.attempt_linear (hs : s.Ready) (hm : s.model.LinearIn base basis)
    (hlambda : 0 < s.lambda) {c : Fin p → α} {f : α → α} (hc : s.parameters = List.ofFn c)
    (hcurve : s.model.curve s.parameters = .ok f) (hf : ∀ x, f x = base x + ∑ j, c j * basis j x)
    {a : Attempt α} {w : Workspace α} (hattempt : s.attempt = .ok (a, w)) :
    ∃ δ g, a.chi2 = s.chi2Of f ∧ a.trial = List.ofFn (c + δ) ∧ a.trialChi2 = s.chi2Of g ∧
      s.missed g = s.missed f - s.design basis *ᵥ δ ∧
      dampedGram (s.design basis) s.lambda *ᵥ δ = s.gradient basis f ∧
      (∀ j ∈ idleColumns (s.design basis), δ j = 0) ∧
      (s.gradient basis f ≠ 0 → 0 < δ ⬝ᵥ s.gradient basis f) := by
  obtain ⟨system, hcoeff, htarget, htrial⟩ := trialFrom_linear hs hm hc hs.fits.row f
  obtain ⟨g, hg, hstep⟩ := hm.curve (c + system.solve.unknowns.get)
  obtain ⟨w', hfound⟩ := hs.attempt_of_trial hcurve htrial hg
  obtain ⟨rfl, -⟩ := Prod.mk.inj (Except.ok.inj (hattempt.symm.trans hfound))
  have hdefinite := definiteFrom_dampedGram hlambda hcoeff htarget
  obtain ⟨hequations, hidle, -⟩ := hdefinite.solve
  refine ⟨_, g, rfl, rfl, rfl, missed_add hf hstep, ?equations, hidle, ?pos⟩
  case equations => rw [← hcoeff, hequations, htarget]
  case pos =>
    intro hne
    rw [← htarget] at hne ⊢
    exact hdefinite.target_pos hequations hidle hne

variable [FitScalar α]

/-- What a pass comes to that starts at the curve `f` and finds `a`: with a gradient, the trial is
better and taken; without one, nothing moves.  A trial is turned down only where the sum of squares
is the least of all. -/
structure StepsDown (s : Solver α) (basis : Fin p → α → α) (f : α → α) (a : Attempt α) : Prop where
  curve : s.model.curve s.parameters = .ok f
  accepts : s.gradient basis f ≠ 0 → a.accepted ∧ a.trialChi2 < a.chi2 ∧ s.kept a = a.trial
  stays : s.gradient basis f = 0 →
    ¬ a.accepted ∧ a.trial = s.parameters ∧ s.kept a = s.parameters
  least : ¬ a.accepted → ∀ values : List α, values.length = p →
    ∃ chi2, s.chi2At values = .ok chi2 ∧ a.chi2 ≤ chi2

/-- **One pass** of a linear model without constraints. -/
theorem Ready.stepsDown (hs : s.Ready) (hfinite : ∀ a : α, FitScalar.isFinite a = true)
    (hm : s.model.LinearIn base basis) (hfree : s.model.Unconstrained) (hlambda : 0 < s.lambda)
    {a : Attempt α} {w : Workspace α} (hattempt : s.attempt = .ok (a, w)) :
    ∃ f, s.StepsDown basis f a := by
  obtain ⟨c, hc⟩ := exists_ofFn_of_length (hs.counted.trans hm.counted)
  obtain ⟨f, hcurve, hf⟩ := hm.curve c
  rw [← hc] at hcurve
  obtain ⟨δ, g, hchi2, htrial, htrialChi2, hmissed, hequations, hidle, hpos⟩ :=
    hs.attempt_linear hm hlambda hc hcurve hf hattempt
  have haccepted : a.accepted ↔ a.trialChi2 < a.chi2 := by
    unfold Attempt.accepted Attempt.isFinite Attempt.isBetter
    rw [hfinite, Bool.true_and, decide_eq_true_iff]
  have hkept : (s.decided a).length = s.model.parameterCount → s.kept a = s.decided a :=
    fun hlen => kept_eq_decided fun hmoved => hmoved.2 (hfree.project_eq hlen)
  have hfalls : s.gradient basis f ≠ 0 → a.trialChi2 < a.chi2 := by
    intro hne
    rw [hchi2, htrialChi2, chi2Of_eq hs.observed, chi2Of_eq hs.observed, hmissed]
    exact dotProduct_self_lt hlambda hequations (hpos hne)
  refine ⟨f, hcurve, ?accepts, ?stays, ?least⟩
  case accepts =>
    intro hne
    have hbetter := haccepted.mpr (hfalls hne)
    have hdecided : s.decided a = a.trial := if_pos hbetter
    rw [hdecided, htrial, List.length_ofFn, hm.counted] at hkept
    exact ⟨hbetter, hfalls hne, htrial ▸ hkept rfl⟩
  case stays =>
    intro hzero
    have hδ : δ = 0 := increment_eq_zero hlambda (hequations.trans hzero) hidle
    have hrejected : ¬ a.accepted := by
      rw [haccepted, hchi2, htrialChi2, chi2Of_eq hs.observed, chi2Of_eq hs.observed, hmissed, hδ,
        mulVec_zero, sub_zero]
      exact lt_irrefl _
    have hdecided : s.decided a = s.parameters := if_neg hrejected
    rw [hdecided] at hkept
    refine ⟨hrejected, ?_, hkept hs.counted⟩
    rw [htrial, hδ, add_zero, hc]
  case least =>
    intro hrejected values hvalues
    have hzero : s.gradient basis f = 0 := not_not.mp fun hne =>
      hrejected (haccepted.mpr (hfalls hne))
    rw [hchi2]
    exact chi2Of_le hs hm hf hzero hvalues

/-! ## All passes -/

/-- In exact arithmetic the damping stays positive, whatever its floor. -/
theorem damping_pos (hlambda : 0 < s.lambda) (a : Attempt α) : 0 < s.damping a := by
  have htenth : 0 < s.lambda / 10 := div_pos hlambda (by norm_num)
  have hrelax : 0 < relax s.lambda := by
    unfold relax
    by_cases habove : FitScalar.lambdaFloor < s.lambda / 10
    · rw [if_pos habove]
      exact htenth
    · rw [if_neg habove]
      exact htenth.trans_le (not_lt.mp habove)
  have htighten : 0 < tighten s.lambda := mul_pos hlambda (by norm_num)
  unfold damping
  split
  · split
    · exact hrelax
    · exact htighten
  · exact hlambda

end Solver

variable [FitScalar α] {s t : Solver α} {i budget : ℕ} {visits : List (Visit α)}
  {ending : Termination}

theorem Trail.lambda_pos (htrail : Trail s i budget visits t ending) (hlambda : 0 < s.lambda) :
    (∀ v ∈ visits, 0 < v.solver.lambda) ∧ 0 < t.lambda := by
  induction htrail with
  | stopped _ _ => exact ⟨List.forall_mem_singleton.mpr hlambda, Solver.damping_pos hlambda _⟩
  | exhausted _ _ => exact ⟨List.forall_mem_singleton.mpr hlambda, Solver.damping_pos hlambda _⟩
  | next _ _ _ ih =>
    obtain ⟨hvisits, hend⟩ := ih (Solver.damping_pos hlambda _)
    exact ⟨List.forall_mem_cons.mpr ⟨hlambda, hvisits⟩, hend⟩

variable {base : α → α} {basis : Fin p → α → α}

/-- Every pass of a linear model without constraints steps down. -/
theorem Trail.stepsDown (htrail : Trail s i budget visits t ending) (hs : s.Ready)
    (hfinite : ∀ a : α, FitScalar.isFinite a = true) (hm : s.model.LinearIn base basis)
    (hfree : s.model.Unconstrained) (hlambda : 0 < s.lambda) :
    ∀ v ∈ visits, ∃ f, v.solver.StepsDown basis f v.found := by
  intro v hv
  obtain ⟨hready, hshares, w, hfound⟩ := htrail.visited hs v hv
  rw [← hshares.model] at hm hfree
  exact hready.stepsDown hfinite hm hfree ((htrail.lambda_pos hlambda).1 v hv) hfound

/-- Calls leave the damping positive. -/
theorem Solver.Ready.serve_lambda_pos (hs : s.Ready) (hinitial : 0 < s.settings.initialLambda)
    (hlambda : 0 < s.lambda) {calls : List (Call α)} {reports : List (FitReport α)}
    (h : s.serve calls = .ok (reports, t)) : 0 < t.lambda := by
  refine (Solver.serve_invariant
    (P := fun t => t.Ready ∧ 0 < t.settings.initialLambda ∧ 0 < t.lambda) ?_ ?_
    ⟨hs, hinitial, hlambda⟩ h).2.2
  · rintro s₁ s₂ report ⟨hready, hinitial, hlambda⟩ hfit
    obtain ⟨hready', hshares⟩ := hready.fit hfit
    obtain ⟨visits, s', ending, chi2, w, htrail, -, -, -, rfl⟩ := Solver.fit_ok hready hfit
    exact ⟨hready', hshares.settings ▸ hinitial, (htrail.lambda_pos hlambda).2⟩
  · rintro s₁ y initial ⟨hready, hinitial, -⟩ hlen hcount
    exact ⟨hready.loaded hlen hcount, hinitial, hinitial⟩

end Ordered

/-! ## Linear models -/

/-- The curves that a line combines. -/
def lineBasis : Fin 2 → α → α := ![fun x => x, fun _ => 1]

/-- The built-in line has a slope and an intercept, both free. -/
theorem ModelKind.linear_linearIn [ExpScalar α] [LinearOrder α] [FitScalar α] {initial : List α}
    {m : Model α} (h : ModelKind.linear.model initial = .ok m) :
    m.LinearIn (fun _ => 0) lineBasis ∧ m.Unconstrained := by
  unfold ModelKind.model at h
  by_cases hlen : initial.length = ModelKind.linear.parameterCount
  · rw [if_pos hlen] at h
    cases h
    match initial, hlen with
    | [slope, intercept], _ =>
      refine ⟨⟨rfl, fun c => ?_, fun c => ?_⟩, by simp [Model.Unconstrained, signature]⟩
      · refine ⟨fun x => c 0 * x + c 1, ?_, fun x => ?_⟩
        · rw [List.ofFn_succ, List.ofFn_succ]
          rfl
        · rw [Fin.sum_univ_two]
          simp [lineBasis]
      · exact ⟨fun x => [x, 1], rfl, fun x => rfl⟩
  · rw [if_neg hlen] at h
    cases h

theorem horner_ofFn {n : ℕ} (c : Fin n → α) (x : α) :
    horner (List.ofFn c) x = ∑ j, c j * x ^ (j : ℕ) := by
  induction n with
  | zero => rfl
  | succ n ih =>
    rw [List.ofFn_succ, Fin.sum_univ_succ]
    show horner (List.ofFn fun j => c j.succ) x * x + c 0 = _
    rw [ih, Finset.sum_mul, Fin.val_zero, pow_zero, mul_one, add_comm]
    refine congrArg (c 0 + ·) (Finset.sum_congr rfl fun j _ => ?_)
    rw [Fin.val_succ, pow_succ, mul_assoc]

theorem powers_eq_ofFn (x : α) (n : ℕ) (t : α) :
    powers x n t = List.ofFn fun j : Fin n => t * x ^ (j : ℕ) := by
  induction n generalizing t with
  | zero => rfl
  | succ n ih =>
    rw [List.ofFn_succ, powers, ih, Fin.val_zero, pow_zero, mul_one]
    refine congrArg (t :: ·) (congrArg List.ofFn (funext fun j => ?_))
    rw [Fin.val_succ, pow_succ', mul_assoc]

/-- Polynomials combine the powers. -/
theorem Model.polynomial_linearIn (initial : List α) (constraints : List Constraint) :
    (Model.polynomial initial constraints).LinearIn (fun _ => 0)
      fun (j : Fin initial.length) x => x ^ (j : ℕ) where
  counted := List.length_mapIdx
  curve c := ⟨_, rfl, fun x => by rw [horner_ofFn, zero_add]⟩
  slopes c := ⟨_, rfl, fun x => by simp only [powers_eq_ofFn, one_mul]⟩

/-! ## Fits -/

section Fit

variable [LinearOrder α] [IsStrictOrderedRing α] [FitScalar α] {u : VectorUnit} {model : Model α}
  {base : α → α} {basis : Fin p → α → α} {settings : Settings α} {x y initial : List α}
  {s₀ s : Solver α} {calls : List (Call α)} {reports : List (FitReport α)}

/-- **Linear models.**  In exact arithmetic take any solver for a linear model without constraints,
of which the built-in line is one, and any calls it has served.  From any parameters and any positive
damping, a pass takes a better trial unless the gradient is zero, and then it stays where it is.  So
the next fit returns, and none of its passes turns a trial down before the sum of squares is least. -/
theorem Solver.fit_linear (hfinite : ∀ a : α, FitScalar.isFinite a = true)
    (hm : model.LinearIn base basis) (hfree : model.Unconstrained)
    (hlambda : 0 < settings.initialLambda)
    (hstart : Solver.start u model x y initial settings = .ok s₀)
    (hserve : s₀.serve calls = .ok (reports, s)) :
    (∀ values lambda i, values.length = p → 0 < lambda →
      ∃ f a w verdict, (s.placedAt values lambda).attempt = .ok (a, w) ∧
        (s.placedAt values lambda).pass i =
          .ok ({ s.placedAt values lambda with workspace := w }.after i a, verdict) ∧
        (s.placedAt values lambda).StepsDown basis f a) ∧
    (∃ report t visits s', s.fit = .ok (report, t) ∧
      Trail s 0 settings.maxIterations visits s' report.termination ∧
      ∀ v ∈ visits, ∃ f, v.solver.StepsDown basis f v.found) ∧
    ∀ [ExpScalar α] (start : List α) (line : Model α), ModelKind.linear.model start = .ok line →
      line.LinearIn (fun _ => 0) lineBasis ∧ line.Unconstrained := by
  obtain ⟨hlen, hcount, -, -, rfl⟩ := start_eq_ok_iff.mp hstart
  have hfresh : (fresh u model x y initial settings).Ready := ready_fresh hlen hcount
  obtain ⟨hs, htask⟩ := hfresh.serve hserve
  have hpos : 0 < s.lambda := hfresh.serve_lambda_pos hlambda hlambda hserve
  have hmodel : s.model = model := htask.model
  have hsettings : s.settings = settings := htask.settings
  rw [← hmodel] at hm hfree
  refine ⟨fun values lambda i hvalues hpositive => ?_, ?_, fun _ _ => ModelKind.linear_linearIn⟩
  · have hplaced : (s.placedAt values lambda).Ready :=
      ⟨hs.points, hs.observed, hvalues.trans hm.counted.symm, hs.fits⟩
    obtain ⟨a, w, hattempt⟩ := hplaced.exists_attempt hm.answers
    obtain ⟨f, hsteps⟩ := hplaced.stepsDown hfinite hm hfree hpositive hattempt
    exact ⟨f, a, w, _, hattempt, pass_eq_ok_iff.mpr ⟨a, w, hattempt, rfl, rfl⟩, hsteps⟩
  · obtain ⟨report, t, hfit⟩ := hs.exists_fit hm.answers
    obtain ⟨visits, s', ending, chi2, w, htrail, -, -, rfl, -⟩ := fit_ok hs hfit
    exact ⟨_, t, visits, s', hfit, hsettings ▸ htrail, htrail.stepsDown hs hfinite hm hfree hpos⟩

end Fit

/-- A parabola through two points, which has a coefficient to spare. -/
theorem Solver.fit_linear_parabola :
    let model : Model ℚ := .polynomial [0, 0, 0] []
    let settings : Settings ℚ := ⟨2, 0, 1 / 1000, true, 0, true⟩
    let basis : Fin 3 → ℚ → ℚ := fun j x => x ^ (j : ℕ)
    ∃ s report t visits s',
      Solver.start ⟨.avx2, 1024⟩ model [1, 2] [1, 3] [0, 0, 0] settings = .ok s ∧
        s.fit = .ok (report, t) ∧ Trail s 0 2 visits s' report.termination ∧
          (∀ v ∈ visits, ∃ f, v.solver.StepsDown basis f v.found) ∧
            ∃ f a w, (s.placedAt [5, 0, 1] 7).attempt = .ok (a, w) ∧
              (s.placedAt [5, 0, 1] 7).StepsDown basis f a := by
  intro model settings basis
  obtain ⟨s, hstart⟩ :
      ∃ s, Solver.start ⟨.avx2, 1024⟩ model [1, 2] [1, 3] [0, 0, 0] settings = .ok s :=
    exists_of_isOk (by decide +kernel)
  obtain ⟨hpasses, ⟨report, t, visits, s', hfit, htrail, hsteps⟩, -⟩ :=
    Solver.fit_linear (fun _ => rfl) (Model.polynomial_linearIn [0, 0, 0] []) (by decide)
      (by norm_num [settings]) hstart (show s.serve [] = .ok ([], s) from rfl)
  obtain ⟨f, a, w, -, hattempt, -, hstep⟩ := hpasses [5, 0, 1] 7 0 rfl (by norm_num)
  exact ⟨s, report, t, visits, s', hstart, hfit, htrail, hsteps, f, a, w, hattempt, hstep⟩

end CurveFit
