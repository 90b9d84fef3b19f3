import CurveFit.Proofs.Fit.Gate
import CurveFit.Proofs.Fit.Trace
import CurveFit.Proofs.Lanes.Sums
import CurveFit.Proofs.Linear.Idle

/-!
# The damping

The damping of a fit is positive from the first pass to the report (`Trail.damping`).  It falls no
lower than its floor, but nothing keeps it from rising: a rejected pass multiplies it by ten, and
above `tightenLimit` the product is infinite (`Solver.tighten_isFinite_iff`), which it then stays.

As long as it is finite, a parameter without effect is left alone: where a column of derivatives is
zero at every point, so is its pivot, and so is the increment (`Kernel.sparesIdle`).  An infinite
damping makes its entry on the diagonal a NaN (`isNaN_dampedEntry_self`), and a fit that is exact
already diverges (`Solver.fit_diverges_inert`).
-/

namespace CurveFit

open Binary64

/-! ## One pass -/

/-- The largest number whose tenfold is finite. -/
def tightenLimit : Float := Float.ofBits 0x7fb9999999999999

/-- Whether a pass turns its trial down and goes on. -/
def Attempt.rejected (a : Attempt Float) : Bool := a.isFinite && !a.isBetter

namespace Solver

variable {lambda : Float} {s t : Solver Float} {a : Attempt Float}

/-- Accepted passes stop at the floor. -/
theorem relax_pos (lambda : Float) : 0 < relax lambda := by
  have hfloor : 0 < leastNormal := by decide +kernel
  show 0 < if leastNormal < lambda / 10 then lambda / 10 else leastNormal
  by_cases habove : leastNormal < lambda / 10
  · rw [if_pos habove]
    exact pos_of_pos_of_le hfloor (le_of_lt habove)
  · rw [if_neg habove]
    exact hfloor

theorem le_tighten (h : 0 < lambda) : lambda ≤ tighten lambda :=
  le_mul_of_one_le (pos_iff.mp h) (by decide +kernel)

theorem pos_damping (h : 0 < s.lambda) : 0 < s.damping a := by
  unfold damping
  by_cases hfin : a.isFinite
  · rw [if_pos hfin]
    by_cases hbetter : a.isBetter
    · rw [if_pos hbetter]
      exact relax_pos s.lambda
    · rw [if_neg hbetter]
      exact pos_of_pos_of_le h (le_tighten h)
  · rwa [if_neg hfin]

/-- An accepted pass keeps a finite damping finite, and an infinite one infinite. -/
theorem relax_isFinite_iff (h : 0 < lambda) : (relax lambda).isFinite ↔ lambda.isFinite := by
  have hten : (10 : Float).isFinite := by decide +kernel
  have hfloor : leastNormal.isFinite := by decide +kernel
  show (if leastNormal < lambda / 10 then lambda / 10 else leastNormal).isFinite ↔ _
  by_cases hfinite : lambda.isFinite
  · have htenth : lambda / 10 ≤ lambda :=
      div_le_of_one_le hfinite (pos_iff.mp h).le hten (by decide +kernel)
    refine iff_of_true ?_ hfinite
    by_cases habove : leastNormal < lambda / 10
    · rw [if_pos habove]
      exact isFinite_of_le hfloor hfinite (le_of_lt habove) htenth
    · rwa [if_neg habove]
  · have hinfinity : IsInfinity (lambda / 10) :=
      (isInfinity_of_not_isFinite (pos_iff.mp h) hfinite).div (by decide +kernel) hten
    refine iff_of_false ?_ hfinite
    rw [if_pos (hinfinity.lt hfloor)]
    exact hinfinity.not_isFinite

theorem tighten_mono {lambda' : Float} (h : lambda.isFinite) (h' : lambda'.isFinite)
    (hle : lambda ≤ lambda') : tighten lambda ≤ tighten lambda' := by
  have hten : (10 : Float).isFinite := by decide +kernel
  have hvalue : 0 ≤ value (10 : Float) := by decide +kernel
  exact (mul_isRounded h hten).mono (mul_isRounded h' hten)
    (mul_le_mul_of_nonneg_right (value_mono hle) hvalue)

/-- What is positive and no larger than a finite number is finite. -/
theorem isFinite_of_pos_of_le {bound : Float} (h : 0 < lambda) (hbound : bound.isFinite)
    (hle : lambda ≤ bound) : lambda.isFinite :=
  isFinite_of_le isZero_zero.isFinite hbound (le_of_lt h) hle

/-- A rejected pass leaves a finite damping unless it found one above the limit. -/
theorem tighten_isFinite_iff (h : 0 < lambda) :
    (tighten lambda).isFinite ↔ lambda ≤ tightenLimit := by
  constructor
  · intro hfinite
    have hlambda : lambda.isFinite := isFinite_of_pos_of_le h hfinite (le_tighten h)
    by_contra hle
    -- the next number after the limit has an infinite tenfold already
    let next := Float.ofBits 0x7fb999999999999a
    have hnext : next ≤ lambda :=
      succ_le_of_lt (a := tightenLimit) (m := 0x19999999999999) (e := 968) (by decide +kernel)
        (by decide +kernel) (by decide +kernel)
        (lt_of_not_le (isNaN_of_isFinite hlambda) (by decide +kernel) hle)
    have hinfinite : ¬ (tighten next).isFinite := by decide +kernel
    exact hinfinite (isFinite_of_pos_of_le (by decide +kernel) hfinite
      (tighten_mono (by decide +kernel) hlambda hnext))
  · intro hle
    have hlimit : tightenLimit.isFinite := by decide +kernel
    exact isFinite_of_pos_of_le (pos_of_pos_of_le h (le_tighten h)) (by decide +kernel)
      (tighten_mono (isFinite_of_pos_of_le h hlimit hle) hlimit hle)

/-- **One pass.**  The damping is finite after a pass if it was before, and the pass was not
rejected above the limit. -/
theorem isFinite_damping_iff (h : 0 < s.lambda) :
    (s.damping a).isFinite ↔ s.lambda.isFinite ∧ (a.rejected → s.lambda ≤ tightenLimit) := by
  unfold damping Attempt.rejected
  by_cases hfin : a.isFinite
  · rw [if_pos hfin, hfin, Bool.true_and]
    by_cases hbetter : a.isBetter
    · rw [if_pos hbetter, hbetter, relax_isFinite_iff h]
      exact (and_iff_left nofun).symm
    · rw [if_neg hbetter, tighten_isFinite_iff h, Bool.eq_false_iff.mpr hbetter]
      refine ⟨fun hle => ⟨?_, fun _ => hle⟩, fun h => h.2 rfl⟩
      exact isFinite_of_pos_of_le h (by decide +kernel) hle
  · rw [if_neg hfin, Bool.eq_false_iff.mpr hfin, Bool.false_and]
    exact (and_iff_left nofun).symm

end Solver

/-! ## Parameters without effect -/

section Idle

variable {k : Kernel} {lambda : Float} {col : ℕ → List Float} {l l' : List Float}

theorem Kernel.isZero_productSum (k : Kernel) (h : ∀ x ∈ List.zipWith (· * ·) l l', IsZero x) :
    IsZero (k.productSum l l') :=
  k.total_induction (fun _ _ => IsZero.add) isZero_zero isZero_neg_zero h

theorem forall_mem_zipWith {P Q R : Float → Prop} {f : Float → Float → Float}
    (hf : ∀ a b, P a → Q b → R (f a b)) (hl : ∀ a ∈ l, P a) (hl' : ∀ b ∈ l', Q b) :
    ∀ x ∈ List.zipWith f l l', R x := by
  intro x hx
  rw [← List.map_uncurry_zip_eq_zipWith] at hx
  obtain ⟨⟨a, b⟩, hab, rfl⟩ := List.mem_map.mp hx
  obtain ⟨ha, hb⟩ := List.of_mem_zip hab
  exact hf a b (hl a ha) (hl' b hb)

theorem isZero_productSum_self {j : ℕ} (hidle : ∀ d ∈ col j, IsZero d) :
    IsZero (k.productSum (col j) (col j)) :=
  k.isZero_productSum (forall_mem_zipWith (fun _ _ ha hb => ha.mul hb.isFinite) hidle hidle)

theorem dampedEntry_self (k : Kernel) (lambda : Float) (col : ℕ → List Float) (j : ℕ) :
    k.dampedEntry lambda col j j = k.productSum (col j) (col j) * (1 + lambda) := by
  unfold Kernel.dampedEntry
  rw [if_pos rfl, Nat.min_self, Nat.max_self]

/-- One plus the damping is finite as long as the damping is. -/
theorem isZero_dampedEntry_self {j : ℕ} (hidle : ∀ d ∈ col j, IsZero d) (hpos : 0 < lambda)
    (hfinite : lambda.isFinite) : IsZero (k.dampedEntry lambda col j j) := by
  rw [dampedEntry_self]
  exact (isZero_productSum_self hidle).mul (isFinite_one_add hfinite (pos_iff.mp hpos).le)

theorem isNaN_dampedEntry_self {j : ℕ} (hidle : ∀ d ∈ col j, IsZero d) (hpos : 0 < lambda)
    (hinfinite : ¬ lambda.isFinite) : (k.dampedEntry lambda col j j).isNaN := by
  rw [dampedEntry_self]
  exact (isZero_productSum_self hidle).mul_isInfinity
    (IsInfinity.add (by decide +kernel) (isInfinity_of_not_isFinite (pos_iff.mp hpos) hinfinite))

theorem isZero_dampedEntry_of_lt {i j : ℕ} (hij : i < j) (hidle : ∀ d ∈ col j, IsZero d)
    (hfinite : ∀ d ∈ col i, d.isFinite) : IsZero (k.dampedEntry lambda col j i) := by
  unfold Kernel.dampedEntry
  rw [if_neg hij.ne', Nat.min_eq_right hij.le, Nat.max_eq_left hij.le]
  exact k.isZero_productSum (forall_mem_zipWith (fun _ _ ha hb => hb.mul_left ha) hfinite hidle)

/-- Where a column of derivatives is zero at every point, its pivot is zero and its parameter gets
no increment, if the columns before it are finite and have no NaN as a pivot. -/
def Kernel.SparesIdle (k : Kernel) (lambda : Float) : Prop :=
  ∀ (col : ℕ → List Float) (residual : List Float) (p : ℕ)
    (j : Fin (k.gradientList residual col p).length),
    (∀ d ∈ col j, d == 0) → (∀ i < j.val, ∀ d ∈ col i, d.isFinite) →
    (∀ i < j, ((k.normalSystem lambda col residual p).eliminate.coeff i i).isNaN = false) →
    (k.normalSystem lambda col residual p).eliminate.coeff j j == 0 ∧
      (k.normalSystem lambda col residual p).solve.unknowns.get j = 0

/-- A finite damping spares parameters without effect. -/
theorem Kernel.sparesIdle (k : Kernel) (hpos : 0 < lambda) (hfinite : lambda.isFinite) :
    k.SparesIdle lambda := by
  intro col residual p j hidle hcolumns hpivots
  have hzero : ∀ d ∈ col j, IsZero d := fun d hd => beq_zero_iff.mp (hidle d hd)
  refine SquareSystem.unknown_of_idle (fun i hi => ?_) hpivots
  have hentry :
      (k.normalSystem lambda col residual p).coeff j i = k.dampedEntry lambda col j i := by
    unfold Kernel.normalSystem SquareSystem.ofEntries SquareSystem.coeff
    rw [get_ofFn, get_ofFn]
  rw [hentry]
  rcases hi.lt_or_eq with hlt | rfl
  · exact isZero_dampedEntry_of_lt hlt hzero (hcolumns i hlt)
  · exact isZero_dampedEntry_self hzero hpos hfinite

end Idle

/-- The damping of a solver is positive.  A finite one spares parameters without effect; an infinite
one spoils their diagonal. -/
structure Solver.Damped (s : Solver Float) : Prop where
  positive : 0 < s.lambda
  finite : s.lambda.isFinite → (1 + s.lambda).isFinite ∧ s.unit.kernel.SparesIdle s.lambda
  infinite : ¬ s.lambda.isFinite → ∀ (col : ℕ → List Float) (j : ℕ), (∀ d ∈ col j, d == 0) →
    (s.unit.kernel.dampedEntry s.lambda col j j).isNaN

theorem Solver.damped {s : Solver Float} (h : 0 < s.lambda) : s.Damped where
  positive := h
  finite hfinite := ⟨isFinite_one_add hfinite (pos_iff.mp h).le, s.unit.kernel.sparesIdle h hfinite⟩
  infinite hinfinite _ _ hidle :=
    isNaN_dampedEntry_self (fun d hd => beq_zero_iff.mp (hidle d hd)) h hinfinite

/-! ## Whole fits -/

/-- Every damping in a report is positive. -/
structure FitReport.Damped (report : FitReport Float) : Prop where
  final : 0 < report.lambda
  trace : ∀ records ∈ report.trace, ∀ r ∈ records, 0 < r.lambda

variable {s t : Solver Float} {i budget : ℕ} {visits : List (Visit Float)} {ending : Termination}
  {report : FitReport Float}

/-- **The passes of a fit** keep the damping positive, and finite unless one of them is rejected
above the limit. -/
theorem Trail.damping (htrail : Trail s i budget visits t ending) (hs : 0 < s.lambda) :
    (∀ v ∈ visits, 0 < v.solver.lambda) ∧ 0 < t.lambda ∧
      (t.lambda.isFinite ↔ s.lambda.isFinite ∧
        ∀ v ∈ visits, v.found.rejected → v.solver.lambda ≤ tightenLimit) := by
  induction htrail with
  | stopped found _ =>
    simp only [List.forall_mem_singleton]
    exact ⟨hs, Solver.pos_damping hs, Solver.isFinite_damping_iff hs⟩
  | exhausted found _ =>
    simp only [List.forall_mem_singleton]
    exact ⟨hs, Solver.pos_damping hs, Solver.isFinite_damping_iff hs⟩
  | next found _ _ ih =>
    obtain ⟨hvisits, ht, hfinite⟩ := ih (Solver.pos_damping hs)
    simp only [List.forall_mem_cons]
    refine ⟨⟨hs, hvisits⟩, ht, hfinite.trans ?_⟩
    rw [← and_assoc]
    exact and_congr_left fun _ => Solver.isFinite_damping_iff hs

theorem Visit.pos_of_mem_records (hvisits : ∀ v ∈ visits, 0 < v.solver.lambda) :
    ∀ r ∈ records visits, 0 < r.lambda := by
  intro r hr
  obtain ⟨i, v, hv, rfl⟩ := mem_records hr
  exact Solver.pos_damping (hvisits v hv)

/-- A fit that starts from a positive damping. -/
theorem Solver.fit_damping (hs : s.Ready) (hquiet : s.settings.collectTrace = true → s.trace = #[])
    (hpos : 0 < s.lambda) (hfit : s.fit = .ok (report, t)) :
    ∃ visits s', Trail s 0 s.settings.maxIterations visits s' report.termination ∧
      (∀ v ∈ visits, v.solver.Damped) ∧ report.Damped ∧ t.lambda = report.lambda ∧
      (report.lambda.isFinite ↔ s.lambda.isFinite ∧
        ∀ v ∈ visits, v.found.rejected → v.solver.lambda ≤ tightenLimit) := by
  obtain ⟨visits, s', ending, chi2, htrail, -, rfl, -, hlambda⟩ := fit_trail hs hquiet hfit
  obtain ⟨hvisits, hend, hfinite⟩ := htrail.damping hpos
  refine ⟨visits, s', htrail, fun v hv => damped (hvisits v hv), ⟨hend, ?_⟩, hlambda, hfinite⟩
  intro records hrecords
  by_cases hwanted : s.settings.collectTrace
  · rw [if_pos hwanted] at hrecords
    obtain rfl := Option.some.inj hrecords
    exact Visit.pos_of_mem_records hvisits
  · rw [if_neg hwanted] at hrecords
    cases hrecords

/-- A solver between two calls, with positive dampings to go on from. -/
structure Solver.Resting (s : Solver Float) : Prop where
  ready : s.Ready
  quiet : s.settings.collectTrace = true → s.trace = #[]
  positive : 0 < s.lambda
  restart : 0 < s.settings.initialLambda

theorem Solver.Resting.fit (hs : s.Resting) (hfit : s.fit = .ok (report, t)) :
    report.Damped ∧ t.Resting := by
  obtain ⟨visits, s', -, -, hreport, hlambda, -⟩ := fit_damping hs.ready hs.quiet hs.positive hfit
  obtain ⟨hready, hshares⟩ := hs.ready.fit hfit
  obtain ⟨w, _, _, _, _, -, -, -, rfl⟩ := fit_eq_ok_iff.mp hfit
  exact ⟨hreport, hready, fun hwanted => if_pos hwanted, hlambda ▸ hreport.final,
    hshares.settings ▸ hs.restart⟩

theorem Solver.Resting.loaded (hs : s.Resting) {y initial : List Float}
    (hlen : y.length = s.sourceLength) (hcount : initial.length = s.parameters.length) :
    (s.loaded y initial).Resting :=
  ⟨hs.ready.loaded hlen hcount, fun _ => rfl, hs.restart, hs.restart⟩

variable {u : VectorUnit} {model : Model Float} {settings : FitSettings}
  {x y initial : List Float} {s₀ : Solver Float} {calls : List (Call Float)}
  {reports : List (FitReport Float)}

theorem Solver.resting_of_new (hnew : Solver.new u model x y initial settings = .ok s₀) :
    s₀.Resting := by
  obtain ⟨hvalid, -⟩ := new_eq_ok_iff.mp hnew
  obtain ⟨hlen, hcount, rfl⟩ := new_ok hnew
  obtain ⟨-, ⟨-, hpos⟩, -⟩ := FitSettings.issue?_eq_none_iff.mp hvalid
  exact ⟨ready_fresh hlen hcount, fun _ => rfl, hpos, hpos⟩

/-- **The damping** of a solver that has served any calls, and of every report on them, is positive.
In a fit, each pass that starts from a finite damping spares the parameters without effect, and the
fit ends at a finite damping exactly if it starts from one and rejects no trial above the limit. -/
theorem Solver.serve_damped (hnew : Solver.new u model x y initial settings = .ok s₀)
    (hserve : s₀.serve calls = .ok (reports, s)) :
    (∀ report ∈ reports, report.Damped) ∧ s.Damped ∧
    ∀ report t, s.fit = .ok (report, t) → report.Damped ∧ t.lambda = report.lambda ∧
      ∃ visits s', Trail s 0 settings.maxIterations visits s' report.termination ∧
        (∀ v ∈ visits, v.solver.Damped) ∧
        (report.lambda.isFinite ↔ s.lambda.isFinite ∧
          ∀ v ∈ visits, v.found.rejected → v.solver.lambda ≤ tightenLimit) := by
  have hresting := resting_of_new hnew
  obtain ⟨hreports, hs⟩ := serve_induction (P := Resting) (Q := FitReport.Damped)
    (fun hs hfit => hs.fit hfit) (fun hs hlen hcount => hs.loaded hlen hcount) hresting hserve
  have hsettings : s.settings = settings := by
    obtain ⟨-, -, rfl⟩ := new_ok hnew
    exact (hresting.ready.serve hserve).2.settings
  refine ⟨hreports, damped hs.positive, fun report t hfit => ?_⟩
  obtain ⟨visits, s', htrail, hvisits, hreport, hlambda, hfinite⟩ :=
    fit_damping hs.ready hs.quiet hs.positive hfit
  exact ⟨hreport, hlambda, visits, s', hsettings ▸ htrail, hvisits, hfinite⟩

/-- A line that is fitted again from the damping that a first fit has left. -/
theorem Solver.serve_damped_line :
    let model : Model Float := .polynomial [0.0, 1.0] []
    let settings := { FitSettings.default with maxIterations := 1 }
    ∃ s₀ reports s report t,
      Solver.new ⟨.portable, 1024⟩ model [1.0, 2.0] [2.0, 1.0] [0.0, 1.0] settings = .ok s₀ ∧
        s₀.serve [.fit] = .ok (reports, s) ∧ s.fit = .ok (report, t) ∧
          s.Damped ∧ FitReport.Damped report := by
  intro model settings
  let s₀ : Solver Float := .fresh ⟨.portable, 1024⟩ model [1.0, 2.0] [2.0, 1.0] [0.0, 1.0] settings
  have hnew : Solver.new ⟨.portable, 1024⟩ model [1.0, 2.0] [2.0, 1.0] [0.0, 1.0] settings =
      .ok s₀ :=
    Solver.new_eq_fresh (by decide +kernel) (by decide +kernel) (by decide +kernel)
      (List.cons_ne_nil _ _) (by decide +kernel)
  obtain ⟨⟨reports, s⟩, hserve, hfitted⟩ :
      ∃ r, s₀.serve [.fit] = .ok r ∧ r.2.fit.isOk := exists_of_any (by decide +kernel)
  obtain ⟨⟨report, t⟩, hfit⟩ := exists_of_isOk hfitted
  obtain ⟨-, hs, hfits⟩ := Solver.serve_damped hnew hserve
  exact ⟨s₀, reports, s, report, t, hnew, hserve, hfit, hs, (hfits report t hfit).1⟩

/-- A line through the origin that is fitted exactly from the start, with a parameter without
effect: the first pass is rejected above the limit, and in the second the infinite damping makes
that parameter a NaN. -/
theorem Solver.fit_diverges_inert :
    let model : Model Float := .inert [-3.0, 7.0] []
    let settings := { FitSettings.default with
      initialLambda := Float.ofBits 0x7fe1ccf385ebc8a0
      minDeltaChi2 := 0.0
      maxIterations := 1 }
    ∃ s₀ report t,
      Solver.new ⟨.avx2, 1024⟩ model [0.5, 0.5] [-1.5, -1.5] [-3.0, 7.0] settings = .ok s₀ ∧
        s₀.lambda.isFinite ∧ s₀.fit = .ok (report, t) ∧ ¬ report.lambda.isFinite ∧
          report.termination = .diverged ∧ report.chi2 = 0 := by
  intro model settings
  let s₀ : Solver Float :=
    .fresh ⟨.avx2, 1024⟩ model [0.5, 0.5] [-1.5, -1.5] [-3.0, 7.0] settings
  have hnew : Solver.new ⟨.avx2, 1024⟩ model [0.5, 0.5] [-1.5, -1.5] [-3.0, 7.0] settings =
      .ok s₀ :=
    Solver.new_eq_fresh (by decide +kernel) (by decide +kernel) (by decide +kernel)
      (List.cons_ne_nil _ _) (by decide +kernel)
  obtain ⟨⟨report, t⟩, hfit, hend⟩ : ∃ r, s₀.fit = .ok r ∧
      (!r.1.lambda.isFinite && r.1.termination == .diverged && decide (r.1.chi2 = 0)) :=
    exists_of_any (by decide +kernel)
  simp only [Bool.and_eq_true, Bool.not_eq_true', beq_iff_eq, decide_eq_true_iff] at hend
  obtain ⟨⟨hinfinite, hdiverged⟩, hchi2⟩ := hend
  exact ⟨s₀, report, t, hnew, by decide +kernel, hfit, Bool.eq_false_iff.mp hinfinite, hdiverged,
    hchi2⟩

end CurveFit
