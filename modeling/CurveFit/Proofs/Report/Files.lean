import CurveFit.Proofs.Json.Accuracy
import CurveFit.Proofs.Json.Records
import CurveFit.Report.File

/-!
# Report files

A report file is read back field by field: texts, counts, choices and a trace that is left out as they
were, real numbers as `Json.reread` says.  A file is refused exactly if it holds a real number that is
not finite or a count beyond 64 bits.
-/

namespace CurveFit

open Json Text Binary64

/-! ## The numbers of a file -/

/-- The record with a function applied to its real numbers. -/
def PassRecord.map {α β : Type} (g : α → β) (r : PassRecord α) : PassRecord β :=
  { iteration := r.iteration
    chi2 := g r.chi2
    trialChi2 := g r.trialChi2
    lambda := g r.lambda
    accepted := r.accepted }

/-- The report with a function applied to its real numbers. -/
def FitReport.map {α β : Type} (g : α → β) (r : FitReport α) : FitReport β :=
  { parameters := r.parameters.map g
    chi2 := g r.chi2
    iterations := r.iterations
    lambda := g r.lambda
    termination := r.termination
    points := r.points
    trace := r.trace.map (·.map (·.map g)) }

/-- The real numbers of a record. -/
def PassRecord.reals {α : Type} (r : PassRecord α) : List α := [r.chi2, r.trialChi2, r.lambda]

/-- The real numbers of a report. -/
def FitReport.reals {α : Type} (r : FitReport α) : List α :=
  r.parameters ++ [r.chi2, r.lambda] ++ (r.trace.getD []).flatMap PassRecord.reals

/-- The counts of a report. -/
def FitReport.counts {α : Type} (r : FitReport α) : List ℕ :=
  [r.iterations, r.points] ++ (r.trace.getD []).map PassRecord.iteration

section Numbers

variable {α : Type} {P : α → Prop}

theorem PassRecord.forall_reals (r : PassRecord α) :
    (∀ x ∈ r.reals, P x) ↔ P r.chi2 ∧ P r.trialChi2 ∧ P r.lambda := by
  unfold reals
  rw [List.forall_mem_cons, List.forall_mem_cons, List.forall_mem_singleton]

theorem FitReport.forall_reals (r : FitReport α) :
    (∀ x ∈ r.reals, P x) ↔ ((∀ x ∈ r.parameters, P x) ∧ P r.chi2 ∧ P r.lambda) ∧
      ∀ s ∈ r.trace.getD [], ∀ x ∈ s.reals, P x := by
  unfold reals
  rw [List.forall_mem_append, List.forall_mem_append, List.forall_mem_cons,
    List.forall_mem_singleton, List.forall_mem_flatMap]

theorem FitReport.forall_counts (r : FitReport α) {Q : ℕ → Prop} :
    (∀ n ∈ r.counts, Q n) ↔ (Q r.iterations ∧ Q r.points) ∧
      ∀ s ∈ r.trace.getD [], Q s.iteration := by
  unfold counts
  rw [List.forall_mem_append, List.forall_mem_cons, List.forall_mem_singleton, List.forall_mem_map]

theorem map_eq_self_iff {g : α → α} {xs : List α} : xs.map g = xs ↔ ∀ x ∈ xs, g x = x := by
  have hid : xs.map g = xs ↔ xs.map g = xs.map id := by rw [List.map_id]
  exact hid.trans List.map_inj_left

theorem PassRecord.map_eq_self_iff {g : α → α} (r : PassRecord α) :
    r.map g = r ↔ ∀ x ∈ r.reals, g x = x := by
  rw [r.forall_reals]
  cases r
  simp [map]

theorem FitReport.map_eq_self_iff {g : α → α} (r : FitReport α) :
    r.map g = r ↔ ∀ x ∈ r.reals, g x = x := by
  have htrace : r.trace.map (·.map (·.map g)) = r.trace ↔
      ∀ s ∈ r.trace.getD [], ∀ x ∈ s.reals, g x = x := by
    cases r.trace with
    | none => exact iff_of_true rfl nofun
    | some t =>
      rw [Option.map_some, Option.some_inj, CurveFit.map_eq_self_iff]
      exact forall₂_congr fun s _ => s.map_eq_self_iff
  rw [r.forall_reals, ← htrace, ← CurveFit.map_eq_self_iff]
  cases r
  simp [map]
  tauto

end Numbers

namespace ReportFile

/-- The file with a function applied to its real numbers. -/
def mapReals (g : Float → Float) (f : ReportFile) : ReportFile :=
  { f with report := f.report.map g, grid := ⟨f.grid.x.map g, f.grid.y.map g⟩ }

/-- The real numbers of a file. -/
def reals (f : ReportFile) : List Float := f.report.reals ++ (f.grid.x ++ f.grid.y)

/-- A file that a JSON text can hold: finite real numbers, and counts of 64 bits. -/
structure Holdable (f : ReportFile) : Prop where
  reals : ∀ x ∈ f.reals, x.isFinite
  counts : ∀ n ∈ f.report.counts, n ≤ maxCount

/-! ## Reading -/

theorem gives_reals (xs : List Float) :
    Gives ((realsOutput xs).toValue.list? Value.real?) (∀ x ∈ xs, x.isFinite) (xs.map reread) :=
  gives_list gives_real xs

theorem gives_pass (r : PassRecord Float) :
    Gives (passOfValue? (passOutput r).toValue)
      ((∀ x ∈ r.reals, x.isFinite) ∧ r.iteration ≤ maxCount) (r.map reread) := by
  have hfields : (passOutput r).toValue.fields?
      ["iteration", "chi2", "trial_chi2", "lambda", "accepted"] =
        some [some (Output.count r.iteration).toValue, some (Output.real r.chi2).toValue,
          some (Output.real r.trialChi2).toValue, some (Output.real r.lambda).toValue,
          some (Output.bool r.accepted).toValue] :=
    fields?_object _ [] (by simp)
  unfold passOfValue?
  refine Gives.congr (Gives.bind (Gives.of_eq hfields) (Gives.bind (gives_count _).required
    (Gives.bind (gives_real _).required (Gives.bind (gives_real _).required
      (Gives.bind (gives_real _).required (Gives.bind (gives_bool _).required
        (Gives.of_eq rfl))))))) ?_
  rw [r.forall_reals]
  tauto

theorem gives_trace (t : Option (List (PassRecord Float))) :
    Gives (Json.optional (Value.list? passOfValue?)
        (t.map fun t => (Output.array (t.map passOutput)).toValue))
      (∀ r ∈ t.getD [], (∀ x ∈ r.reals, x.isFinite) ∧ r.iteration ≤ maxCount)
      (t.map (·.map (·.map reread))) := by
  cases t with
  | none => exact Gives.congr (Gives.of_eq rfl) (by simp)
  | some t => exact (gives_list gives_pass t).optional nofun

theorem ofName?_name (t : Termination) : Termination.ofName? t.name = some t := by
  cases t <;> rfl

theorem reportFields (r : FitReport Float) :
    (reportOutput r).toValue.fields?
      ["parameters", "chi2", "iterations", "lambda", "termination", "points", "trace"] =
        some [some (realsOutput r.parameters).toValue, some (Output.real r.chi2).toValue,
          some (Output.count r.iterations).toValue, some (Output.real r.lambda).toValue,
          some (Output.string r.termination.name).toValue, some (Output.count r.points).toValue,
          r.trace.map fun t => (Output.array (t.map passOutput)).toValue] := by
  unfold reportOutput
  cases r.trace with
  | none => exact fields?_object _ ["trace"] (by simp)
  | some t => exact fields?_object _ [] (by simp)

theorem gives_report (r : FitReport Float) :
    Gives (reportOfValue? (reportOutput r).toValue)
      ((∀ x ∈ r.reals, x.isFinite) ∧ ∀ n ∈ r.counts, n ≤ maxCount) (r.map reread) := by
  unfold reportOfValue?
  refine Gives.congr (Gives.bind (Gives.of_eq (reportFields r))
    (Gives.bind (gives_reals _).required (Gives.bind (gives_real _).required
      (Gives.bind (gives_count _).required (Gives.bind (gives_real _).required
        (Gives.bind (gives_choice _).required (Gives.bind (Gives.of_eq (ofName?_name _))
          (Gives.bind (gives_count _).required (Gives.bind (gives_trace _)
            (Gives.of_eq rfl)))))))))) ?_
  rw [r.forall_reals, r.forall_counts, forall₂_and]
  tauto

theorem gives_grid (g : CurveGrid) :
    Gives (gridOfValue? (Output.object [("x", realsOutput g.x), ("y", realsOutput g.y)]).toValue)
      (∀ x ∈ g.x ++ g.y, x.isFinite) ⟨g.x.map reread, g.y.map reread⟩ := by
  have hfields : (Output.object [("x", realsOutput g.x), ("y", realsOutput g.y)]).toValue.fields?
      ["x", "y"] = some [some (realsOutput g.x).toValue, some (realsOutput g.y).toValue] :=
    fields?_object _ [] (by simp)
  unfold gridOfValue?
  refine Gives.congr (Gives.bind (Gives.of_eq hfields) (Gives.bind (gives_reals _).required
    (Gives.bind (gives_reals _).required (Gives.of_eq rfl)))) ?_
  rw [true_and, and_true, List.forall_mem_append]

theorem kindOfName?_name (k : ModelKind) : ModelKind.ofName? k.name = some k := by
  cases k <;> rfl

/-- **A written file** is read back, unless it cannot be held. -/
theorem gives_file (f : ReportFile) :
    Gives (ofValue? f.toOutput.toValue) f.Holdable (f.mapReals reread) := by
  have hfields : f.toOutput.toValue.fields?
      ["tool", "model", "backend", "parameter_names", "report", "grid"] =
        some [some (Output.string f.tool).toValue, some (Output.string f.model.name).toValue,
          some (Output.string f.backend).toValue,
          some (Output.array (f.parameterNames.map .string)).toValue,
          some (reportOutput f.report).toValue,
          some (Output.object [("x", realsOutput f.grid.x), ("y", realsOutput f.grid.y)]).toValue] :=
    fields?_object _ [] (by simp)
  have hnames : Gives ((Output.array (f.parameterNames.map .string)).toValue.list? Value.text?)
      True f.parameterNames := by
    have hlist := gives_list gives_text f.parameterNames
    rw [List.map_id'] at hlist
    exact hlist.congr (by simp)
  unfold ofValue?
  refine Gives.congr (Gives.bind (Gives.of_eq hfields) (Gives.bind (gives_text _).required
    (Gives.bind (gives_choice _).required (Gives.bind (Gives.of_eq (kindOfName?_name _))
      (Gives.bind (gives_text _).required (Gives.bind hnames.required
        (Gives.bind (gives_report _).required (Gives.bind (gives_grid _).required
          (Gives.of_eq rfl))))))))) ?_
  have hholdable : f.Holdable ↔ ((∀ x ∈ f.report.reals, x.isFinite) ∧
      ∀ n ∈ f.report.counts, n ≤ maxCount) ∧ ∀ x ∈ f.grid.x ++ f.grid.y, x.isFinite := by
    refine ⟨fun h => ?_, fun h => ⟨List.forall_mem_append.mpr ⟨h.1.1, h.2⟩, h.1.2⟩⟩
    obtain ⟨hreport, hgrid⟩ := List.forall_mem_append.mp h.reals
    exact ⟨⟨hreport, h.counts⟩, hgrid⟩
  rw [hholdable]
  tauto

/-- What is read from the text of a file. -/
theorem ofText_eq_ok_iff {f back : ReportFile} :
    ofText f.toText = .ok back ↔ f.Holdable ∧ back = f.mapReals reread := by
  have hgives := gives_file f
  unfold ofText toText
  rw [read?_pretty, Option.bind_some]
  by_cases hf : f.Holdable
  · rw [hgives.answer hf]
    exact ⟨fun h => ⟨hf, (Except.ok.inj h).symm⟩, fun h => congrArg _ h.2.symm⟩
  · have hnone : ofValue? f.toOutput.toValue = none :=
      Option.not_isSome_iff_eq_none.mp fun h => hf (hgives.only h)
    rw [hnone]
    exact ⟨nofun, fun h => absurd h.1 hf⟩

theorem mapReals_eq_self_iff {g : Float → Float} (f : ReportFile) :
    f.mapReals g = f ↔ ∀ x ∈ f.reals, g x = x := by
  unfold reals
  rw [List.forall_mem_append, List.forall_mem_append, ← f.report.map_eq_self_iff,
    ← CurveFit.map_eq_self_iff, ← CurveFit.map_eq_self_iff]
  obtain ⟨tool, kind, backend, names, report, x, y⟩ := f
  simp [mapReals]

/-- **What is read back** of a file that can be held: every text, count, choice and the shape of the
trace as they were, and the real numbers as they are reread.  That is the file itself exactly if every
real number is reread as itself, which numbers with few digits are; any other is off by a few
roundings. -/
theorem read_back (f : ReportFile) (hreals : ∀ x ∈ f.reals, x.isFinite)
    (hcounts : ∀ n ∈ f.report.counts, n ≤ maxCount) :
    ofText f.toText = .ok (f.mapReals reread) ∧
      (f.mapReals reread = f ↔ ∀ x ∈ f.reals, reread x = x) ∧
      (∀ x ∈ f.reals, (written x).1 < 2 ^ 53 → |(written x).2| ≤ 22 → reread x = x) ∧
      ∀ x ∈ f.reals, (reread x).isFinite ∧
        |value (reread x) - value x| ≤ |value x| / 2 ^ 49 + 2 ^ (-1071 : ℤ) := by
  refine ⟨ofText_eq_ok_iff.mpr ⟨⟨hreals, hcounts⟩, rfl⟩, f.mapReals_eq_self_iff, ?brief, ?close⟩
  case brief =>
    intro x hx hdigits hexp
    unfold reread
    rw [reread?_of_brief (hreals x hx) hdigits hexp]
    rfl
  case close =>
    intro x hx
    obtain ⟨y, hy⟩ := Option.isSome_iff_exists.mp (isSome_reread? (hreals x hx))
    unfold reread
    rw [hy]
    exact reread?_close (hreals x hx) hy

/-- A file of the report that a fit to a line gives, with a damping. -/
def ofLine (lambda : Float) : ReportFile :=
  { tool := "lmfit"
    model := .linear
    backend := "portable"
    parameterNames := ["slope", "intercept"]
    report := ⟨[2, 1], 0.5, 4, lambda, .converged, 10, some [⟨0, 1.5, 0.5, lambda, true⟩]⟩
    grid := ⟨[0, 0.5, 1], [1, 2, 3]⟩ }

theorem read_back_line :
    (∀ x ∈ (ofLine 0.125).reals, x.isFinite) ∧
      (∀ n ∈ (ofLine 0.125).report.counts, n ≤ maxCount) ∧
      ofText (ofLine 0.125).toText = .ok (ofLine 0.125) := by
  have hreals : ∀ x ∈ (ofLine 0.125).reals, x.isFinite := by decide +kernel
  have hcounts : ∀ n ∈ (ofLine 0.125).report.counts, n ≤ maxCount := by decide +kernel
  have hbrief : ∀ x ∈ (ofLine 0.125).reals, (written x).1 < 2 ^ 53 ∧ |(written x).2| ≤ 22 := by
    decide +kernel
  obtain ⟨hread, hself, hexact, -⟩ := read_back (ofLine 0.125) hreals hcounts
  refine ⟨hreals, hcounts, hread.trans (congrArg _ (hself.mpr fun x hx => ?_))⟩
  exact hexact x hx (hbrief x hx).1 (hbrief x hx).2

/-- A division by `10 ^ 30` reads `1e-30` as the number just below it. -/
theorem read_back_below :
    (∀ x ∈ (ofLine 1e-30).reals, x.isFinite) ∧
      (∀ n ∈ (ofLine 1e-30).report.counts, n ≤ maxCount) ∧
      ∃ back, ofText (ofLine 1e-30).toText = .ok back ∧ back.same (ofLine 1e-30) = false := by
  have hreals : ∀ x ∈ (ofLine 1e-30).reals, x.isFinite := by decide +kernel
  have hcounts : ∀ n ∈ (ofLine 1e-30).report.counts, n ≤ maxCount := by decide +kernel
  have hwritten : written 1e-30 = (1, -30) := by decide +kernel
  have hreread : (reread 1e-30 == 1e-30) = false := by
    have hpositive : Binary64.isNegative 1e-30 = false := by decide +kernel
    have hscaled : reread? 1e-30 = some (Float.ofNat 1 / tenTo 30) := by
      unfold reread?
      rw [hwritten, hpositive]
      show (scale? _ _).map _ = _
      rw [scale?_of_neg _ (by decide) (by decide)]
      rfl
    unfold reread
    rw [hscaled]
    decide +kernel
  refine ⟨hreals, hcounts, _, ofText_eq_ok_iff.mpr ⟨⟨hreals, hcounts⟩, rfl⟩, ?_⟩
  have hlambda : (((ofLine 1e-30).mapReals reread).report.lambda ==
      (ofLine 1e-30).report.lambda) = false := hreread
  unfold same
  rw [hlambda]
  simp only [Bool.and_false, Bool.false_and]

end ReportFile

end CurveFit
