import CurveFit.Fit.Solver
import CurveFit.Proofs.Fit.NormalEquations
import CurveFit.Proofs.Model.Slots

/-!
# Solvers whose buffers fit

A workspace `Fits` when its buffers have the sizes that the points and the parameters ask for; a
solver is `Ready` when its workspace fits and its observations and parameters have the right
number.  Starting and loading make a solver ready, and passes keep it so (`Ready.next`, `Ready.fit`).

What a pass of a ready solver finds is `Solver.findWith`, which uses no buffer but the row of
derivatives (`Solver.attempt_eq`).
-/

namespace CurveFit

open LaneVector

variable {α : Type} [OfNat α 0]

/-! ## Sizes -/

/-- The buffers of a workspace fit `n` points and `p` parameters. -/
structure Workspace.Fits (w : Workspace α) (n p : Nat) : Prop where
  estimate : w.estimate.HasLanes n
  residual : w.residual.HasLanes n
  scratch : w.scratch.HasLanes n
  columns : ∃ col : Nat → List α, (∀ j < p, (col j).length = n) ∧
    w.columns = (List.range p).map fun j => ofLanes (col j)
  row : w.row.length = p
  rows : w.matrix.rows = p
  cols : w.matrix.cols = p
  gradient : w.gradient.length = p
  trial : w.trial.length = p

/-- Buffers, observations and parameters of a solver have the sizes that its points and its model
ask for. -/
structure Solver.Ready (s : Solver α) : Prop where
  points : s.points = min s.sourceLength s.unit.capacity
  observed : s.y.HasLanes s.points
  counted : s.parameters.length = s.model.parameterCount
  fits : s.workspace.Fits s.points s.model.parameterCount

theorem Workspace.setUp_fits {n p : Nat} {initial : List α} (h : initial.length = p) :
    (Workspace.setUp (ofLanes (List.replicate n 0)) p initial).Fits n p := by
  have hblank : (ofLanes (List.replicate n (0 : α))).HasLanes n := .of_length (by simp)
  exact
    { estimate := hblank
      residual := hblank
      scratch := hblank
      columns := ⟨fun _ => List.replicate n 0, fun _ _ => by simp, by
        show List.replicate p _ = _
        rw [List.map_const', List.length_range]⟩
      row := by simp [Workspace.setUp]
      rows := rfl
      cols := rfl
      gradient := by simp [Workspace.setUp]
      trial := h }

/-! ## The sum of squares -/

namespace Solver

variable {s : Solver α} {w : Workspace α}

section Evaluate

variable [Sub α]

/-- What a curve misses of the observations. -/
def misses (s : Solver α) (f : α → α) : List α := List.zipWith (· - ·) s.y.lanes (s.x.map f)

theorem length_misses (hs : s.y.HasLanes s.points) (f : α → α) :
    (s.misses f).length = s.points := by
  obtain ⟨ys, hys, hy⟩ := hs
  unfold misses
  rw [hy, lanes_ofLanes, List.length_zipWith, List.length_map, hys]
  exact Nat.min_self _

variable [Mul α]

/-- A workspace that a curve has been evaluated in still fits. -/
theorem fits_evaluated (hs : s.y.HasLanes s.points) {p : Nat} (hw : w.Fits s.points p)
    (f : α → α) :
    { w with
      estimate := ofLanes (s.x.map f)
      residual := ofLanes (s.misses f)
      scratch := ofLanes (List.zipWith (· * ·) (s.misses f) (s.misses f)) }.Fits s.points p := by
  have hm := length_misses hs f
  exact
    { hw with
      estimate := .of_length (List.length_map ..)
      residual := .of_length hm
      scratch := .zipWith _ hm hm }

variable [Add α] [Div α] [Neg α]

/-- The sum of the squares of what a curve misses. -/
def chi2Of (s : Solver α) (f : α → α) : α := s.unit.kernel.productSum (s.misses f) (s.misses f)

/-- The sum of squares at parameter values. -/
def chi2At (s : Solver α) (values : List α) : Except Fault α :=
  (s.model.curve values).map s.chi2Of

/-- **The sum of squares.**  Evaluating at parameter values takes nothing from the workspace. -/
theorem chiSquared_eq (hs : s.y.HasLanes s.points) {p : Nat} (hw : w.Fits s.points p)
    (values : List α) :
    s.chiSquared values w = (s.model.curve values).map fun f =>
      (s.chi2Of f,
       { w with
         estimate := ofLanes (s.x.map f)
         residual := ofLanes (s.misses f)
         scratch := ofLanes (List.zipWith (· * ·) (s.misses f) (s.misses f)) }) := by
  unfold chiSquared
  cases s.model.curve values with
  | error e => rfl
  | ok f =>
    have hx : (s.x.map f).length = s.points := List.length_map ..
    have hm := length_misses hs f
    have hsub : s.unit.kernel.apply .sub s.y (ofLanes (s.x.map f)) w.residual =
        .ok (ofLanes (s.misses f)) := by
      obtain ⟨ys, hys, hy⟩ := hs
      have h := s.unit.kernel.apply_ofLanes .sub (hys.trans hx.symm)
        (hw.residual.of_eq hys.symm)
      unfold misses
      rw [hy, lanes_ofLanes]
      exact h
    have hsquares := Workspace.apply_mul_scratch (k := s.unit.kernel) hw.scratch hm hm
    show Except.bind (Kernel.apply _ _ _ (w.estimate.write (s.x.map f)) _) _ = _
    rw [hw.estimate.write hx, hsub]
    show Except.bind (Kernel.apply _ _ _ _ w.scratch) _ = _
    rw [hsquares]
    rfl

theorem chiSquared_ok (hs : s.y.HasLanes s.points) {p : Nat} (hw : w.Fits s.points p)
    {values : List α} {chi2 : α} {w' : Workspace α}
    (h : s.chiSquared values w = .ok (chi2, w')) :
    s.chi2At values = .ok chi2 ∧ w'.Fits s.points p := by
  rw [chiSquared_eq hs hw] at h
  obtain ⟨f, hf, hpair⟩ := map_eq_ok_iff.mp h
  cases hpair
  refine ⟨?_, fits_evaluated hs hw f⟩
  unfold chi2At
  rw [hf]
  rfl

end Evaluate

end Solver

/-! ## The derivatives -/

theorem mapIdx_map_range {β γ : Type} (g : Nat → β) (h : Nat → β → γ) (p : Nat) :
    ((List.range p).map g).mapIdx h = (List.range p).map fun j => h j (g j) := by
  apply List.ext_getElem
  · simp
  · intro j _ _
    simp

namespace Solver

variable {s : Solver α} {w : Workspace α}

/-- **The derivatives.**  The columns hold the slots of the rows, whatever they held before. -/
theorem fillColumns_eq {p : Nat} (hw : w.Fits s.points p) :
    s.fillColumns w = (do
      let d ← s.model.slopes s.parameters
      let rows ← derivativeRows d w.row s.x
      pure
        { w with
          columns := (List.range p).map fun j => ofLanes (slotLanes rows j)
          row := rows.getLastD w.row }) := by
  obtain ⟨col, hcol, hcolumns⟩ := hw.columns
  unfold fillColumns
  cases s.model.slopes s.parameters with
  | error e => rfl
  | ok d =>
    cases hrows : derivativeRows d w.row s.x with
    | error e =>
      show Except.bind (derivativeRows d w.row s.x) _ = Except.bind (derivativeRows d w.row s.x) _
      rw [hrows]
      rfl
    | ok rows =>
      have hwrite : (List.range p).map (fun j => (ofLanes (col j)).write (slotLanes rows j)) =
          (List.range p).map fun j => ofLanes (slotLanes rows j) := by
        apply List.map_congr_left
        intro j hj
        have hlen : (slotLanes rows j).length = (col j).length := by
          unfold slotLanes
          rw [List.length_map, (length_derivativeRows hrows).1, hcol j (List.mem_range.mp hj)]
          rfl
        exact write_ofLanes hlen
      show Except.bind (derivativeRows d w.row s.x) _ = Except.bind (derivativeRows d w.row s.x) _
      rw [hrows, hcolumns]
      show Except.ok { w with columns := List.mapIdx _ _, row := _ } = _
      rw [mapIdx_map_range]
      exact congrArg (fun c => Except.ok { w with columns := c, row := rows.getLastD w.row }) hwrite

/-- A workspace that derivatives have been written into still fits. -/
theorem fits_filled {p : Nat} (hw : w.Fits s.points p) {d : α → List α} {rows : List (List α)}
    (hrows : derivativeRows d w.row s.x = .ok rows) :
    { w with
      columns := (List.range p).map fun j => ofLanes (slotLanes rows j)
      row := rows.getLastD w.row }.Fits s.points p := by
  have hcount := (length_derivativeRows hrows).1
  have hlast := (length_getLastD hrows).trans hw.row
  exact
    { hw with
      columns := ⟨slotLanes rows, fun j _ => (List.length_map ..).trans hcount, rfl⟩
      row := hlast }

/-- The row of derivatives as a pass leaves it that has found it as `buffer`. -/
def rowAfter (s : Solver α) (buffer : List α) : List α :=
  match s.model.slopes s.parameters with
  | .error _ => buffer
  | .ok d =>
    match derivativeRows d buffer s.x with
    | .error _ => buffer
    | .ok rows => rows.getLastD buffer

omit [OfNat α 0] in
theorem length_rowAfter (s : Solver α) (buffer : List α) :
    (s.rowAfter buffer).length = buffer.length := by
  unfold rowAfter
  cases s.model.slopes s.parameters with
  | error e => rfl
  | ok d =>
    cases hrows : derivativeRows d buffer s.x with
    | error e =>
      simp only [hrows]
    | ok rows =>
      simp only [hrows]
      exact length_getLastD hrows

/-! ## What a pass finds -/

variable [OfNat α 1] [Add α] [Sub α] [Mul α] [Div α] [Neg α] [BEq α]

/-- The parameters that a pass tries, when the residual is known and the row of derivatives starts
from the given buffer. -/
def trialFrom (s : Solver α) (residual buffer : List α) : Except Fault (List α) := do
  let d ← s.model.slopes s.parameters
  let rows ← derivativeRows d buffer s.x
  pure (List.zipWith (· + ·) s.parameters
    (s.unit.kernel.increment s.lambda (slotLanes rows) residual s.model.parameterCount))

/-- Derivatives that fill the row leave nothing of what it held before. -/
theorem trialFrom_eq (hcounted : s.parameters.length = s.model.parameterCount)
    (hfill : s.model.FillsSlots) {buffer : List α} (hb : buffer.length = s.model.parameterCount)
    (residual : List α) :
    s.trialFrom residual buffer = (s.model.slopes s.parameters).map fun d =>
      List.zipWith (· + ·) s.parameters (s.unit.kernel.increment s.lambda
        (slotLanes (s.x.map d)) residual s.model.parameterCount) := by
  unfold trialFrom Model.slopes
  cases hd : s.model.slopes? s.parameters with
  | none => rfl
  | some d =>
    show Except.bind (derivativeRows d buffer s.x) _ = _
    rw [derivativeRows_eq_map (hfill _ d hcounted hd) hb]
    rfl

/-- What a pass finds when the row of derivatives starts from the given buffer. -/
def findWith (s : Solver α) (buffer : List α) : Except Fault (Attempt α) := do
  let f ← s.model.curve s.parameters
  let trial ← s.trialFrom (s.misses f) buffer
  let g ← s.model.curve trial
  pure ⟨s.chi2Of f, trial, s.chi2Of g⟩

/-- Solvers find the same whose sums of squares and trials agree. -/
theorem findWith_congr {t : Solver α} {b b' : List α} (hmodel : t.model = s.model)
    (hparameters : t.parameters = s.parameters) (hchi2 : ∀ f, s.chi2Of f = t.chi2Of f)
    (htrial : ∀ f, s.trialFrom (s.misses f) b = t.trialFrom (t.misses f) b') :
    s.findWith b = t.findWith b' := by
  unfold findWith
  simp only [hmodel, hparameters, hchi2, htrial]

theorem length_trialFrom (hs : s.Ready) {residual buffer trial : List α}
    (h : s.trialFrom residual buffer = .ok trial) : trial.length = s.model.parameterCount := by
  obtain ⟨d, _, h⟩ := bind_eq_ok_iff.mp h
  obtain ⟨rows, _, h⟩ := bind_eq_ok_iff.mp h
  cases h
  rw [List.length_zipWith, hs.counted, Kernel.length_increment, Nat.min_self]

/-- **The trial.**  It depends on the residual in the workspace and on the row of derivatives. -/
theorem propose_eq (hs : s.Ready) (hw : w.Fits s.points s.model.parameterCount)
    {residual : List α} (hres : w.residual = ofLanes residual)
    (hn : residual.length = s.points) :
    ∃ w' : Workspace α, w'.Fits s.points s.model.parameterCount ∧ w'.row = s.rowAfter w.row ∧
      s.propose w = (s.trialFrom residual w.row).map fun trial => { w' with trial } := by
  unfold propose trialFrom rowAfter
  rw [fillColumns_eq hw]
  cases s.model.slopes s.parameters with
  | error e => exact ⟨w, hw, rfl, rfl⟩
  | ok d =>
    show ∃ w' : Workspace α, _ ∧ w'.row = (match derivativeRows d w.row s.x with
        | .error _ => w.row
        | .ok rows => rows.getLastD w.row) ∧
      Except.bind (Except.bind (derivativeRows d w.row s.x) _) _ =
        Except.map _ (Except.bind (derivativeRows d w.row s.x) _)
    cases hrows : derivativeRows d w.row s.x with
    | error e => exact ⟨w, hw, rfl, rfl⟩
    | ok rows =>
      have hw₁ := fits_filled hw hrows
      have hcol : ∀ j < s.model.parameterCount, (slotLanes rows j).length = s.points :=
        fun j _ => (List.length_map ..).trans (length_derivativeRows hrows).1
      obtain ⟨w₂, scratch, matrix, hassemble, hscratch, hmrows, hmcols, hsolve⟩ :=
        Workspace.solve_assembled s.unit.kernel s.lambda hn hcol hw₁.scratch hw₁.rows hw₁.cols
          hres hw₁.gradient rfl
      let w' : Workspace α := { w with
        columns := (List.range s.model.parameterCount).map fun j => ofLanes (slotLanes rows j)
        row := rows.getLastD w.row
        scratch
        matrix
        gradient := s.unit.kernel.increment s.lambda (slotLanes rows) residual
          s.model.parameterCount }
      have hw' : w'.Fits s.points s.model.parameterCount :=
        { hw₁ with
          scratch := hscratch
          rows := hmrows
          cols := hmcols
          gradient := Kernel.length_increment .. }
      refine ⟨w', hw', rfl, ?_⟩
      show Except.bind (Workspace.assemble _ _ _) _ = _
      rw [hassemble]
      show Except.bind (Workspace.solve _) _ = _
      rw [hsolve]
      have hlen : (List.zipWith (· + ·) s.parameters w'.gradient).length = w.trial.length := by
        rw [List.length_zipWith, hs.counted, hw'.gradient, Nat.min_self, hw.trial]
      exact congrArg (fun trial => Except.ok { w' with trial }) (overwrite_of_length_eq hlen)

/-- **An attempt.**  Of all the buffers, only the row of derivatives has a say in what a pass
finds, and the workspace fits again afterwards. -/
theorem attempt_eq (hs : s.Ready) :
    ∃ w : Workspace α, w.Fits s.points s.model.parameterCount ∧
      w.row = s.rowAfter s.workspace.row ∧
      s.attempt = (s.findWith s.workspace.row).map fun a => (a, w) := by
  have hobs := hs.observed
  -- after a fault no workspace is left, so that any will do
  have hany : ∃ w : Workspace α, w.Fits s.points s.model.parameterCount ∧
      w.row = s.rowAfter s.workspace.row :=
    ⟨{ s.workspace with row := s.rowAfter s.workspace.row },
      { hs.fits with row := (length_rowAfter ..).trans hs.fits.row }, rfl⟩
  obtain ⟨w₀, hw₀, hrow₀⟩ := hany
  unfold attempt findWith
  rw [chiSquared_eq hobs hs.fits]
  cases s.model.curve s.parameters with
  | error e => exact ⟨w₀, hw₀, hrow₀, rfl⟩
  | ok f =>
    have hw := fits_evaluated hobs hs.fits f
    obtain ⟨w₁, hw₁, hrow₁, hpropose⟩ := propose_eq hs hw rfl (length_misses hobs f)
    show ∃ w : Workspace α, _ ∧ _ ∧ Except.bind (s.propose _) _ =
      Except.map _ (Except.bind (s.trialFrom (s.misses f) s.workspace.row) _)
    rw [hpropose]
    cases htrial : s.trialFrom (s.misses f) s.workspace.row with
    | error e => exact ⟨w₀, hw₀, hrow₀, rfl⟩
    | ok trial =>
      have hw₂ : { w₁ with trial }.Fits s.points s.model.parameterCount :=
        { hw₁ with trial := length_trialFrom hs htrial }
      show ∃ w : Workspace α, _ ∧ _ ∧ Except.bind (s.chiSquared trial _) _ =
        Except.map _ (Except.bind (s.model.curve trial) _)
      rw [chiSquared_eq hobs hw₂]
      cases s.model.curve trial with
      | error e => exact ⟨w₀, hw₀, hrow₀, rfl⟩
      | ok g => exact ⟨_, fits_evaluated hobs hw₂ g, hrow₁, rfl⟩

/-- An attempt whose curves and trial exist finds their sums of squares. -/
theorem Ready.attempt_of_trial (hs : s.Ready) {f g : α → α} {trial : List α}
    (hf : s.model.curve s.parameters = .ok f)
    (htrial : s.trialFrom (s.misses f) s.workspace.row = .ok trial)
    (hg : s.model.curve trial = .ok g) :
    ∃ w, s.attempt = .ok (⟨s.chi2Of f, trial, s.chi2Of g⟩, w) := by
  have hfind : s.findWith s.workspace.row = .ok ⟨s.chi2Of f, trial, s.chi2Of g⟩ := by
    unfold findWith
    rw [hf]
    show Except.bind (s.trialFrom (s.misses f) s.workspace.row) _ = _
    rw [htrial]
    show Except.bind (s.model.curve trial) _ = _
    rw [hg]
    rfl
  obtain ⟨w, -, -, hattempt⟩ := attempt_eq hs
  rw [hfind] at hattempt
  exact ⟨w, hattempt⟩

/-- What an attempt consists of. -/
theorem findWith_ok (hs : s.Ready) {buffer : List α} {a : Attempt α}
    (h : s.findWith buffer = .ok a) :
    s.chi2At s.parameters = .ok a.chi2 ∧ a.trial.length = s.model.parameterCount ∧
      s.chi2At a.trial = .ok a.trialChi2 := by
  obtain ⟨f, hf, h⟩ := bind_eq_ok_iff.mp h
  obtain ⟨trial, htrial, h⟩ := bind_eq_ok_iff.mp h
  obtain ⟨g, hg, h⟩ := bind_eq_ok_iff.mp h
  cases h
  unfold chi2At
  rw [hf, hg]
  exact ⟨rfl, length_trialFrom hs htrial, rfl⟩

theorem attempt_ok (hs : s.Ready) {a : Attempt α} {w : Workspace α}
    (h : s.attempt = .ok (a, w)) :
    w.Fits s.points s.model.parameterCount ∧ s.findWith s.workspace.row = .ok a := by
  obtain ⟨w', hw', -, heq⟩ := attempt_eq hs
  obtain ⟨a', ha', hpair⟩ := map_eq_ok_iff.mp (heq.symm.trans h)
  cases hpair
  exact ⟨hw', ha'⟩

/-- An attempt reports the sums of squares at the parameters and at its trial. -/
theorem Ready.measured (hs : s.Ready) {a : Attempt α} {w : Workspace α}
    (h : s.attempt = .ok (a, w)) :
    s.chi2At s.parameters = .ok a.chi2 ∧ s.chi2At a.trial = .ok a.trialChi2 := by
  obtain ⟨hchi2, -, htrial⟩ := findWith_ok hs (attempt_ok hs h).2
  exact ⟨hchi2, htrial⟩

end Solver

end CurveFit
