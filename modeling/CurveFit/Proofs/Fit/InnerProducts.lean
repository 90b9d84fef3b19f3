import CurveFit.Proofs.Fit.History
import CurveFit.Proofs.Lanes.Programs

/-!
# Solvers with inner products

Wherever a solver needs a sum of products it multiplies into its scratch vector and adds that up.  An
inner product would do: over padded storage both are the same number, as long as the product of two
zeros is zero (`Kernel.exists_products`).  The functions whose names end in `Directly` are those of
the solver with inner products in these places, in the sum of squares, in the matrix and in the
right-hand side; they never touch the scratch vector.  Step by step they do what the solver does
(`Workspace.assemble_follows`, `Solver.chiSquared_follows`, `Solver.pass_follows`), hence so do whole
sequences of calls: `inner_products_suffice`.
-/

namespace CurveFit

open LaneVector

variable {α : Type}

/-! ## One sum of products -/

section Products

variable [OfNat α 0] [Add α] [Sub α] [Mul α] [Div α] [Neg α] {n : ℕ} {a b d : LaneVector α}

/-- The inner product of two vectors that have to have one length. -/
def Kernel.directTotal (k : Kernel) (a b : LaneVector α) : Except Fault α :=
  (k.innerProduct a b).mapError fun _ => .lengths "inner_product" a.length b.length

omit [Neg α] in
/-- Vectors with as many lanes as their destination have a result. -/
theorem Kernel.exists_apply (k : Kernel) (op : Operator) (ha : a.HasLanes n) (hb : b.HasLanes n)
    (hd : d.HasLanes n) : ∃ r, r.HasLanes n ∧ k.apply op a b d = .ok r := by
  obtain ⟨xs, hx, rfl⟩ := ha
  obtain ⟨ys, hy, rfl⟩ := hb
  exact ⟨_, .zipWith op.apply hx hy, k.apply_ofLanes op (hx.trans hy.symm) (hd.of_eq hx.symm)⟩

/-- **One sum of products.**  The products written over any vector of their number add up to the inner
product. -/
theorem Kernel.exists_products (k : Kernel) (hzero : (0 : α) * 0 = 0) (ha : a.HasLanes n)
    (hb : b.HasLanes n) (hd : d.HasLanes n) : ∃ products, products.HasLanes n ∧
      k.apply .mul a b d = .ok products ∧ k.innerProduct a b = .ok (k.total products) := by
  obtain ⟨xs, hx, rfl⟩ := ha
  obtain ⟨ys, hy, rfl⟩ := hb
  have hxy : xs.length = ys.length := hx.trans hy.symm
  refine ⟨_, .zipWith (· * ·) hx hy, k.apply_ofLanes .mul hxy (hd.of_eq hx.symm), ?_⟩
  unfold innerProduct
  rw [length_ofLanes, length_ofLanes, if_pos hxy, k.dot_storage hzero hxy]
  rfl

omit [Sub α] [Div α] in
theorem Kernel.directTotal_eq_ok {k : Kernel} {total : α} (h : k.innerProduct a b = .ok total) :
    k.directTotal a b = .ok total :=
  mapError_eq_ok_iff.mpr h

end Products

/-! ## The normal equations -/

namespace Workspace

/-- The workspace with another scratch vector. -/
def withScratch (w : Workspace α) (c : LaneVector α) : Workspace α := { w with scratch := c }

variable [OfNat α 0] [Add α] [Mul α] [Neg α]

/-- An inner product as the entry in row `r` and column `c`, and as its mirror image. -/
def writeEntryDirectly (w : Workspace α) (k : Kernel) (r c : ℕ) (a b : LaneVector α) :
    Except Fault (Workspace α) := do
  let total ← k.directTotal a b
  let matrix ← w.matrix.set? r c total
  let matrix ← matrix.set? c r total
  pure { w with matrix }

/-- The entries of row `r` from column `c` on; `rest` holds the vectors from `c` on. -/
def writeEntriesDirectly (w : Workspace α) (k : Kernel) (r : ℕ) (a : LaneVector α) (c : ℕ) :
    (rest : List (LaneVector α)) → Except Fault (Workspace α)
  | [] => .ok w
  | b :: rest => do
    let w ← w.writeEntryDirectly k r c a b
    w.writeEntriesDirectly k r a (c + 1) rest

/-- The right-hand side of row `r`. -/
def writeGradientDirectly (w : Workspace α) (k : Kernel) (r : ℕ) (a : LaneVector α) :
    Except Fault (Workspace α) := do
  let total ← k.directTotal w.residual a
  if r < w.gradient.length then pure { w with gradient := w.gradient.set r total }
  else throw .outOfRange

/-- The equations from row `r` on; `rest` holds the vectors from `r` on. -/
def assembleFromDirectly [OfNat α 1] (w : Workspace α) (k : Kernel) (lambda : α) (r : ℕ) :
    (rest : List (LaneVector α)) → Except Fault (Workspace α)
  | [] => .ok w
  | a :: rest => do
    let w ← w.writeEntriesDirectly k r a r (a :: rest)
    let matrix ← w.matrix.modify? r r (· * (1 + lambda))
    let w ← { w with matrix }.writeGradientDirectly k r a
    w.assembleFromDirectly k lambda (r + 1) rest

/-- The workspace with the damped normal equations written into it. -/
def assembleDirectly [OfNat α 1] (w : Workspace α) (k : Kernel) (lambda : α) :
    Except Fault (Workspace α) :=
  w.assembleFromDirectly k lambda 0 w.columns

/-- While equations are written, one workspace follows another: it has the scratch vector `c` and is
the same otherwise, and the vectors that the equations are written with have `n` lanes. -/
structure Follows (c : LaneVector α) (n : ℕ) (w w' : Workspace α) : Prop where
  same : w' = w.withScratch c
  scratch : w.scratch.HasLanes n
  residual : w.residual.HasLanes n

variable [Sub α] [Div α] {k : Kernel} {c : LaneVector α} {n : ℕ} {w w' : Workspace α}

theorem writeEntry_follows (hzero : (0 : α) * 0 = 0) (h : Follows c n w w') {a b : LaneVector α}
    (ha : a.HasLanes n) (hb : b.HasLanes n) (r i : ℕ) :
    Agree (Follows c n) (w.writeEntry k r i a b) (w'.writeEntryDirectly k r i a b) := by
  obtain ⟨rfl, hscratch, hresidual⟩ := h
  obtain ⟨products, hproducts, hmul, htotal⟩ := k.exists_products hzero ha hb hscratch
  unfold writeEntry writeEntryDirectly
  rw [hmul, Kernel.directTotal_eq_ok htotal]
  refine (Agree.refl (w.matrix.set? r i (k.total products))).bind ?_
  rintro matrix _ rfl
  refine (Agree.refl (matrix.set? i r (k.total products))).bind ?_
  rintro matrix _ rfl
  exact .ok ⟨rfl, hproducts, hresidual⟩

theorem writeEntries_follows (hzero : (0 : α) * 0 = 0) (h : Follows c n w w') {a : LaneVector α}
    (ha : a.HasLanes n) {rest : List (LaneVector α)} (hrest : ∀ b ∈ rest, b.HasLanes n) (r i : ℕ) :
    Agree (Follows c n) (w.writeEntries k r a i rest) (w'.writeEntriesDirectly k r a i rest) := by
  induction rest generalizing w w' i with
  | nil => exact .ok h
  | cons b rest ih =>
    obtain ⟨hb, hrest⟩ := List.forall_mem_cons.mp hrest
    exact (writeEntry_follows hzero h ha hb r i).bind fun _ _ h' => ih h' hrest (i + 1)

theorem writeGradient_follows (hzero : (0 : α) * 0 = 0) (h : Follows c n w w') {a : LaneVector α}
    (ha : a.HasLanes n) (r : ℕ) :
    Agree (Follows c n) (w.writeGradient k r a) (w'.writeGradientDirectly k r a) := by
  obtain ⟨rfl, hscratch, hresidual⟩ := h
  obtain ⟨products, hproducts, hmul, htotal⟩ := k.exists_products hzero hresidual ha hscratch
  unfold writeGradient writeGradientDirectly
  rw [hmul]
  show Agree _ _ (k.directTotal w.residual a >>= _)
  rw [Kernel.directTotal_eq_ok htotal]
  show Agree _ (if r < w.gradient.length then _ else _) (if r < w.gradient.length then _ else _)
  split
  · exact .ok ⟨rfl, hproducts, hresidual⟩
  · exact .error _

variable [OfNat α 1]

theorem assembleFrom_follows (hzero : (0 : α) * 0 = 0) (h : Follows c n w w') (lambda : α)
    {rest : List (LaneVector α)} (hrest : ∀ a ∈ rest, a.HasLanes n) (r : ℕ) :
    Agree (Follows c n) (w.assembleFrom k lambda r rest) (w'.assembleFromDirectly k lambda r rest) := by
  induction rest generalizing w w' r with
  | nil => exact .ok h
  | cons a rest ih =>
    obtain ⟨ha, hrest'⟩ := List.forall_mem_cons.mp hrest
    refine (writeEntries_follows hzero h ha hrest r r).bind ?_
    rintro w₁ _ ⟨rfl, hscratch, hresidual⟩
    refine (Agree.refl (w₁.matrix.modify? r r (· * (1 + lambda)))).bind ?_
    rintro matrix _ rfl
    have h₂ : Follows c n { w₁ with matrix } { w₁.withScratch c with matrix } :=
      ⟨rfl, hscratch, hresidual⟩
    exact (writeGradient_follows hzero h₂ ha r).bind fun _ _ h₃ => ih h₃ hrest' (r + 1)

/-- **Assembling** with inner products gives the same equations. -/
theorem assemble_follows (hzero : (0 : α) * 0 = 0) {p : ℕ} (hw : w.Fits n p) (c : LaneVector α)
    (k : Kernel) (lambda : α) : (w.withScratch c).assembleDirectly k lambda =
      (w.assemble k lambda).map (·.withScratch c) := by
  have hcolumns : ∀ a ∈ w.columns, a.HasLanes n := by
    obtain ⟨col, hcol, hcolumns⟩ := hw.columns
    intro a ha
    rw [hcolumns] at ha
    obtain ⟨j, hj, rfl⟩ := List.mem_map.mp ha
    exact .of_length (hcol j (List.mem_range.mp hj))
  exact (assembleFrom_follows hzero ⟨rfl, hw.scratch, hw.residual⟩ lambda hcolumns 0).eq_map
    fun _ _ h => h.same

end Workspace

/-! ## The solver -/

namespace Solver

/-- The solver with another scratch vector. -/
def withScratch (s : Solver α) (c : LaneVector α) : Solver α :=
  { s with workspace := s.workspace.withScratch c }

section Evaluate

variable [OfNat α 0] [Add α] [Sub α] [Mul α] [Div α] [Neg α]

/-- The sum of squares as the inner product of the residual with itself. -/
def chiSquaredDirectly (s : Solver α) (values : List α) (w : Workspace α) :
    Except Fault (α × Workspace α) := do
  let f ← s.model.curve values
  let estimate := w.estimate.write (s.x.map f)
  let residual ← s.unit.kernel.apply .sub s.y estimate w.residual
  let total ← s.unit.kernel.directTotal residual residual
  pure (total, { w with estimate, residual })

theorem chiSquared_follows (hzero : (0 : α) * 0 = 0) {s : Solver α} (hs : s.y.HasLanes s.points)
    {p : ℕ} {w : Workspace α} (hw : w.Fits s.points p) (values : List α) (c : LaneVector α) :
    s.chiSquaredDirectly values (w.withScratch c) =
      (s.chiSquared values w).map fun p => (p.1, p.2.withScratch c) := by
  refine bind_eq_map fun f _ => ?_
  have hestimate : (w.estimate.write (s.x.map f)).HasLanes s.points := by
    have hlen : (s.x.map f).length = s.points := List.length_map f
    rw [hw.estimate.write hlen]
    exact .of_length hlen
  obtain ⟨residual, hresidual, hsub⟩ := s.unit.kernel.exists_apply .sub hs hestimate hw.residual
  obtain ⟨squares, -, hmul, htotal⟩ :=
    s.unit.kernel.exists_products hzero hresidual hresidual hw.scratch
  show (s.unit.kernel.apply .sub s.y (w.estimate.write (s.x.map f)) w.residual >>= _) =
    Except.map _ (s.unit.kernel.apply .sub s.y (w.estimate.write (s.x.map f)) w.residual >>= _)
  rw [hsub]
  show (s.unit.kernel.directTotal residual residual >>= _) =
    Except.map _ (s.unit.kernel.apply .mul residual residual w.scratch >>= _)
  rw [hmul, Kernel.directTotal_eq_ok htotal]
  rfl

end Evaluate

variable [OfNat α 0] [OfNat α 1] [Add α] [Sub α] [Mul α] [Div α] [Neg α] [BEq α]

/-- The workspace with the parameters to try in it. -/
def proposeDirectly (s : Solver α) (w : Workspace α) : Except Fault (Workspace α) := do
  let w ← s.fillColumns w
  let w ← w.assembleDirectly s.unit.kernel s.lambda
  let (w, _) ← w.solve
  pure { w with trial := overwrite w.trial (List.zipWith (· + ·) s.parameters w.gradient) }

/-- What a pass finds, and the workspace as it leaves it. -/
def attemptDirectly (s : Solver α) : Except Fault (Attempt α × Workspace α) := do
  let (chi2, w) ← s.chiSquaredDirectly s.parameters s.workspace
  let w ← s.proposeDirectly w
  let trial := w.trial
  let (trialChi2, w) ← s.chiSquaredDirectly trial w
  pure (⟨chi2, trial, trialChi2⟩, w)

variable {s : Solver α} {w : Workspace α} {c : LaneVector α}

theorem propose_follows (hzero : (0 : α) * 0 = 0) (hw : w.Fits s.points s.model.parameterCount)
    (c : LaneVector α) : s.proposeDirectly (w.withScratch c) =
      (s.propose w).map (·.withScratch c) := by
  have hfill : s.fillColumns (w.withScratch c) = (s.fillColumns w).map (·.withScratch c) :=
    bind_eq_map fun _ _ => bind_eq_map fun _ _ => rfl
  unfold proposeDirectly propose
  rw [hfill, map_bind]
  refine bind_eq_map fun w₁ hw₁ => ?_
  have hfits : w₁.Fits s.points s.model.parameterCount := by
    rw [fillColumns_eq hw] at hw₁
    obtain ⟨d, -, hw₁⟩ := bind_eq_ok_iff.mp hw₁
    obtain ⟨rows, hrows, hw₁⟩ := bind_eq_ok_iff.mp hw₁
    cases hw₁
    exact fits_filled hw hrows
  rw [Workspace.assemble_follows hzero hfits, map_bind]
  exact bind_eq_map fun w₂ _ => by
    unfold Workspace.solve
    show (Except.bind (DenseMatrix.solve w₂.matrix w₂.gradient) _ >>= _) =
      Except.map _ (Except.bind (DenseMatrix.solve w₂.matrix w₂.gradient) _ >>= _)
    cases DenseMatrix.solve w₂.matrix w₂.gradient <;> rfl

theorem fits_proposed (hs : s.Ready) (hw : w.Fits s.points s.model.parameterCount)
    {w' : Workspace α} (h : s.propose w = .ok w') : w'.Fits s.points s.model.parameterCount := by
  obtain ⟨residual, hlen, hresidual⟩ := hw.residual
  obtain ⟨w₁, hw₁, -, hpropose⟩ := propose_eq hs hw hresidual hlen
  rw [hpropose] at h
  obtain ⟨trial, htrial, rfl⟩ := map_eq_ok_iff.mp h
  exact { hw₁ with trial := length_trialFrom hs htrial }

/-- **An attempt** with inner products finds the same. -/
theorem attempt_follows (hzero : (0 : α) * 0 = 0) (hs : s.Ready) (c : LaneVector α) :
    (s.withScratch c).attemptDirectly = s.attempt.map fun p => (p.1, p.2.withScratch c) := by
  show (s.chiSquaredDirectly s.parameters (s.workspace.withScratch c) >>= _) = _
  rw [chiSquared_follows hzero hs.observed hs.fits, map_bind]
  refine bind_eq_map ?_
  rintro ⟨chi2, w₁⟩ hchi2
  have hw₁ := (chiSquared_ok hs.observed hs.fits hchi2).2
  show (s.proposeDirectly (w₁.withScratch c) >>= _) = _
  rw [propose_follows hzero hw₁, map_bind]
  refine bind_eq_map fun w₂ hpropose => ?_
  have hw₂ := fits_proposed hs hw₁ hpropose
  show (s.chiSquaredDirectly w₂.trial (w₂.withScratch c) >>= _) = _
  rw [chiSquared_follows hzero hs.observed hw₂, map_bind]
  exact bind_eq_map fun _ _ => rfl

section Fit

variable [OfNat α 10] [LE α] [DecidableLE α] [LT α] [DecidableLT α] [FitScalar α]

/-- One pass. -/
def passDirectly (s : Solver α) (iteration : ℕ) : Except Fault (Solver α × Verdict) := do
  let (a, workspace) ← s.attemptDirectly
  pure ({ s with workspace }.conclude iteration a)

/-- Passes until one stops the fit or `budget` passes have followed the first. -/
def passesDirectly (s : Solver α) (iteration : ℕ) (budget : ℕ) :
    Except Fault (Solver α × ℕ × Termination) := do
  let (s, verdict) ← s.passDirectly iteration
  match verdict with
  | .stopped t => pure (s, iteration + 1, t)
  | .running =>
    match budget with
    | 0 => pure (s, iteration + 1, .iterationLimit)
    | budget + 1 => s.passesDirectly (iteration + 1) budget

/-- Improves the current parameters. -/
def fitDirectly (s : Solver α) : Except Fault (FitReport α × Solver α) := do
  let (s, iterations, termination) ← s.passesDirectly 0 s.settings.maxIterations
  let (chi2, w) ← s.chiSquaredDirectly s.parameters s.workspace
  pure (s.reportOf chi2 iterations termination, s.rested w)

/-- The reports on a sequence of calls, and the solver after them. -/
def serveDirectly : Solver α → List (Call α) → Except Fault (List (FitReport α) × Solver α)
  | s, [] => .ok ([], s)
  | s, .fit :: calls => do
    let (report, s) ← s.fitDirectly
    let (reports, s) ← s.serveDirectly calls
    pure (report :: reports, s)
  | s, .reload y initial :: calls =>
    match s.reload y initial with
    | .ok s => s.serveDirectly calls
    | .error _ => s.serveDirectly calls

/-- **One pass** with inner products does the same. -/
theorem pass_follows (hzero : (0 : α) * 0 = 0) (hs : s.Ready) (c : LaneVector α) (i : ℕ) :
    (s.withScratch c).passDirectly i =
      (s.pass i).map fun p => (p.1.withScratch c, p.2) := by
  unfold passDirectly pass
  rw [attempt_follows hzero hs, map_bind]
  refine bind_eq_map ?_
  rintro ⟨a, w⟩ _
  show Except.ok (conclude _ i a) = Except.ok _
  rw [conclude_eq, conclude_eq]
  rfl

theorem Ready.of_pass (hs : s.Ready) {t : Solver α} {i : ℕ} {verdict : Verdict}
    (h : s.pass i = .ok (t, verdict)) : t.Ready := by
  obtain ⟨a, w, hattempt, rfl, -⟩ := pass_eq_ok_iff.mp h
  exact hs.next hattempt i

theorem passes_follows (hzero : (0 : α) * 0 = 0) (hs : s.Ready) (c : LaneVector α) (i budget : ℕ) :
    (s.withScratch c).passesDirectly i budget =
      (s.passes i budget).map fun p => (p.1.withScratch c, p.2) := by
  induction budget generalizing s i with
  | zero =>
    unfold passesDirectly passes
    rw [pass_follows hzero hs, map_bind]
    refine bind_eq_map ?_
    rintro ⟨t, verdict⟩ _
    cases verdict <;> rfl
  | succ budget ih =>
    unfold passesDirectly passes
    rw [pass_follows hzero hs, map_bind]
    refine bind_eq_map ?_
    rintro ⟨t, verdict⟩ hpass
    cases verdict with
    | stopped ending => rfl
    | running => exact ih (hs.of_pass hpass) (i + 1)

/-- A fit with inner products gives the same report. -/
theorem fit_follows (hzero : (0 : α) * 0 = 0) (hs : s.Ready) (c : LaneVector α) :
    (s.withScratch c).fitDirectly = s.fit.map fun p => (p.1, p.2.withScratch c) := by
  show ((s.withScratch c).passesDirectly 0 s.settings.maxIterations >>= _) = _
  rw [passes_follows hzero hs, map_bind]
  refine bind_eq_map ?_
  rintro ⟨t, n, ending⟩ hpasses
  obtain ⟨visits, htrail, -⟩ := passes_eq_ok_iff.mp hpasses
  have ht := (htrail.ready hs).1
  show (t.chiSquaredDirectly t.parameters (t.workspace.withScratch c) >>= _) = _
  rw [chiSquared_follows hzero ht.observed ht.fits, map_bind]
  exact bind_eq_map fun _ _ => rfl

/-- **Calls** with inner products give the same reports. -/
theorem serve_follows (hzero : (0 : α) * 0 = 0) (hs : s.Ready) (c : LaneVector α)
    (calls : List (Call α)) :
    (s.withScratch c).serveDirectly calls =
      (s.serve calls).map fun p => (p.1, p.2.withScratch c) := by
  induction calls generalizing s with
  | nil => rfl
  | cons call calls ih =>
    cases call with
    | fit =>
      show ((s.withScratch c).fitDirectly >>= _) = Except.map _ (s.fit >>= _)
      rw [fit_follows hzero hs, map_bind]
      refine bind_eq_map ?_
      rintro ⟨report, t⟩ hfit
      show ((t.withScratch c).serveDirectly calls >>= _) = Except.map _ (t.serve calls >>= _)
      rw [ih (hs.fit hfit).1, map_bind]
      exact bind_eq_map fun _ _ => rfl
    | reload y initial =>
      unfold serveDirectly serve
      rw [reload_comm (f := (·.withScratch c)) rfl rfl rfl]
      cases hloaded : s.reload y initial with
      | error e => exact ih hs
      | ok t =>
        obtain ⟨hlen, hcount, rfl⟩ := reload_eq_ok_iff.mp hloaded
        exact ih (hs.loaded hlen hcount)

end Fit

end Solver

/-! ## Binary64 -/

theorem zero_mul_zero : (0 : Float) * 0 = 0 := by decide +kernel

/-- Vectors of a bank with one length have an inner product, and their products written over any third
one add up to it. -/
theorem Bank.Padded.products {u : VectorUnit} {bank : Bank Float} (hbank : bank.Padded u.capacity)
    {i j d : String} {a b dst : LaneVector Float} (ha : bank.get? i = .ok a)
    (hb : bank.get? j = .ok b) (hdst : bank.get? d = .ok dst) (hab : a.length = b.length)
    (hlen : dst.length = a.length) :
    ∃ v, u.kernel.innerProduct a b = .ok v ∧ u.kernel.productTotal a b dst = .ok v := by
  have hlanes {name : String} {v : LaneVector Float} (h : bank.get? name = .ok v) :
      v.HasLanes v.length := by
    have hv := (hbank.get? h).eq_ofLanes
    exact ⟨v.lanes, (congrArg LaneVector.length hv).symm, hv⟩
  obtain ⟨products, -, hmul, htotal⟩ := u.kernel.exists_products zero_mul_zero (hlanes ha)
    ((hlanes hb).of_eq hab.symm) ((hlanes hdst).of_eq hlen)
  refine ⟨_, htotal, ?_⟩
  unfold Kernel.productTotal
  rw [hmul]
  rfl

/-- **Inner products would do.**  Vectors of one length that any program has left in a bank have an
inner product, and it is to the bit what their products, written over any vector of that length, add
up to.  And a solver with inner products in place of products that go through its scratch vector
gives the same reports on any calls and ends at the same solver, or fails in the same way; what is in
the scratch vector does not matter to it. -/
theorem inner_products_suffice :
    (∀ (u : VectorUnit) (program : List (BankStep Float)) (i j d : String)
      (a b dst : LaneVector Float), (Bank.runAll u [] program).get? i = .ok a →
      (Bank.runAll u [] program).get? j = .ok b → (Bank.runAll u [] program).get? d = .ok dst →
      a.length = b.length → dst.length = a.length →
      ∃ v, u.kernel.innerProduct a b = .ok v ∧ u.kernel.productTotal a b dst = .ok v) ∧
    ∀ (u : VectorUnit) (model : Model Float) (x y initial : List Float) (settings : FitSettings)
      (s : Solver Float), Solver.new u model x y initial settings = .ok s →
      ∀ (c : LaneVector Float) (calls : List (Call Float)),
        (s.withScratch c).serveDirectly calls =
          (s.serve calls).map fun p => (p.1, p.2.withScratch c) := by
  constructor
  · intro u program i j d a b dst ha hb hdst hab hlen
    have hbank : (Bank.runAll u [] program).Padded u.capacity :=
      Bank.Padded.runAll (List.forall_mem_nil _) program
    exact hbank.products ha hb hdst hab hlen
  · intro u model x y initial settings s hnew c calls
    obtain ⟨hlen, hcount, rfl⟩ := Solver.new_ok hnew
    exact Solver.serve_follows zero_mul_zero (Solver.ready_fresh hlen hcount) c calls

/-- Five lanes with a sign of zero, a product that is rounded and stale lanes in the destination; and a
line that is fitted, loaded and fitted again, with nothing in the scratch vector. -/
theorem inner_products_suffice_five_lanes :
    let u : VectorUnit := ⟨.avx2, 8⟩
    let program : List (BankStep Float) := [.ofList "a" [0.1, 0.2, -0.3, 1.0, 3.0],
      .ofList "b" [0.3, 0.7, 0.1, -0.0, 0.1], .filled "d" 5 7.0]
    let model : Model Float := .polynomial [0.0, 1.0] [.nonNegative]
    let settings := { FitSettings.default with maxIterations := 1 }
    let calls : List (Call Float) := [.fit, .reload [2.0, 1.0, 0.0] [0.5, 0.5], .fit]
    ∃ a b d v s p, (Bank.runAll u [] program).get? "a" = .ok a ∧
      (Bank.runAll u [] program).get? "b" = .ok b ∧ (Bank.runAll u [] program).get? "d" = .ok d ∧
        u.kernel.innerProduct a b = .ok v ∧ u.kernel.productTotal a b d = .ok v ∧
          Solver.new u model [1.0, 2.0, 3.0] [1.0, 0.5, 4.0] [0.0, 1.0] settings = .ok s ∧
            s.serve calls = .ok p ∧ (s.withScratch (ofLanes [])).serveDirectly calls =
              .ok (p.1, p.2.withScratch (ofLanes [])) := by
  intro u program model settings calls
  obtain ⟨a, ha, halen⟩ : ∃ a, (Bank.runAll u [] program).get? "a" = .ok a ∧
      decide (a.length = 5) = true := exists_of_any (by decide +kernel)
  obtain ⟨b, hb, hblen⟩ : ∃ b, (Bank.runAll u [] program).get? "b" = .ok b ∧
      decide (b.length = 5) = true := exists_of_any (by decide +kernel)
  obtain ⟨d, hd, hdlen⟩ : ∃ d, (Bank.runAll u [] program).get? "d" = .ok d ∧
      decide (d.length = 5) = true := exists_of_any (by decide +kernel)
  have halen := of_decide_eq_true halen
  obtain ⟨v, hinner, htotal⟩ := inner_products_suffice.1 u program "a" "b" "d" a b d ha hb hd
    (halen.trans (of_decide_eq_true hblen).symm) ((of_decide_eq_true hdlen).trans halen.symm)
  have hnew : Solver.new u model [1.0, 2.0, 3.0] [1.0, 0.5, 4.0] [0.0, 1.0] settings =
      .ok (.fresh u model [1.0, 2.0, 3.0] [1.0, 0.5, 4.0] [0.0, 1.0] settings) :=
    Solver.new_eq_fresh (by decide +kernel) (by decide +kernel) (by decide +kernel)
      (List.cons_ne_nil _ _) (by decide +kernel)
  obtain ⟨p, hp⟩ : ∃ p, (Solver.fresh u model [1.0, 2.0, 3.0] [1.0, 0.5, 4.0] [0.0, 1.0]
      settings).serve calls = .ok p := exists_of_isOk (by decide +kernel)
  have hdirect := inner_products_suffice.2 _ _ _ _ _ _ _ hnew (ofLanes []) calls
  rw [hp] at hdirect
  exact ⟨a, b, d, v, _, p, ha, hb, hd, hinner, htotal, hnew, hp, hdirect⟩

end CurveFit
