import CurveFit.Fit.NormalEquations
import CurveFit.Proofs.Lanes.Padded
import CurveFit.Proofs.Linear.Entries

/-!
# What assembling and solving leave in a workspace

Columns and residual of `n` lanes determine the normal equations: `Workspace.assemble_eq` gives
every entry of the matrix and of the right-hand side, whatever the matrix, the right-hand side and
the scratch vector held before.  `Workspace.solve_eq` then reads the increment off the square
system with these entries.
-/

namespace CurveFit

open LaneVector

/-! ## Entries written over -/

section Entries

variable {α : Type} {f : Nat → Nat → α}

/-- The entries `f` with `v` at one place and at its mirror image. -/
def withEntry (f : Nat → Nat → α) (r c : Nat) (v : α) (i j : Nat) : α :=
  if (i = r ∧ j = c) ∨ (i = c ∧ j = r) then v else f i j

/-- The entries `f` with row `r` from column `c` on, and its mirror image, taken from `g`. -/
def withRow (f : Nat → Nat → α) (r c : Nat) (g : Nat → α) (i j : Nat) : α :=
  if (i = r ∧ c ≤ j) ∨ (j = r ∧ c ≤ i) then g (max i j) else f i j

/-- The entries `f` with one place on the diagonal changed. -/
def withDiagonal (f : Nat → Nat → α) (r : Nat) (change : α → α) (i j : Nat) : α :=
  if i = r ∧ j = r then change (f i j) else f i j

/-- The entries `f` with all those that lie in row and column `r` or later taken from `g`. -/
def withBlock (f : Nat → Nat → α) (r : Nat) (g : Nat → Nat → α) (i j : Nat) : α :=
  if r ≤ min i j then g i j else f i j

theorem withRow_withEntry {r c : Nat} (hrc : r ≤ c) (g : Nat → α) :
    withRow (withEntry f r c (g c)) r (c + 1) g = withRow f r c g := by
  funext i j
  unfold withRow withEntry
  by_cases h1 : (i = r ∧ c + 1 ≤ j) ∨ (j = r ∧ c + 1 ≤ i)
  · rw [if_pos h1, if_pos (by omega)]
  · rw [if_neg h1]
    by_cases h2 : (i = r ∧ j = c) ∨ (i = c ∧ j = r)
    · rw [if_pos h2, if_pos (by omega), show max i j = c by omega]
    · rw [if_neg h2, if_neg (by omega)]

/-- A row, its diagonal entry changed, and the block after it make the block from the row on. -/
theorem withBlock_withDiagonal {r : Nat} {row : Nat → α} {change : α → α} {g : Nat → Nat → α}
    (hdiag : change (row r) = g r r)
    (hrow : ∀ i j, min i j = r → i ≠ j → row (max i j) = g i j) :
    withBlock (withDiagonal (withRow f r r row) r change) (r + 1) g = withBlock f r g := by
  funext i j
  unfold withBlock withDiagonal withRow
  by_cases hlater : r + 1 ≤ min i j
  · rw [if_pos hlater, if_pos (by omega : r ≤ min i j)]
  · rw [if_neg hlater]
    by_cases hmin : min i j = r
    · rw [if_pos (by omega : r ≤ min i j), if_pos (by omega : (i = r ∧ r ≤ j) ∨ (j = r ∧ r ≤ i))]
      by_cases hij : i = j
      · have hi : i = r := by omega
        subst hij hi
        rw [if_pos ⟨rfl, rfl⟩, Nat.max_self, hdiag]
      · rw [if_neg (by omega), hrow i j hmin hij]
    · rw [if_neg (by omega), if_neg (by omega), if_neg (by omega)]

theorem take_succ_set {l : List α} {r : Nat} (h : r < l.length) (v : α) :
    (l.set r v).take (r + 1) = l.take r ++ [v] := by
  have h' : r < (l.set r v).length := by rwa [List.length_set]
  rw [List.take_succ_eq_append_getElem h', List.take_set_of_le (Nat.le_refl r),
    List.getElem_set_self]

end Entries

variable {α : Type} [OfNat α 0] [Add α] [Sub α] [Mul α] [Div α]

/-- Products of two vectors go through the scratch vector, whatever it held. -/
theorem Workspace.apply_mul_scratch {k : Kernel} {n : Nat} {w : Workspace α}
    (hs : w.scratch.HasLanes n) {a b : List α} (ha : a.length = n) (hb : b.length = n) :
    k.apply .mul (ofLanes a) (ofLanes b) w.scratch =
      .ok (ofLanes (List.zipWith (· * ·) a b)) := by
  subst ha
  exact k.apply_ofLanes .mul hb.symm hs

variable [Neg α]

/-! ## The equations as numbers -/

/-- The sum of the products of two lists of lanes, as a kernel adds them. -/
def Kernel.productSum (k : Kernel) (a b : List α) : α :=
  k.total (ofLanes (List.zipWith (· * ·) a b))

variable {k : Kernel} {n p : Nat} {col : Nat → List α} {residual : List α}
  {f : Nat → Nat → α} {w : Workspace α}

namespace Workspace

/-! ## Assembling -/

theorem writeEntry_eq (hs : w.scratch.HasLanes n) (hm : w.matrix = .ofFn p p f) {a b : List α}
    (ha : a.length = n) (hb : b.length = n) {r c : Nat} (hr : r < p) (hc : c < p) :
    w.writeEntry k r c (ofLanes a) (ofLanes b) = .ok
      { w with
        scratch := ofLanes (List.zipWith (· * ·) a b)
        matrix := .ofFn p p (withEntry f r c (k.productSum a b)) } := by
  have hentries : DenseMatrix.ofFn p p (fun i j => if i = c ∧ j = r then k.productSum a b
      else if i = r ∧ j = c then k.productSum a b else f i j) =
      .ofFn p p (withEntry f r c (k.productSum a b)) := by
    apply DenseMatrix.ofFn_congr
    intro i _ j _
    unfold withEntry
    by_cases h1 : i = c ∧ j = r <;> by_cases h2 : i = r ∧ j = c <;> simp [h1, h2]
  unfold writeEntry
  rw [apply_mul_scratch hs ha hb, hm]
  show Except.bind (DenseMatrix.set? _ _ _ _) _ = _
  rw [DenseMatrix.set?_ofFn hr hc]
  show Except.bind (DenseMatrix.set? _ _ _ _) _ = _
  rw [DenseMatrix.set?_ofFn hc hr]
  exact congrArg (fun m => Except.ok { w with
    scratch := ofLanes (List.zipWith (· * ·) a b), matrix := m }) hentries

/-- Row `r` from column `c` on, and its mirror image. -/
theorem writeEntries_eq {a : List α} (ha : a.length = n) (hcol : ∀ j < p, (col j).length = n)
    {r c m : Nat} (hrc : r ≤ c) (hc : c + m = p) (hr : r < p) (hs : w.scratch.HasLanes n)
    (hm : w.matrix = .ofFn p p f) :
    ∃ scratch, scratch.HasLanes n ∧
      w.writeEntries k r (ofLanes a) c ((List.range' c m).map fun j => ofLanes (col j)) = .ok
        { w with
          scratch
          matrix := .ofFn p p (withRow f r c fun j => k.productSum a (col j)) } := by
  induction m generalizing c w f with
  | zero =>
    refine ⟨w.scratch, hs, ?_⟩
    have hentries : w.matrix = .ofFn p p (withRow f r c fun j => k.productSum a (col j)) := by
      rw [hm]
      apply DenseMatrix.ofFn_congr
      intro i hi j hj
      exact (if_neg (by omega)).symm
    rw [← hentries]
    rfl
  | succ m ih =>
    have hcp : c < p := by omega
    have hwrite := writeEntry_eq (k := k) hs hm ha (hcol c hcp) hr hcp
    obtain ⟨scratch, hscratch, hrest⟩ := ih (c := c + 1) (by omega) (by omega)
      (w := { w with
        scratch := ofLanes (List.zipWith (· * ·) a (col c))
        matrix := .ofFn p p (withEntry f r c (k.productSum a (col c))) })
      (.zipWith _ ha (hcol c hcp)) rfl
    refine ⟨scratch, hscratch, ?_⟩
    rw [List.range'_succ, List.map_cons, writeEntries, hwrite]
    refine hrest.trans ?_
    rw [withRow_withEntry hrc fun j => k.productSum a (col j)]

theorem writeGradient_eq (hs : w.scratch.HasLanes n) (hres : w.residual = ofLanes residual)
    (hn : residual.length = n) {a : List α} (ha : a.length = n) {r : Nat}
    (hr : r < w.gradient.length) :
    w.writeGradient k r (ofLanes a) = .ok
      { w with
        scratch := ofLanes (List.zipWith (· * ·) residual a)
        gradient := w.gradient.set r (k.productSum residual a) } := by
  unfold writeGradient
  rw [hres, apply_mul_scratch hs hn ha]
  show (if r < w.gradient.length then _ else _) = _
  rw [if_pos hr]
  rfl

end Workspace

variable [OfNat α 1] {lambda : α}

/-- An entry of the damped matrix; `col` holds the lanes of the derivatives by parameter. -/
def Kernel.dampedEntry (k : Kernel) (lambda : α) (col : Nat → List α) (i j : Nat) : α :=
  let total := k.productSum (col (min i j)) (col (max i j))
  if i = j then total * (1 + lambda) else total

/-- The right-hand side, with `p` entries. -/
def Kernel.gradientList (k : Kernel) (residual : List α) (col : Nat → List α) (p : Nat) : List α :=
  (List.range p).map fun r => k.productSum residual (col r)

namespace Workspace

/-- The equations from row `r` on. -/
theorem assembleFrom_eq (hn : residual.length = n) (hcol : ∀ j < p, (col j).length = n)
    {r m : Nat} (hr : r + m = p) (hs : w.scratch.HasLanes n) (hm : w.matrix = .ofFn p p f)
    (hres : w.residual = ofLanes residual) (hg : w.gradient.length = p) :
    ∃ scratch, scratch.HasLanes n ∧
      w.assembleFrom k lambda r ((List.range' r m).map fun j => ofLanes (col j)) = .ok
        { w with
          scratch
          matrix := .ofFn p p (withBlock f r (k.dampedEntry lambda col))
          gradient := w.gradient.take r ++
            (List.range' r m).map fun j => k.productSum residual (col j) } := by
  induction m generalizing r w f with
  | zero =>
    refine ⟨w.scratch, hs, ?_⟩
    have hentries : w.matrix = .ofFn p p (withBlock f r (k.dampedEntry lambda col)) := by
      rw [hm]
      apply DenseMatrix.ofFn_congr
      intro i hi j hj
      exact (if_neg (by omega)).symm
    have hgradient : w.gradient = w.gradient.take r ++
        (List.range' r 0).map fun j => k.productSum residual (col j) := by
      rw [List.take_of_length_le (by omega)]
      exact (List.append_nil _).symm
    rw [← hentries, ← hgradient]
    rfl
  | succ m ih =>
    have hrp : r < p := by omega
    have hrg : r < w.gradient.length := by omega
    let row := fun j => k.productSum (col r) (col j)
    obtain ⟨s, hs', hrow⟩ := writeEntries_eq (k := k) (hcol r hrp) hcol (Nat.le_refl r)
      (by omega : r + (m + 1) = p) hrp hs hm
    have hdiag : (DenseMatrix.ofFn p p (withRow f r r row)).modify? r r (· * (1 + lambda)) =
        .ok (.ofFn p p (withDiagonal (withRow f r r row) r (· * (1 + lambda)))) :=
      DenseMatrix.modify?_ofFn hrp hrp _
    have hgrad := writeGradient_eq (k := k) (w := { w with
      scratch := s
      matrix := .ofFn p p (withDiagonal (withRow f r r row) r (· * (1 + lambda))) })
      hs' hres hn (hcol r hrp) hrg
    obtain ⟨scratch, hscratch, hrest⟩ := ih (r := r + 1) (by omega) (w := { w with
      scratch := ofLanes (List.zipWith (· * ·) residual (col r))
      matrix := .ofFn p p (withDiagonal (withRow f r r row) r (· * (1 + lambda)))
      gradient := w.gradient.set r (k.productSum residual (col r)) })
      (.zipWith _ hn (hcol r hrp)) rfl hres (by rw [List.length_set, hg])
    refine ⟨scratch, hscratch, ?_⟩
    rw [List.range'_succ, List.map_cons] at hrow ⊢
    rw [assembleFrom, hrow]
    show Except.bind (DenseMatrix.modify? (.ofFn p p (withRow f r r row)) r r _) _ = _
    rw [hdiag]
    show Except.bind (Workspace.writeGradient _ k r _) _ = _
    rw [hgrad]
    refine hrest.trans ?_
    have hblock : withBlock (withDiagonal (withRow f r r row) r (· * (1 + lambda))) (r + 1)
        (k.dampedEntry lambda col) = withBlock f r (k.dampedEntry lambda col) := by
      apply withBlock_withDiagonal
      · unfold Kernel.dampedEntry
        rw [if_pos rfl, Nat.min_self, Nat.max_self]
      · intro i j hmin hij
        unfold Kernel.dampedEntry
        rw [if_neg hij, hmin]
    have hlist : (w.gradient.set r (k.productSum residual (col r))).take (r + 1) ++
        (List.range' (r + 1) m).map (fun j => k.productSum residual (col j)) =
        w.gradient.take r ++ (r :: List.range' (r + 1) m).map fun j =>
          k.productSum residual (col j) := by
      rw [take_succ_set hrg, List.append_assoc]
      rfl
    rw [hblock]
    exact congrArg (fun g => Except.ok { w with
      scratch, matrix := .ofFn p p (withBlock f r (k.dampedEntry lambda col)), gradient := g }) hlist

/-- **Assembling.**  The columns, the residual and the damping give every entry of the equations;
the old matrix, right-hand side and scratch vector are forgotten. -/
theorem assemble_eq (hn : residual.length = n) (hcol : ∀ j < p, (col j).length = n)
    (hs : w.scratch.HasLanes n) (hrows : w.matrix.rows = p) (hcols : w.matrix.cols = p)
    (hres : w.residual = ofLanes residual) (hg : w.gradient.length = p)
    (hcolumns : w.columns = (List.range p).map fun j => ofLanes (col j)) :
    ∃ scratch, scratch.HasLanes n ∧ w.assemble k lambda = .ok
      { w with
        scratch
        matrix := .ofFn p p (k.dampedEntry lambda col)
        gradient := k.gradientList residual col p } := by
  obtain ⟨f, hf⟩ := w.matrix.exists_ofFn
  rw [hrows, hcols] at hf
  obtain ⟨scratch, hscratch, hall⟩ := assembleFrom_eq (k := k) hn hcol
    (Nat.zero_add p) hs hf hres hg
  refine ⟨scratch, hscratch, ?_⟩
  have hblock : withBlock f 0 (k.dampedEntry lambda col) = k.dampedEntry lambda col := by
    funext i j
    exact if_pos (Nat.zero_le _)
  rw [hblock, ← List.range_eq_range', ← hcolumns] at hall
  exact hall

/-! ## Solving -/

omit [Add α] [Neg α] [OfNat α 1] in
/-- **Solving.**  The increment and the number of zero pivots are those of the square system with
the entries of the matrix. -/
theorem solve_eq [BEq α] {f : Nat → Nat → α}
    (hm : w.matrix = .ofFn w.gradient.length w.gradient.length f) :
    w.solve = .ok
      (let solved := (SquareSystem.ofEntries f w.gradient).solve
       ({ w with matrix := ⟨_, _, solved.matrix⟩, gradient := solved.unknowns.toList },
        solved.zeroPivots)) := by
  unfold solve
  rw [hm, DenseMatrix.solve_ofFn]
  rfl

end Workspace

variable [BEq α]

/-- The square system of the damped normal equations. -/
def Kernel.normalSystem (k : Kernel) (lambda : α) (col : Nat → List α) (residual : List α)
    (p : Nat) : SquareSystem α (k.gradientList residual col p).length :=
  .ofEntries (k.dampedEntry lambda col) (k.gradientList residual col p)

/-- The increment of a pass, one number for each of `p` parameters. -/
def Kernel.increment (k : Kernel) (lambda : α) (col : Nat → List α) (residual : List α)
    (p : Nat) : List α :=
  (k.normalSystem lambda col residual p).solve.unknowns.toList

omit [OfNat α 1] [Sub α] [Div α] [BEq α] in
theorem Kernel.length_gradientList (k : Kernel) (residual : List α) (col : Nat → List α) (p : Nat) :
    (k.gradientList residual col p).length = p := by
  unfold Kernel.gradientList
  rw [List.length_map, List.length_range]

theorem Kernel.length_increment (k : Kernel) (lambda : α) (col : Nat → List α)
    (residual : List α) (p : Nat) : (k.increment lambda col residual p).length = p := by
  unfold Kernel.increment
  rw [Vector.length_toList, k.length_gradientList]

/-- The increment depends on its columns and its residual through their sums of products. -/
theorem Kernel.increment_congr {k' : Kernel} {col' : Nat → List α} {residual' : List α} {p : Nat}
    (hcol : ∀ i < p, ∀ j < p, k.productSum (col i) (col j) = k'.productSum (col' i) (col' j))
    (hres : ∀ j < p, k.productSum residual (col j) = k'.productSum residual' (col' j)) (lambda : α) :
    k.increment lambda col residual p = k'.increment lambda col' residual' p := by
  have hrhs : k.gradientList residual col p = k'.gradientList residual' col' p :=
    List.map_congr_left fun j hj => hres j (List.mem_range.mp hj)
  unfold Kernel.increment Kernel.normalSystem
  rw [hrhs, SquareSystem.ofEntries_congr (g := k'.dampedEntry lambda col') fun i hi j hj => ?_]
  rw [Kernel.length_gradientList] at hi hj
  unfold Kernel.dampedEntry
  rw [hcol _ (by omega) _ (by omega)]

variable (k lambda) in
/-- Assembling and solving put the increment where the right-hand side was. -/
theorem Workspace.solve_assembled (hn : residual.length = n)
    (hcol : ∀ j < p, (col j).length = n) (hs : w.scratch.HasLanes n) (hrows : w.matrix.rows = p)
    (hcols : w.matrix.cols = p) (hres : w.residual = ofLanes residual)
    (hg : w.gradient.length = p)
    (hcolumns : w.columns = (List.range p).map fun j => ofLanes (col j)) :
    ∃ w₁ scratch matrix, w.assemble k lambda = .ok w₁ ∧ scratch.HasLanes n ∧
      matrix.rows = p ∧ matrix.cols = p ∧ w₁.solve = .ok
        ({ w with scratch, matrix, gradient := k.increment lambda col residual p },
         (k.normalSystem lambda col residual p).solve.zeroPivots) := by
  obtain ⟨scratch, hscratch, hassemble⟩ :=
    assemble_eq (k := k) hn hcol hs hrows hcols hres hg hcolumns
  have hlen := k.length_gradientList residual col p
  refine ⟨_, scratch, _, hassemble, hscratch, ?_, ?_, solve_eq ?_⟩
  · exact hlen
  · exact hlen
  · show DenseMatrix.ofFn p p _ = _
    rw [hlen]

end CurveFit
