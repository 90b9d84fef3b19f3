import CurveFit.Linear.Elimination

/-!
# Matrices by their entries

Every matrix is `DenseMatrix.ofFn rows cols f` for some `f` (`DenseMatrix.exists_ofFn`).  In this
form a changed entry is a changed function (`DenseMatrix.modify?_ofFn`), and solving reads the
entries into a square system (`DenseMatrix.solve_ofFn`).
-/

namespace CurveFit

variable {α : Type} {rows cols : Nat} {f g : Nat → Nat → α}

@[simp] theorem get_ofFn {n : Nat} (f : Fin n → α) (i : Fin n) : (Vector.ofFn f).get i = f i :=
  Vector.getElem_ofFn i.isLt

theorem get_mk {n i : Nat} (v : Vector α n) (h : i < n) : v.get ⟨i, h⟩ = v[i] := rfl

/-- The square system with the given entries and right-hand side. -/
def SquareSystem.ofEntries (f : Nat → Nat → α) (rhs : List α) : SquareSystem α rhs.length :=
  ⟨Vector.ofFn fun i => Vector.ofFn fun j => f i j, ⟨rhs.toArray, List.size_toArray⟩⟩

/-- Only the entries inside a matrix count. -/
theorem entries_congr (h : ∀ i < rows, ∀ j < cols, f i j = g i j) :
    (Vector.ofFn fun i : Fin rows => Vector.ofFn fun j : Fin cols => f i j) =
      Vector.ofFn fun i : Fin rows => Vector.ofFn fun j : Fin cols => g i j := by
  congr 1
  funext i
  congr 1
  funext j
  exact h i i.isLt j j.isLt

theorem SquareSystem.ofEntries_congr {rhs : List α}
    (h : ∀ i < rhs.length, ∀ j < rhs.length, f i j = g i j) : ofEntries f rhs = ofEntries g rhs :=
  congrArg (fun m => SquareSystem.mk m _) (entries_congr h)

namespace DenseMatrix

theorem ofFn_congr (h : ∀ i < rows, ∀ j < cols, f i j = g i j) :
    ofFn rows cols f = ofFn rows cols g :=
  congrArg (DenseMatrix.mk rows cols) (entries_congr h)

theorem exists_ofFn [OfNat α 0] (m : DenseMatrix α) : ∃ f, m = ofFn m.rows m.cols f := by
  refine ⟨fun i j => if h : i < m.rows ∧ j < m.cols then
    (m.entries.get ⟨i, h.1⟩).get ⟨j, h.2⟩ else 0, ?_⟩
  obtain ⟨rows, cols, entries⟩ := m
  unfold ofFn
  congr 1
  ext i hi j hj
  simp [get_mk]

/-- Changing one entry changes the function at one pair of places. -/
theorem modify?_ofFn {i j : Nat} (hi : i < rows) (hj : j < cols) (change : α → α) :
    (ofFn rows cols f).modify? i j change =
      .ok (ofFn rows cols fun a b => if a = i ∧ b = j then change (f a b) else f a b) := by
  have h : i < (ofFn rows cols f).rows ∧ j < (ofFn rows cols f).cols := ⟨hi, hj⟩
  unfold modify?
  rw [dif_pos h]
  unfold ofFn
  refine congrArg (fun m => Except.ok (DenseMatrix.mk rows cols m)) ?_
  ext a ha b hb
  by_cases hai : i = a
  · subst hai
    by_cases hbj : j = b
    · subst hbj
      simp
    · simp [hbj, Ne.symm hbj]
  · simp [hai, Ne.symm hai]

theorem set?_ofFn {i j : Nat} (hi : i < rows) (hj : j < cols) (value : α) :
    (ofFn rows cols f).set? i j value =
      .ok (ofFn rows cols fun a b => if a = i ∧ b = j then value else f a b) :=
  modify?_ofFn hi hj fun _ => value

section Solve

variable [OfNat α 0] [Sub α] [Mul α] [Div α] [BEq α]

/-- A matrix of the right size is solved as the square system with its entries. -/
theorem solve_ofFn (f : Nat → Nat → α) (rhs : List α) :
    (ofFn rhs.length rhs.length f).solve rhs = .ok (SquareSystem.ofEntries f rhs).solve := by
  have h : (ofFn rhs.length rhs.length f).rows = rhs.length ∧
      (ofFn rhs.length rhs.length f).cols = rhs.length := ⟨rfl, rfl⟩
  have hentries : (Vector.ofFn fun i : Fin rhs.length => Vector.ofFn fun j : Fin rhs.length =>
      ((ofFn rhs.length rhs.length f).entries.get i).get j) =
      Vector.ofFn fun i => Vector.ofFn fun j => f i j := by
    unfold ofFn
    ext i hi j hj
    simp
  unfold solve
  rw [dif_pos h]
  exact congrArg (fun m => Except.ok (SquareSystem.solve ⟨m, _⟩)) hentries

end Solve

end DenseMatrix

end CurveFit
