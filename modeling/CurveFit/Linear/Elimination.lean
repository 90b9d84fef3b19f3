import CurveFit.Error

/-!
# Gaussian elimination without pivoting

`eliminate` clears the columns below the diagonal from left to right and `substitute` solves the
triangular system from the last unknown to the first.  A zero pivot does not stop either: its column
is left as it is, and its unknown is zero.
-/

namespace CurveFit

/-- A matrix given by its rows. -/
structure DenseMatrix (α : Type) where
  rows : Nat
  cols : Nat
  entries : Vector (Vector α cols) rows

variable {α : Type}

/-- The matrix with the given entries. -/
def DenseMatrix.ofFn (rows cols : Nat) (f : Nat → Nat → α) : DenseMatrix α :=
  ⟨rows, cols, Vector.ofFn fun i => Vector.ofFn fun j => f i j⟩

/-- The rows as lists. -/
def DenseMatrix.toLists (m : DenseMatrix α) : List (List α) := m.entries.toList.map (·.toList)

/-- The matrix with one entry changed; a fault when the entry is not there. -/
def DenseMatrix.modify? (m : DenseMatrix α) (i j : Nat) (f : α → α) :
    Except Fault (DenseMatrix α) :=
  if h : i < m.rows ∧ j < m.cols then
    let row := m.entries.get ⟨i, h.1⟩
    .ok { m with entries := m.entries.set i (row.set j (f (row.get ⟨j, h.2⟩)) h.2) h.1 }
  else .error .outOfRange

/-- The matrix with one entry replaced. -/
def DenseMatrix.set? (m : DenseMatrix α) (i j : Nat) (value : α) : Except Fault (DenseMatrix α) :=
  m.modify? i j fun _ => value

/-- A square system of equations. -/
structure SquareSystem (α : Type) (n : Nat) where
  matrix : Vector (Vector α n) n
  rhs : Vector α n

/-- What a solved system leaves: the unknowns, the eliminated matrix, and the number of zero
pivots. -/
structure Elimination (α : Type) (n : Nat) where
  unknowns : Vector α n
  matrix : Vector (Vector α n) n
  zeroPivots : Nat

namespace SquareSystem

variable {n : Nat} [OfNat α 0] [Sub α] [Mul α] [Div α] [BEq α]

/-- The system after the multiples of row `k` that clear column `k` are taken from the rows below.
A zero pivot leaves the system alone, and so does a row whose factor is zero. -/
def clearColumn (s : SquareSystem α n) (k : Fin n) : SquareSystem α n :=
  let pivotRow := s.matrix.get k
  let pivot := pivotRow.get k
  if pivot == 0 then s
  else
    let factor (i : Fin n) : α := (s.matrix.get i).get k / pivot
    { matrix := Vector.ofFn fun i =>
        let row := s.matrix.get i
        if i ≤ k then row
        else
          let f := factor i
          if f == 0 then row
          else Vector.ofFn fun j => if j < k then row.get j else row.get j - f * pivotRow.get j
      rhs := Vector.ofFn fun i =>
        let b := s.rhs.get i
        if i ≤ k then b
        else
          let f := factor i
          if f == 0 then b else b - f * s.rhs.get k }

/-- The system with every column cleared below the diagonal. -/
def eliminate (s : SquareSystem α n) : SquareSystem α n :=
  (List.finRange n).foldl clearColumn s

/-- One unknown of a triangular system, the later ones being known. -/
def unknown (s : SquareSystem α n) (x : Vector α n) (k : Fin n) : α :=
  let row := s.matrix.get k
  let later := (List.finRange n).filter fun c => k < c
  (later.foldl (fun acc c => acc - row.get c * x.get c) (x.get k)) / row.get k

/-- The unknowns of a triangular system from the last to the first, and the number of zero pivots.
The vector holds the right-hand side where an unknown is not yet known. -/
def substitute (s : SquareSystem α n) : Vector α n × Nat :=
  (List.finRange n).foldr
    (fun k (x, zeros) =>
      if (s.matrix.get k).get k == 0 then (x.set k 0, zeros + 1)
      else (x.set k (s.unknown x k), zeros))
    (s.rhs, 0)

/-- Solves the system. -/
def solve (s : SquareSystem α n) : Elimination α n :=
  let triangular := s.eliminate
  let (x, zeros) := triangular.substitute
  ⟨x, triangular.matrix, zeros⟩

end SquareSystem

/-- Solves a system whose matrix has to fit its right-hand side. -/
def DenseMatrix.solve [OfNat α 0] [Sub α] [Mul α] [Div α] [BEq α] (m : DenseMatrix α)
    (rhs : List α) : Except Fault (Elimination α rhs.length) :=
  if h : m.rows = rhs.length ∧ m.cols = rhs.length then
    let matrix := Vector.ofFn fun i : Fin rhs.length =>
      let row := m.entries.get (i.cast h.1.symm)
      Vector.ofFn fun j : Fin rhs.length => row.get (j.cast h.2.symm)
    .ok (SquareSystem.solve ⟨matrix, ⟨rhs.toArray, by simp⟩⟩)
  else .error (.shape m.rows m.cols rhs.length)

end CurveFit
