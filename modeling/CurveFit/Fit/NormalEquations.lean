import CurveFit.Fit.Workspace

/-!
# The damped normal equations

For derivative vectors `d 0`, `d 1`, … and a residual, the matrix has the entries `Σ d r * d c`, its
diagonal multiplied by one plus the damping, and the right-hand side has the entries
`Σ residual * d r`.  Each entry off the diagonal is computed once and written to both places.
-/

namespace CurveFit

namespace Workspace

variable {α : Type} [OfNat α 0] [OfNat α 1] [Add α] [Sub α] [Mul α] [Div α] [Neg α] [BEq α]

/-- The sum of products of two vectors as the entry in row `r` and column `c`, and as its mirror
image. -/
def writeEntry (w : Workspace α) (k : Kernel) (r c : Nat) (a b : LaneVector α) :
    Except Fault (Workspace α) := do
  let scratch ← k.apply .mul a b w.scratch
  let total := k.total scratch
  let matrix ← w.matrix.set? r c total
  let matrix ← matrix.set? c r total
  pure { w with scratch, matrix }

/-- The entries of row `r` from column `c` on; `rest` holds the vectors from `c` on. -/
def writeEntries (w : Workspace α) (k : Kernel) (r : Nat) (a : LaneVector α) (c : Nat) :
    (rest : List (LaneVector α)) → Except Fault (Workspace α)
  | [] => .ok w
  | b :: rest => do
    let w ← w.writeEntry k r c a b
    w.writeEntries k r a (c + 1) rest

/-- The right-hand side of row `r`. -/
def writeGradient (w : Workspace α) (k : Kernel) (r : Nat) (a : LaneVector α) :
    Except Fault (Workspace α) := do
  let scratch ← k.apply .mul w.residual a w.scratch
  if r < w.gradient.length then
    pure { w with scratch, gradient := w.gradient.set r (k.total scratch) }
  else throw .outOfRange

/-- The equations from row `r` on; `rest` holds the vectors from `r` on. -/
def assembleFrom (w : Workspace α) (k : Kernel) (lambda : α) (r : Nat) :
    (rest : List (LaneVector α)) → Except Fault (Workspace α)
  | [] => .ok w
  | a :: rest => do
    let w ← w.writeEntries k r a r (a :: rest)
    let matrix ← w.matrix.modify? r r (· * (1 + lambda))
    let w ← { w with matrix }.writeGradient k r a
    w.assembleFrom k lambda (r + 1) rest

/-- The workspace with the damped normal equations written into it. -/
def assemble (w : Workspace α) (k : Kernel) (lambda : α) : Except Fault (Workspace α) :=
  w.assembleFrom k lambda 0 w.columns

/-- The workspace with its normal equations solved in place, and the number of zero pivots. -/
def solve (w : Workspace α) : Except Fault (Workspace α × Nat) := do
  let solved ← w.matrix.solve w.gradient
  pure
    ({ w with matrix := ⟨_, _, solved.matrix⟩, gradient := solved.unknowns.toList },
     solved.zeroPivots)

end Workspace

end CurveFit
