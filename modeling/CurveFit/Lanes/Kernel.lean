/-!
# Lane kernels

A kernel executes one pass over the lanes of equally long lists.  The portable kernel takes the
lanes one by one.  The AVX2 kernel takes them in groups of four, as a 256-bit register does, and the
rest one by one; its reductions keep one partial result for each place in a group.

Elementwise passes write over a destination: what they compute replaces its lanes from the start,
and lanes they do not reach stay as they were.
-/

namespace CurveFit

/-- Lanes in one register. -/
def laneCount : Nat := 4

/-- The least multiple of the lane count that is not below `n`. -/
def paddedLength (n : Nat) : Nat := (n + (laneCount - 1)) / laneCount * laneCount

/-- The elementwise operators. -/
inductive Operator where
  | add
  | sub
  | mul
  | div
deriving DecidableEq, Repr

/-- The ways to execute a pass. -/
inductive Kernel where
  | portable
  | avx2
deriving DecidableEq, Repr

/-- The name of a kernel in reports. -/
def Kernel.name : Kernel → String
  | .portable => "portable"
  | .avx2 => "avx2"

/-- Whether a kernel needs hardware of its own. -/
def Kernel.isAccelerated : Kernel → Bool
  | .portable => false
  | .avx2 => true

variable {α : Type}

/-- `old` with `new` written over its start. -/
def overwrite (old new : List α) : List α := new.take old.length ++ old.drop new.length

/-- One pass over one list, lane by lane. -/
def mapLanes (f : α → α) (a out : List α) : List α := overwrite out (a.map f)

/-- One pass over two lists, lane by lane. -/
def zipLanes (f : α → α → α) (a b out : List α) : List α := overwrite out (List.zipWith f a b)

/-- One pass over one list in groups of four; `done` holds the lanes written so far, and `tail`
finishes what is left after the last whole group. -/
def mapGroups (group : α → α → α → α → List α) (tail : List α → List α → List α) :
    List α → List α → Array α → List α
  | x0 :: x1 :: x2 :: x3 :: a, _ :: _ :: _ :: _ :: out, done =>
    mapGroups group tail a out (done ++ group x0 x1 x2 x3)
  | a, out, done => done.toList ++ tail a out

/-- One pass over two lists in groups of four, the rest lane by lane. -/
def zipGroups (f : α → α → α) : List α → List α → List α → Array α → List α
  | x0 :: x1 :: x2 :: x3 :: a, y0 :: y1 :: y2 :: y3 :: b, _ :: _ :: _ :: _ :: out, done =>
    zipGroups f a b out (done ++ [f x0 y0, f x1 y1, f x2 y2, f x3 y3])
  | a, b, out, done => done.toList ++ zipLanes f a b out

section Arithmetic

variable [OfNat α 0] [Add α] [Sub α] [Mul α] [Div α] [Neg α]

/-- The value of `a op b`. -/
def Operator.apply (op : Operator) (a b : α) : α :=
  match op with
  | .add => a + b
  | .sub => a - b
  | .mul => a * b
  | .div => a / b

/-- `a op b`, lane by lane. -/
def Kernel.binary (k : Kernel) (op : Operator) (a b out : List α) : List α :=
  match k with
  | .portable => zipLanes op.apply a b out
  | .avx2 => zipGroups op.apply a b out #[]

/-- `a op s` for every lane of `a`. -/
def Kernel.withScalar (k : Kernel) (op : Operator) (a : List α) (s : α) (out : List α) : List α :=
  match k with
  | .portable => mapLanes (fun x => op.apply x s) a out
  | .avx2 =>
    mapGroups (fun x0 x1 x2 x3 => [op.apply x0 s, op.apply x1 s, op.apply x2 s, op.apply x3 s])
      (mapLanes fun x => op.apply x s) a out #[]

/-- `s op a` for every lane of `a`. -/
def Kernel.scalarWith (k : Kernel) (op : Operator) (s : α) (a out : List α) : List α :=
  match k with
  | .portable => mapLanes (fun x => op.apply s x) a out
  | .avx2 =>
    mapGroups (fun x0 x1 x2 x3 => [op.apply s x0, op.apply s x1, op.apply s x2, op.apply s x3])
      (mapLanes fun x => op.apply s x) a out #[]

/-- The lanes added in groups of four to four partial sums.  The partial sums are joined crosswise,
and what is left after the last whole group is added lane by lane. -/
def sumGroups (s0 s1 s2 s3 : α) : List α → α
  | x0 :: x1 :: x2 :: x3 :: a => sumGroups (s0 + x0) (s1 + x1) (s2 + x2) (s3 + x3) a
  | a => a.foldl (· + ·) ((s0 + s2) + (s1 + s3))

/-- The products of two lists added like the lanes of one list. -/
def dotGroups (s0 s1 s2 s3 : α) : List α → List α → α
  | x0 :: x1 :: x2 :: x3 :: a, y0 :: y1 :: y2 :: y3 :: b =>
    dotGroups (s0 + x0 * y0) (s1 + x1 * y1) (s2 + x2 * y2) (s3 + x3 * y3) a b
  | a, b => (List.zipWith (· * ·) a b).foldl (· + ·) ((s0 + s2) + (s1 + s3))

/-- The sum of the lanes.  The portable sum goes from left to right and starts from negative zero,
which leaves the sign of a first zero alone. -/
def Kernel.sum (k : Kernel) (a : List α) : α :=
  match k with
  | .portable => a.foldl (· + ·) (-0)
  | .avx2 => sumGroups 0 0 0 0 a

/-- The sum of the products of the lanes, as far as the shorter list goes. -/
def Kernel.dot (k : Kernel) (a b : List α) : α :=
  match k with
  | .portable => (List.zipWith (· * ·) a b).foldl (· + ·) (-0)
  | .avx2 => dotGroups 0 0 0 0 a b

end Arithmetic

/-- Numbers whose kernels have an elementwise exponential. -/
class LaneExp (α : Type) where
  /-- The exponential of every lane, written over a destination. -/
  run : Kernel → List α → List α → List α

end CurveFit
