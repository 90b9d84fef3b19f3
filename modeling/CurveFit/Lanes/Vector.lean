import CurveFit.Error
import CurveFit.Lanes.Kernel

/-!
# Lane vectors

A vector stores its lanes padded to whole registers.  Kernels run over the whole storage; every
operation clears the padding afterwards, so that reductions over the storage are reductions over the
logical lanes.  A vector unit is a kernel together with the number of lanes its vectors may have.

Operations write into a destination of the same length and fail with a fault when lengths differ.
-/

namespace CurveFit

/-- The kernel that executes passes, and how many lanes a vector may have. -/
structure VectorUnit where
  kernel : Kernel
  capacity : Nat
deriving DecidableEq, Repr

/-- Lanes in padded storage. -/
structure LaneVector (α : Type) where
  /-- All lanes, padding included. -/
  storage : List α
  /-- The number of logical lanes. -/
  length : Nat

variable {α : Type}

namespace LaneVector

/-- The logical lanes. -/
def lanes (v : LaneVector α) : List α := v.storage.take v.length

/-- The vector with its logical lanes overwritten from the first one on. -/
def write (v : LaneVector α) (values : List α) : LaneVector α :=
  { v with storage := overwrite v.lanes values ++ v.storage.drop v.length }

/-- One logical lane replaced. -/
def set? (v : LaneVector α) (i : Nat) (value : α) : Except Fault (LaneVector α) :=
  if i < v.length then .ok { v with storage := v.storage.set i value } else .error .outOfRange

section Zero

variable [OfNat α 0]

/-- A vector of zeros. -/
def zeroed (n : Nat) : LaneVector α := ⟨List.replicate (paddedLength n) 0, n⟩

/-- The vector with every lane past its length set to zero. -/
def clearPadding (v : LaneVector α) : LaneVector α :=
  { v with storage := v.lanes ++ List.replicate (v.storage.length - v.length) 0 }

end Zero

/-- Two vectors are equal when their logical lanes are. -/
def sameLanes [BEq α] (a b : LaneVector α) : Bool := a.lanes == b.lanes

end LaneVector

/-- Fails unless two lengths agree. -/
def checkLengths (operation : String) (left right : Nat) : Except Fault Unit :=
  if left = right then .ok () else .error (.lengths operation left right)

namespace VectorUnit

/-- Fails when a vector of the unit cannot have `n` lanes. -/
def checkCapacity (u : VectorUnit) (n : Nat) : Except FitError Unit :=
  if u.capacity < n then .error (.capacityExceeded n u.capacity) else .ok ()

section Create

variable [OfNat α 0]

/-- A vector with the given lanes. -/
def ofList (u : VectorUnit) (values : List α) : Except FitError (LaneVector α) := do
  u.checkCapacity values.length
  pure ((LaneVector.zeroed values.length).write values)

/-- `n` lanes of one value. -/
def filled (u : VectorUnit) (n : Nat) (value : α) : Except FitError (LaneVector α) := do
  u.checkCapacity n
  pure ((LaneVector.zeroed n).write (List.replicate n value))

/-- `n` lanes of zero. -/
def zeros (u : VectorUnit) (n : Nat) : Except FitError (LaneVector α) := u.filled n 0

end Create

end VectorUnit

namespace Kernel

section Arithmetic

variable [OfNat α 0] [Add α] [Sub α] [Mul α] [Div α] [Neg α]

/-- `a op b` written into `dst`. -/
def apply (k : Kernel) (op : Operator) (a b dst : LaneVector α) : Except Fault (LaneVector α) := do
  checkLengths "apply" a.length b.length
  checkLengths "apply" a.length dst.length
  pure { dst with storage := k.binary op a.storage b.storage dst.storage }.clearPadding

/-- `a op s` written into `dst`. -/
def applyScalar (k : Kernel) (op : Operator) (a : LaneVector α) (s : α) (dst : LaneVector α) :
    Except Fault (LaneVector α) := do
  checkLengths "apply_scalar" a.length dst.length
  pure { dst with storage := k.withScalar op a.storage s dst.storage }.clearPadding

/-- `s op a` written into `dst`. -/
def scalarApply (k : Kernel) (op : Operator) (s : α) (a dst : LaneVector α) :
    Except Fault (LaneVector α) := do
  checkLengths "scalar_apply" a.length dst.length
  pure { dst with storage := k.scalarWith op s a.storage dst.storage }.clearPadding

/-- The sum over the storage. -/
def total (k : Kernel) (a : LaneVector α) : α := k.sum a.storage

/-- The sum of products over the storage. -/
def innerProduct (k : Kernel) (a b : LaneVector α) : Except FitError α :=
  if a.length = b.length then .ok (k.dot a.storage b.storage)
  else .error (.lengthMismatch a.length b.length)

/-- Products written into `dst` and added up. -/
def productTotal (k : Kernel) (a b dst : LaneVector α) : Except Fault α := do
  let product ← k.apply .mul a b dst
  pure (k.total product)

end Arithmetic

/-- The exponential of every lane written into `dst`. -/
def exp [OfNat α 0] [LaneExp α] (k : Kernel) (src dst : LaneVector α) :
    Except Fault (LaneVector α) := do
  checkLengths "exp" src.length dst.length
  pure { dst with storage := LaneExp.run k src.storage dst.storage }.clearPadding

end Kernel

end CurveFit
