import CurveFit.Exponential.Lanes
import CurveFit.Lanes.Vector

/-!
# Programs over named vectors

A bank holds named vectors of one unit.  A step creates a vector, changes one, computes into one or
creates the result of an operator; a step that fails leaves the bank as it was.
-/

namespace CurveFit

/-- Named vectors, the latest first. -/
abbrev Bank (α : Type) := List (String × LaneVector α)

/-- What a step does to the bank. -/
inductive BankStep (α : Type) where
  | ofList (dst : String) (values : List α)
  | filled (dst : String) (length : Nat) (value : α)
  | zeros (dst : String) (length : Nat)
  | clone (a dst : String)
  | set (dst : String) (index : Nat) (value : α)
  /-- `a op b` into an existing vector. -/
  | apply (op : Operator) (a b dst : String)
  /-- `a op s` into an existing vector. -/
  | applyScalar (op : Operator) (a : String) (s : α) (dst : String)
  /-- `s op a` into an existing vector. -/
  | scalarApply (op : Operator) (s : α) (a dst : String)
  /-- The exponential into an existing vector. -/
  | exp (a dst : String)
  /-- `a op b` as a new vector. -/
  | newBinary (op : Operator) (a b dst : String)
  /-- `a op s` as a new vector. -/
  | newWithScalar (op : Operator) (a : String) (s : α) (dst : String)
  /-- `s op a` as a new vector. -/
  | newScalarWith (op : Operator) (s : α) (a dst : String)

variable {α : Type}

namespace Bank

/-- The vector of a name. -/
def get? (bank : Bank α) (name : String) : Except Failure (LaneVector α) :=
  match bank.lookup name with
  | some v => .ok v
  | none => .error (.faulted .outOfRange)

/-- The bank with a name bound to a vector. -/
def put (bank : Bank α) (name : String) (v : LaneVector α) : Bank α :=
  (name, v) :: bank.filter (·.1 != name)

end Bank

section Run

variable [OfNat α 0] [Add α] [Sub α] [Mul α] [Div α] [Neg α] [LaneExp α]

/-- The name a step writes to. -/
def BankStep.target : BankStep α → String
  | .ofList dst _ | .filled dst _ _ | .zeros dst _ | .clone _ dst | .set dst _ _
  | .apply _ _ _ dst | .applyScalar _ _ _ dst | .scalarApply _ _ _ dst | .exp _ dst
  | .newBinary _ _ _ dst | .newWithScalar _ _ _ dst | .newScalarWith _ _ _ dst => dst

/-- The vector that a step writes. -/
def BankStep.value (u : VectorUnit) (bank : Bank α) : BankStep α → Except Failure (LaneVector α)
  | .ofList _ values => orRefused (u.ofList values)
  | .filled _ n value => orRefused (u.filled n value)
  | .zeros _ n => orRefused (u.zeros n)
  | .clone a _ => bank.get? a
  | .set dst i value => do
    let v ← bank.get? dst
    orFaulted (v.set? i value)
  | .apply op a b dst => do
    let a ← bank.get? a
    let b ← bank.get? b
    let d ← bank.get? dst
    orFaulted (u.kernel.apply op a b d)
  | .applyScalar op a s dst => do
    let a ← bank.get? a
    let d ← bank.get? dst
    orFaulted (u.kernel.applyScalar op a s d)
  | .scalarApply op s a dst => do
    let a ← bank.get? a
    let d ← bank.get? dst
    orFaulted (u.kernel.scalarApply op s a d)
  | .exp a dst => do
    let a ← bank.get? a
    let d ← bank.get? dst
    orFaulted (u.kernel.exp a d)
  | .newBinary op a b _ => do
    let a ← bank.get? a
    let b ← bank.get? b
    orFaulted (u.kernel.apply op a b (.zeroed a.length))
  | .newWithScalar op a s _ => do
    let a ← bank.get? a
    orFaulted (u.kernel.applyScalar op a s (.zeroed a.length))
  | .newScalarWith op s a _ => do
    let a ← bank.get? a
    orFaulted (u.kernel.scalarApply op s a (.zeroed a.length))

/-- The bank after a step. -/
def BankStep.run (u : VectorUnit) (bank : Bank α) (step : BankStep α) :
    Except Failure (Bank α) := do
  let v ← step.value u bank
  pure (bank.put step.target v)

/-- The bank after a program; steps that fail change nothing. -/
def Bank.runAll (u : VectorUnit) (bank : Bank α) (program : List (BankStep α)) : Bank α :=
  program.foldl (fun bank step => (step.run u bank).toOption.getD bank) bank

end Run

/-- The inspection text of a vector. -/
def LaneVector.inspect (u : VectorUnit) (v : LaneVector Float) : String :=
  let numbers := ", ".intercalate (v.lanes.map Text.NumberStyle.inspect.render)
  "FixedVector \x7b backend: \"" ++ u.kernel.name ++
    s!"\", capacity: {u.capacity}, len: {v.length}, lanes: [" ++ numbers ++ "] \x7d"

end CurveFit
