import CurveFit.Lanes.Vector
import CurveFit.Scalar
import CurveFit.Settings.Basic

/-!
# Backends and the support gate

A backend is a vector unit that a fit can run on.  The gate says whether a unit may hold a dataset,
and `selectBackend` chooses the backend: the smallest accelerated one that holds every point, else
the first accelerated one that holds them after dropping the permitted surplus, else the portable
one.
-/

namespace CurveFit

/-- What the machine can do. -/
inductive SimdLevel where
  | avx2
  | scalar
deriving DecidableEq, Repr

/-- The name of a level in reports. -/
def SimdLevel.name : SimdLevel → String
  | .avx2 => "Avx2"
  | .scalar => "Scalar"

/-- The level of the machines the accelerated kernel is meant for. -/
def simdLevel : SimdLevel := .avx2

/-- Whether a kernel can run: the accelerated one needs AVX2. -/
def Kernel.isAvailable (k : Kernel) : Bool := !k.isAccelerated || simdLevel == .avx2

/-- The backends. -/
inductive Backend where
  | accelerated1024
  | accelerated2048
  | portable
deriving DecidableEq, Repr

/-- Which backend a user asks for. -/
inductive BackendChoice where
  | auto
  | portable
  | accelerated
deriving DecidableEq, Repr

/-- The capacities of the accelerated backends. -/
def acceleratedCapacities : List Nat := [1024, 2048]

/-- The capacity of the portable backend. -/
def portableCapacity : Nat := 1048576

namespace Backend

/-- The vector unit of a backend. -/
def unit : Backend → VectorUnit
  | .accelerated1024 => ⟨.avx2, 1024⟩
  | .accelerated2048 => ⟨.avx2, 2048⟩
  | .portable => ⟨.portable, portableCapacity⟩

/-- The number of points a backend can fit. -/
def capacity (b : Backend) : Nat := b.unit.capacity

/-- Whether a backend is accelerated. -/
def isAccelerated (b : Backend) : Bool := b.unit.kernel.isAccelerated

/-- The label of a backend in reports. -/
def label : Backend → String
  | .accelerated1024 => "avx2/1024"
  | .accelerated2048 => "avx2/2048"
  | .portable => "portable"

/-- The one-word name of a backend. -/
def name : Backend → String
  | .accelerated1024 => "accelerated1024"
  | .accelerated2048 => "accelerated2048"
  | .portable => "portable"

/-- Every backend. -/
def all : List Backend := [.accelerated1024, .accelerated2048, .portable]

/-- The backend of a label. -/
def ofLabel? (s : String) : Option Backend := all.find? (·.label == s)

end Backend

namespace BackendChoice

/-- The name of a choice in arguments. -/
def name : BackendChoice → String
  | .auto => "auto"
  | .portable => "portable"
  | .accelerated => "accelerated"

/-- Every choice. -/
def all : List BackendChoice := [.auto, .portable, .accelerated]

/-- The choice of a name. -/
def ofName? (s : String) : Option BackendChoice := all.find? (·.name == s)

end BackendChoice

section Gate

variable {α : Type} [OfNat α 1] [Add α] [Mul α] [LE α] [DecidableLE α] [FitScalar α]

/-- Whether `points` stay within a capacity exceeded by the given fraction. -/
def withinCapacity (points capacity : Nat) (ratio : α) : Bool :=
  decide (FitScalar.ofCount points ≤ FitScalar.ofCount capacity * (1 + ratio))

/-- The gate: whether a unit may hold a dataset under the given settings. -/
def VectorUnit.supports (u : VectorUnit) (points : Nat) (s : Settings α) : Bool :=
  if u.kernel.isAccelerated && !s.simdEnabled then false
  else u.kernel.isAvailable && withinCapacity points u.capacity s.truncateRatio

/-- The first accelerated backend that the gate lets through. -/
def acceleratedFor (points : Nat) (s : Settings α) : Option Backend :=
  [Backend.accelerated1024, Backend.accelerated2048].find? fun b => b.unit.supports points s

/-- The best backend for a dataset.  A capacity that holds every point wins over a smaller one that
would drop some. -/
def selectBackend [OfNat α 0] (points : Nat) (s : Settings α) : Backend :=
  ((acceleratedFor points { s with truncateRatio := 0 }).or (acceleratedFor points s)).getD
    .portable

/-- The backend for a user's choice; asking for an accelerated one is refused when the gate lets
none through. -/
def resolveBackend [OfNat α 0] (choice : BackendChoice) (points : Nat) (s : Settings α) :
    Except FitError Backend :=
  match choice with
  | .auto => .ok (selectBackend points s)
  | .portable => .ok .portable
  | .accelerated =>
    match selectBackend points s with
    | .portable => .error (.unsupported "accelerated backend unavailable for this dataset")
    | b => .ok b

end Gate

end CurveFit
