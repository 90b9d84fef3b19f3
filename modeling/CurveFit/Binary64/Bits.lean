import CurveFit.Binary64.Parts

/-!
# Bit patterns

A binary64 number as its bits.  They tell apart what the value does not: a NaN has a sign and a
payload, and the total order sees them.  Arithmetic on bit patterns computes the value and says
which NaN comes out: a NaN among the operands is handed on, and one that is made from numbers is
negative.
-/

namespace CurveFit.Binary64

/-- A number as its bits. -/
structure Bits where
  word : UInt64
deriving DecidableEq, Repr

namespace Bits

/-- The number. -/
def value (b : Bits) : Float := Float.ofBits b.word

/-- Whether the bits are those of a NaN. -/
def isNaN (b : Bits) : Bool := b.value.isNaN

/-- The positive NaN without a payload, which the word `nan` stands for. -/
def positiveNaN : Bits := ⟨0x7ff8000000000000⟩

/-- The negative NaN without a payload, which arithmetic makes from numbers. -/
def negativeNaN : Bits := ⟨0xfff8000000000000⟩

/-- The bits of a value computed from numbers. -/
def computed (x : Float) : Bits := if x.isNaN then negativeNaN else ⟨x.toBits⟩

/-- The bits of a value computed from this number and from what cannot be a NaN. -/
def handOn (b : Bits) (x : Float) : Bits := if b.isNaN then b else computed x

/-- The bits of a value computed from two numbers; of two NaNs the first is handed on. -/
def handOnFirst (a b : Bits) (x : Float) : Bits := if a.isNaN then a else b.handOn x

/-- A key whose order is the total order of all bit patterns: negative NaN, then the numbers from
least to greatest with `-0` below `+0`, then positive NaN. -/
def totalKey (b : Bits) : Int :=
  if b.word >>> 63 == 1 then -((b.word.toNat : Int) - 0x8000000000000000) - 1 else b.word.toNat

instance : OfNat Bits 1 := ⟨computed 1.0⟩

instance : OfNat Bits 2 := ⟨computed 2.0⟩

instance : Neg Bits := ⟨fun b => ⟨b.word ^^^ 0x8000000000000000⟩⟩

instance : Add Bits := ⟨fun a b => a.handOnFirst b (a.value + b.value)⟩

instance : Sub Bits := ⟨fun a b => a.handOnFirst b (a.value - b.value)⟩

/-- Of two factors that are NaNs the second is handed on. -/
instance : Mul Bits := ⟨fun a b => b.handOnFirst a (a.value * b.value)⟩

instance : Div Bits := ⟨fun a b => a.handOnFirst b (a.value / b.value)⟩

end Bits

end CurveFit.Binary64
