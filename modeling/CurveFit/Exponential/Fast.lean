import CurveFit.Binary64.Parts
import CurveFit.Error

/-!
# The table-driven exponential

`exp x` is `2 ^ (k / 2048) * exp r` with `k` the whole number nearest to `x * 2048 / ln 2` and a
small remainder `r`.  Adding `1.5 * 2 ^ 52` to `x * 2048 / ln 2` leaves `k` in the low bits of the
sum.  Its low eleven bits choose one of 2048 stored significands, the bits above are the binary
exponent, and `exp r` is replaced by `1 + r + r ^ 2 / 2`.
-/

namespace CurveFit.Exponential

open CurveFit.Binary64

/-- The number of stored significands, chosen by eleven index bits. -/
def tableSize : Nat := 2048

/-- The least argument whose result is a normal number; smaller ones are raised to it. -/
def minArgument : Float := -708.39

/-- The greatest argument whose result is finite; larger ones are lowered to it. -/
def maxArgument : Float := 709.78

/-- The natural logarithm of two. -/
def ln2 : Float := Float.ofBits 0x3fe62e42fefa39ef

/-- Table steps per unit of the argument. -/
def scale : Float := 2048.0 / ln2

/-- The width of a table step. -/
def inverseScale : Float := ln2 / 2048.0

/-- `1.5 * 2 ^ 52`: a sum with it is a whole number held in the low bits. -/
def shift : Float := 6755399441055744.0

/-- The mask of the index bits. -/
def indexMask : UInt64 := 2047

/-- The exponent bias in table steps. -/
def scaledBias : UInt64 := (1023 : UInt64) <<< (11 : UInt64)

/-- The mask of the fraction bits. -/
def fractionMask : UInt64 := 0xfffffffffffff

/-- The fraction bits of `2 ^ (j / 2048)`, as a binary64 power of two gives them. -/
def tableEntry (exp2 : Float → Float) (j : Nat) : UInt64 :=
  (exp2 (Float.ofNat j / 2048.0)).toBits &&& fractionMask

/-- The fraction bits of `2 ^ (j / 2048)` for every index, as a binary64 power of two gives them. -/
def tableOf (exp2 : Float → Float) : Array UInt64 :=
  Array.ofFn fun j : Fin tableSize => tableEntry exp2 j

/-- The stored fraction bits. -/
def table : Array UInt64 := tableOf Float.exp2

theorem size_tableOf (exp2 : Float → Float) : (tableOf exp2).size = tableSize := by simp [tableOf]

/-- The argument kept inside the range the table covers. -/
def clamp (x : Float) : Float :=
  if x < minArgument then minArgument else if maxArgument < x then maxArgument else x

/-- The number of table steps, as a signed word. -/
def steps (x : Float) : Int64 := (x * scale + shift).toBits.toInt64 - shift.toBits.toInt64

/-- What is left of the argument after the table steps. -/
def remainder (x : Float) : Float := x - ((x * scale + shift) - shift) * inverseScale

/-- The place of the table that the index bits of `k` choose. -/
def tableIndex (k : UInt64) : Nat := (k &&& indexMask).toNat

/-- The fraction at the place that `k` chooses. -/
def fractionAt (stored : Array UInt64) (k : UInt64) : UInt64 := stored.getD (tableIndex k) 0

/-- The biased exponent of `k` table steps; the shift keeps the sign. -/
def biasedExponent (k : Int64) : UInt64 := ((k + scaledBias.toInt64) >>> 11).toUInt64

/-- The number with the given biased exponent and fraction. -/
def assemble (exponent fraction : UInt64) : Float := Float.ofBits ((exponent <<< 52) ||| fraction)

/-- `1 + r + r ^ 2 / 2`; one half is given. -/
def quadratic {α : Type} [OfNat α 1] [Add α] [Mul α] (half r : α) : α := 1 + r * (1 + half * r)

/-- The exponential of `k` table steps and a remainder `r`: the power of two for the biased exponent
of `k` and its place in the table, times the quadratic. -/
def compose {α : Type} [OfNat α 1] [Add α] [Mul α] (power : UInt64 → Nat → α) (half : α) (k : Int64)
    (r : α) : α :=
  power (biasedExponent k) (tableIndex k.toUInt64) * quadratic half r

/-- The approximate exponential with the given table.  NaN stays NaN, and an argument outside the
range of the table counts as the nearest end of that range. -/
def fastBy (stored : Array UInt64) (x : Float) : Float :=
  if x.isNaN then x
  else
    let x := clamp x
    compose (fun exponent j => assemble exponent (stored.getD j 0)) 0.5 (steps x) (remainder x)

/-- The approximate exponential. -/
def fast : Float → Float := fastBy table

/-- The exponential of a list written into a destination of the same length. -/
def fastSlice (source : List Float) (length : Nat) : Except Fault (List Float) :=
  if source.length = length then .ok (source.map fast) else .error .sliceLengths

/-- The relative deviation from the exact exponential. -/
def relativeError (x : Float) : Float :=
  let exact := Float.exp x
  ((fast x - exact) / exact).abs

/-- `n` evenly spaced arguments from `low` on, the last one meant to be `high`; at least two. -/
def checkGrid (low high : Float) (samples : Nat) : List Float :=
  let n := max samples 2
  let step := (high - low) / Float.ofNat (n - 1)
  (List.range n).map fun i => low + step * Float.ofNat i

/-- The largest relative deviation over evenly spaced arguments; NaN deviations do not count. -/
def maxRelativeError (low high : Float) (samples : Nat) : Float :=
  (checkGrid low high samples).foldl (fun worst x => greatest worst (relativeError x)) 0.0

end CurveFit.Exponential
