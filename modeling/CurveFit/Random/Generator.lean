import CurveFit.Random.Stream
import CurveFit.Random.ZigguratTables

/-!
# Random numbers

A generator draws numbers evenly spread over `-1 … 1` and normally distributed ones, each draw
returning the generator's next state.  `chacha` is the generator over the ChaCha stream; its normal
draws use the ziggurat method.
-/

namespace CurveFit.Random

/-- A source of random numbers with explicit state. -/
structure Generator where
  State : Type
  ofSeed : UInt64 → State
  /-- A number from minus one to one. -/
  symmetric : State → Float × State
  /-- A number from the standard normal distribution. -/
  normal : State → Float × State

/-- The number in `1 … 2` whose fraction bits are the high bits of a word. -/
def oneToTwo (w : UInt64) : Float := Float.ofBits ((w >>> 12) ||| 0x3ff0000000000000)

/-- The number in `2 … 4` whose fraction bits are the high bits of a word. -/
def twoToFour (w : UInt64) : Float := Float.ofBits ((w >>> 12) ||| 0x4000000000000000)

/-- An even draw from minus one to one. -/
def symmetricDraw (s : Stream) : Float × Stream :=
  let (w, s) := s.longWord
  ((oneToTwo w - 1.0) * Float.ofBits 0x4000000000000001 + (-1.0), s)

/-- An even draw strictly between zero and one. -/
def openDraw (s : Stream) : Float × Stream :=
  let (w, s) := s.longWord
  (oneToTwo w - Float.ofBits 0x3fefffffffffffff, s)

/-- An even draw from zero, included, to one, excluded. -/
def unitDraw (s : Stream) : Float × Stream :=
  let (w, s) := s.longWord
  (Float.ofNat (w >>> 11).toNat * Float.ofBits 0x3ca0000000000000, s)

/-- How many attempts a rejection loop makes before it gives up.  An attempt succeeds more often
than not, so the bound is never met in practice. -/
def attempts : Nat := 4096

/-- A draw from the tail of the normal curve beyond the base layer. -/
def tailDraw (negative : Bool) (s : Stream) : Nat → Float × Stream
  | 0 => (0.0, s)
  | n + 1 =>
    let (a, s) := openDraw s
    let (b, s) := openDraw s
    let x := Float.log a / edge 1
    let y := Float.log b
    if -2.0 * y < x * x then tailDraw negative s n
    else (if negative then x - edge 1 else edge 1 - x, s)

/-- A normal draw: a layer and a place in it are chosen together, and places outside the curve are
drawn again. -/
def normalDraw (s : Stream) : Nat → Float × Stream
  | 0 => (0.0, s)
  | n + 1 =>
    let (w, s) := s.longWord
    let i := (w &&& 0xff).toNat
    let u := twoToFour w - 3.0
    let x := u * edge i
    if x.abs < edge (i + 1) then (x, s)
    else if i = 0 then tailDraw (u < 0.0) s attempts
    else
      let (g, s) := unitDraw s
      if height (i + 1) + (height i - height (i + 1)) * g < Float.exp (((-x) * x) / 2.0) then (x, s)
      else normalDraw s n

/-- The generator over the ChaCha stream. -/
def chacha : Generator :=
  { State := Stream
    ofSeed := Stream.ofSeed
    symmetric := symmetricDraw
    normal := fun s => normalDraw s attempts }

end CurveFit.Random
