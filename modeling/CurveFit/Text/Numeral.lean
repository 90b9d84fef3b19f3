import CurveFit.Binary64.Bits

/-!
# Reading numbers

The numerals that the command line and the environment accept.  A count is a run of digits after an
optional plus sign and stays below `2 ^ 64`.  A real numeral has an optional sign, digits with an
optional point somewhere among them, and an optional exponent; it is read as the nearest binary64
number, overflow giving infinity.  The words `inf`, `infinity` and `nan` are accepted in any case.
-/

namespace CurveFit.Text

open CurveFit.Binary64

/-- The value of a run of digits. -/
def digitsValue (ds : List Char) : Nat := ds.foldl (fun n c => 10 * n + (c.toNat - 48)) 0

/-- The largest count: sixty-four bits, all set. -/
def maxCount : Nat := 0xffffffffffffffff

/-- A run of at least one digit and nothing else. -/
def isDigits (ds : List Char) : Bool := !ds.isEmpty && ds.all Char.isDigit

/-- Reads a count. -/
def readCount? (s : List Char) : Option Nat :=
  let ds := match s with
    | '+' :: rest => rest
    | _ => s
  if isDigits ds then
    let n := digitsValue ds
    if n ≤ maxCount then some n else none
  else none

/-- The binary64 number nearest to `m * 10 ^ e`.  Beyond four hundred decimal orders the answer is
infinity or zero, whatever the digits. -/
def nearest (m : Nat) (e : Int) : Float :=
  if m = 0 then 0.0
  else
    let order := ((Nat.toDigits 10 m).length : Int) + e
    if 400 < order then infinity
    else if order < -400 then 0.0
    else if 0 ≤ e then Float.ofScientific m false e.toNat
    else Float.ofScientific m true (-e).toNat

/-- A sign taken off the front: whether it is a minus, and the rest. -/
def splitSign : List Char → Bool × List Char
  | '-' :: rest => (true, rest)
  | '+' :: rest => (false, rest)
  | s => (false, s)

/-- The exponent that follows the digits: nothing, or `e` with a signed run of digits. -/
def readExponent? : List Char → Option Int
  | [] => some 0
  | c :: rest =>
    if c = 'e' ∨ c = 'E' then
      let (negative, ds) := splitSign rest
      if isDigits ds then
        let n := (digitsValue ds : Int)
        some (if negative then -n else n)
      else none
    else none

/-- Digits with an optional point and exponent; at least one digit before or after the point. -/
def readDecimal? (s : List Char) : Option Float :=
  let whole := s.takeWhile Char.isDigit
  let afterWhole := s.dropWhile Char.isDigit
  let (fraction, afterFraction) := match afterWhole with
    | '.' :: rest => (rest.takeWhile Char.isDigit, rest.dropWhile Char.isDigit)
    | rest => ([], rest)
  if whole.isEmpty && fraction.isEmpty then none
  else
    (readExponent? afterFraction).map fun e =>
      nearest (digitsValue (whole ++ fraction)) (e - fraction.length)

/-- The words for values without digits. -/
def readSpecial? (s : List Char) : Option Float :=
  match String.ofList (s.map Char.toLower) with
  | "inf" => some infinity
  | "infinity" => some infinity
  | "nan" => some notANumber
  | _ => none

/-- Reads a real numeral. -/
def readNumber? (s : List Char) : Option Float :=
  let (negative, body) := splitSign s
  let magnitude := (readSpecial? body).orElse fun _ => readDecimal? body
  magnitude.map fun x => if negative then -x else x

/-- Reads a real numeral as bits.  The sign before the word `nan` is the sign of the NaN. -/
def readBits? (s : List Char) : Option Bits :=
  (readNumber? s).map fun x =>
    let nan := if (splitSign s).1 then -Bits.positiveNaN else Bits.positiveNaN
    if x.isNaN then nan else .computed x

end CurveFit.Text
