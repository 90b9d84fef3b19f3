import CurveFit.Text.Shortest

/-!
# Numbers as text

Two families of formats.  `NumberStyle.render` writes the shortest digits that read back, in a
style that says where positional writing ends and what whole numbers look like.  `fixed` and
`scientific` write the exact binary value rounded to a given number of places, a half going to the
even digit.
-/

namespace CurveFit.Text

open CurveFit.Binary64

/-- `n` copies of a character. -/
def copies (n : Nat) (c : Char) : String := String.ofList (List.replicate n c)

/-- Spaces on the left up to the given width. -/
def padLeft (width : Nat) (s : String) : String := copies (width - s.length) ' ' ++ s

/-- Spaces on the right up to the given width. -/
def padRight (width : Nat) (s : String) : String := s ++ copies (width - s.length) ' '

/-- How numbers are written with their shortest digits. -/
structure NumberStyle where
  /-- The least decimal exponent written positionally; none if there is no bound. -/
  positionalFrom : Option Int
  /-- Decimal exponents from here on use the exponent form; none if there is no bound. -/
  positionalBelow : Option Int
  /-- What follows a whole number written positionally. -/
  wholeSuffix : String
  /-- Whether a non-negative exponent carries a plus sign. -/
  exponentPlus : Bool
  tie : Tie
  nan : String
  infinity : String

/-- Plain text: positional at any size, no decimal point on whole numbers. -/
def NumberStyle.plain : NumberStyle :=
  { positionalFrom := none, positionalBelow := none, wholeSuffix := "", exponentPlus := false,
    tie := .up, nan := "NaN", infinity := "inf" }

/-- Inspection text: a point on every positional number, the exponent form outside `1e-4 … 1e16`. -/
def NumberStyle.inspect : NumberStyle :=
  { positionalFrom := some (-4), positionalBelow := some 16, wholeSuffix := ".0",
    exponentPlus := false, tie := .up, nan := "NaN", infinity := "inf" }

/-- JSON text: a point on every positional number, the exponent form outside `1e-5 … 1e16` with its
sign always written; what is not finite is null. -/
def NumberStyle.json : NumberStyle :=
  { positionalFrom := some (-5), positionalBelow := some 16, wholeSuffix := ".0",
    exponentPlus := true, tie := .toEven, nan := "null", infinity := "null" }

/-- Digits with the decimal point after `place` of them, zeros filled in on either side. -/
def positional (digits : String) (place : Int) (wholeSuffix : String) : String :=
  let n := digits.length
  if place ≤ 0 then "0." ++ copies (-place).toNat '0' ++ digits
  else if (n : Int) ≤ place then digits ++ copies (place.toNat - n) '0' ++ wholeSuffix
  else
    String.ofList (digits.toList.take place.toNat) ++ "." ++
      String.ofList (digits.toList.drop place.toNat)

/-- Digits with the point after the first one. -/
def mantissa (digits : String) : String :=
  match digits.toList with
  | [] => ""
  | [d] => String.ofList [d]
  | d :: rest => String.ofList (d :: '.' :: rest)

/-- The exponent with its sign. -/
def exponentText (e : Int) (plus : Bool) : String :=
  if e < 0 then "-" ++ toString e.natAbs
  else (if plus then "+" else "") ++ toString e.natAbs

/-- Whether the decimal exponent `e` is written positionally. -/
def NumberStyle.isPositional (style : NumberStyle) (e : Int) : Bool :=
  style.positionalFrom.all (fun b => decide (b ≤ e)) &&
    style.positionalBelow.all (fun b => decide (e < b))

/-- The text of a positive decimal. -/
def NumberStyle.renderDecimal (style : NumberStyle) (d : Decimal) : String :=
  let digits := toString d.digits
  let place := (digits.length : Int) + d.exponent
  if style.isPositional (place - 1) then positional digits place style.wholeSuffix
  else mantissa digits ++ "e" ++ exponentText (place - 1) style.exponentPlus

/-- The minus sign of a number that carries one. -/
def signText (x : Float) : String := if isNegative x then "-" else ""

/-- The text of a number in the given style. -/
def NumberStyle.render (style : NumberStyle) (x : Float) : String :=
  if x.isNaN then style.nan
  else if x.isInf then (if style.infinity == "null" then "" else signText x) ++ style.infinity
  else if x == 0.0 then signText x ++ "0" ++ style.wholeSuffix
  else signText x ++ style.renderDecimal (shortestOf (parts x) style.tie)

/-- The text of what is not finite in the fixed formats. -/
def specialText (x : Float) : String := if x.isNaN then "NaN" else signText x ++ "inf"

/-- A natural number with its last `places` digits behind the point. -/
def withPlaces (n places : Nat) : String :=
  let digits := toString n
  let digits := copies (places + 1 - digits.length) '0' ++ digits
  if places = 0 then digits
  else positional digits ((digits.length : Int) - places) ""

/-- The exact value rounded to `places` decimals, a half to the even digit. -/
def fixed (places : Nat) (x : Float) : String :=
  if !x.isFinite then specialText x
  else
    let (num, den) := (parts x).quotient
    signText x ++ withPlaces (roundQuotient (num * Nat.pow 10 places) den .toEven) places

/-- The exact value in exponent form with `places` decimals, a half to the even digit.  Rounding
up to the next power of ten moves the exponent. -/
def scientific (places : Nat) (x : Float) : String :=
  if !x.isFinite then specialText x
  else
    let (num, den) := (parts x).quotient
    if num = 0 then signText x ++ withPlaces 0 places ++ "e0"
    else
      let order := decimalOrder num den
      let (up, down) := powerOfTen ((places : Int) + 1 - order)
      let n := roundQuotient (num * up) (den * down) .toEven
      if n = Nat.pow 10 (places + 1) then
        signText x ++ withPlaces (Nat.pow 10 places) places ++ "e" ++ exponentText order false
      else signText x ++ withPlaces n places ++ "e" ++ exponentText (order - 1) false

end CurveFit.Text
