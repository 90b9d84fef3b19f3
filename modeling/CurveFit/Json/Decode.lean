import CurveFit.Json.Value
import CurveFit.Text.Numeral

/-!
# Taking values apart

What a JSON value means where a count, a real number, a text, a choice, a list or a record is
expected; `none` where it means nothing there.

A real number is computed from a 64-bit significand and a power of ten, in one multiplication or
division of binary64 numbers.  That is close to, but not always, the nearest number to the text:
`1e-30` reads as the number just below the nearest one.
-/

namespace CurveFit.Json

open CurveFit.Text CurveFit.Binary64

/-- The largest significand: sixty-four bits, all set. -/
def maxSignificand : Nat := 0xffffffffffffffff

/-- Appends digits to a significand while it stays below `2 ^ 64`: the significand, and how many
digits it took. -/
def takeDigits (significand used : Nat) : List Char → Nat × Nat
  | [] => (significand, used)
  | c :: rest =>
    let next := 10 * significand + (c.toNat - 48)
    if maxSignificand < next then (significand, used) else takeDigits next (used + 1) rest

/-- The nearest number to `10 ^ n`. -/
def tenTo (n : Nat) : Float := Float.ofScientific 1 false n

/-- Scales by a power of ten.  Exponents beyond the range of a single power are refused upwards and
approached in steps downwards; an infinite result is refused. -/
def scale? (f : Float) (e : Int) : Option Float :=
  if 0 ≤ e then
    if e ≤ 308 then
      let r := f * tenTo e.toNat
      if r.isInf then none else some r
    else if f == 0.0 then some f
    else none
  else if -308 ≤ e then some (f / tenTo (-e).toNat)
  else if f == 0.0 then some f
  else scale? (f / tenTo 308) (e + 308)
termination_by (-e).toNat
decreasing_by omega

/-- The exponent as written. -/
def Numeral.writtenExponent (n : Numeral) : Int :=
  match n.exponent with
  | none => 0
  | some (negative, ds) => if negative then -(digitsValue ds : Int) else digitsValue ds

/-- The number as a real number.  Digits that the significand cannot hold count as zeros before the
point and are dropped behind it. -/
def Numeral.toReal? (n : Numeral) : Option Float :=
  let (whole, used) := takeDigits 0 0 n.whole
  let skipped := n.whole.length - used
  let (significand, places) := takeDigits whole 0 (n.fraction.getD [])
  let exponent := (skipped : Int) - places + n.writtenExponent
  (scale? (Float.ofNat significand) exponent).map fun x => if n.negative then -x else x

/-- The number as a count: no sign, point or exponent, and below `2 ^ 64`. -/
def Numeral.toCount? (n : Numeral) : Option Nat :=
  if n.negative || n.fraction.isSome || n.exponent.isSome then none
  else
    let v := digitsValue n.whole
    if v ≤ maxCount then some v else none

/-- A real number. -/
def Value.real? : Value → Option Float
  | .number n => n.toReal?
  | _ => none

/-- A count. -/
def Value.count? : Value → Option Nat
  | .number n => n.toCount?
  | _ => none

/-- A truth value. -/
def Value.bool? : Value → Option Bool
  | .bool b => some b
  | _ => none

/-- A text. -/
def Value.text? : Value → Option String
  | .string s => decodeText s
  | _ => none

/-- A list, item by item. -/
def Value.list? {β : Type} (item : Value → Option β) : Value → Option (List β)
  | .array items => items.mapM item
  | _ => none

/-- One of several named alternatives: its name, or an object with the name as its only member and
null as the value. -/
def Value.choice? : Value → Option String
  | .string s => decodeText s
  | .object [(key, .null)] => decodeText key
  | _ => none

/-- The values of a record's fields.  An object may leave fields out, have them in any order and
hold others, which are ignored; a repeated field is refused.  An array lists the fields in order and
may stop early. -/
def Value.fields? (names : List String) : Value → Option (List (Option Value))
  | .object members => do
    let keyed ← members.mapM fun (key, v) => (decodeText key).map fun k => (k, v)
    names.mapM fun name =>
      match keyed.filter (·.1 == name) with
      | [] => some none
      | [(_, v)] => some (some v)
      | _ => none
  | .array items =>
    if items.length ≤ names.length then
      some (items.map some ++ List.replicate (names.length - items.length) none)
    else none
  | _ => none

/-- A field that has to be there. -/
def required {β : Type} (read : Value → Option β) (field : Option Value) : Option β :=
  field.bind read

/-- A field with a default. -/
def withDefault {β : Type} (default : β) (read : Value → Option β) (field : Option Value) :
    Option β :=
  match field with
  | none => some default
  | some v => read v

/-- A field that may be left out or null. -/
def optional {β : Type} (read : Value → Option β) (field : Option Value) : Option (Option β) :=
  match field with
  | none => some none
  | some .null => some none
  | some v => (read v).map some

end CurveFit.Json
