/-!
# JSON values

A document as it stands in the text: numbers keep the parts they were written with and strings keep
their escapes, so that a value nobody asks for is only checked for its form.  Objects keep the order
and the repetitions of their members.
-/

namespace CurveFit.Json

/-- The parts of a number as written.  Absent fraction and exponent are `none`; the exponent comes
with its sign. -/
structure Numeral where
  negative : Bool
  whole : List Char
  fraction : Option (List Char)
  exponent : Option (Bool × List Char)
deriving DecidableEq, Repr

/-- A piece of a string: a character that stands for itself, a one-letter escape, or one code unit
in hexadecimal. -/
inductive Piece where
  | plain (c : Char)
  | escape (c : Char)
  | unit (n : Nat)
deriving DecidableEq, Repr

/-- A JSON value. -/
inductive Value where
  | null
  | bool (b : Bool)
  | number (n : Numeral)
  | string (s : List Piece)
  | array (items : List Value)
  | object (members : List (List Piece × Value))

/-- What a one-letter escape stands for. -/
def escapeValue? (c : Char) : Option Char :=
  match c with
  | '"' => some '"'
  | '\\' => some '\\'
  | '/' => some '/'
  | 'b' => some '\x08'
  | 'f' => some '\x0c'
  | 'n' => some '\n'
  | 'r' => some '\x0d'
  | 't' => some '\t'
  | _ => none

/-- The text that the pieces stand for.  Two code units of a surrogate pair make one character; a
surrogate without its partner stands for nothing. -/
def decodePieces : List Piece → Option (List Char)
  | [] => some []
  | .plain c :: rest => (decodePieces rest).map (c :: ·)
  | .escape c :: rest => do
    let v ← escapeValue? c
    let r ← decodePieces rest
    pure (v :: r)
  | .unit hi :: .unit lo :: rest =>
    if 0xd800 ≤ hi ∧ hi < 0xdc00 then
      if 0xdc00 ≤ lo ∧ lo < 0xe000 then
        (decodePieces rest).map
          (Char.ofNat (0x10000 + (hi - 0xd800) * 0x400 + (lo - 0xdc00)) :: ·)
      else none
    else if 0xdc00 ≤ hi ∧ hi < 0xe000 then none
    else (decodePieces (.unit lo :: rest)).map (Char.ofNat hi :: ·)
  | .unit n :: rest =>
    if 0xd800 ≤ n ∧ n < 0xe000 then none else (decodePieces rest).map (Char.ofNat n :: ·)

/-- The text of a string. -/
def decodeText (s : List Piece) : Option String := (decodePieces s).map String.ofList

end CurveFit.Json
