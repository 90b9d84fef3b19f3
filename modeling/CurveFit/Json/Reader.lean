import CurveFit.Json.Value
import CurveFit.Text.Numeral

/-!
# Reading JSON

A document is one value with white space around it and nothing else.  Each reader takes the
characters left and returns what it read together with the rest.
-/

namespace CurveFit.Json

/-- White space between tokens. -/
def isSpace (c : Char) : Bool := c = ' ' || c = '\n' || c = '\t' || c = '\x0d'

/-- The text without leading white space. -/
def skipSpace (s : List Char) : List Char := s.dropWhile isSpace

/-- The value of a hexadecimal digit. -/
def hexValue? (c : Char) : Option Nat :=
  if '0' ≤ c ∧ c ≤ '9' then some (c.toNat - 48)
  else if 'a' ≤ c ∧ c ≤ 'f' then some (c.toNat - 87)
  else if 'A' ≤ c ∧ c ≤ 'F' then some (c.toNat - 55)
  else none

/-- The value of four hexadecimal digits. -/
def hexUnit? (a b c d : Char) : Option Nat := do
  let a ← hexValue? a
  let b ← hexValue? b
  let c ← hexValue? c
  let d ← hexValue? d
  pure (((a * 16 + b) * 16 + c) * 16 + d)

/-- The pieces of a string up to its closing quote; control characters are refused. -/
def readPieces : List Char → List Piece → Option (List Piece × List Char)
  | [], _ => none
  | '"' :: rest, acc => some (acc.reverse, rest)
  | '\\' :: 'u' :: a :: b :: c :: d :: rest, acc =>
    match hexUnit? a b c d with
    | some n => readPieces rest (.unit n :: acc)
    | none => none
  | '\\' :: c :: rest, acc =>
    if (escapeValue? c).isSome then readPieces rest (.escape c :: acc) else none
  | c :: rest, acc =>
    if c.toNat < 32 ∨ c = '\\' then none else readPieces rest (.plain c :: acc)

/-- A run of digits and the rest. -/
def readDigits (s : List Char) : List Char × List Char :=
  (s.takeWhile Char.isDigit, s.dropWhile Char.isDigit)

/-- A minus sign taken off the front. -/
def splitMinus : List Char → Bool × List Char
  | '-' :: rest => (true, rest)
  | s => (false, s)

/-- The digits behind a point, if there is one; at least one digit. -/
def readFraction? : List Char → Option (Option (List Char) × List Char)
  | '.' :: rest =>
    let (ds, rest) := readDigits rest
    if ds.isEmpty then none else some (some ds, rest)
  | s => some (none, s)

/-- The signed digits of an exponent, if there is one; at least one digit. -/
def readExponent? : List Char → Option (Option (Bool × List Char) × List Char)
  | 'e' :: rest | 'E' :: rest =>
    let (minus, rest) := CurveFit.Text.splitSign rest
    let (ds, rest) := readDigits rest
    if ds.isEmpty then none else some (some (minus, ds), rest)
  | s => some (none, s)

/-- Digits before the point: at least one, and no superfluous leading zero. -/
def isWholePart (ds : List Char) : Bool :=
  !ds.isEmpty && (ds.length == 1 || ds.head? != some '0')

/-- A number. -/
def readNumeral (s : List Char) : Option (Numeral × List Char) := do
  let (negative, s) := splitMinus s
  let (whole, s) := readDigits s
  guard (isWholePart whole)
  let (fraction, s) ← readFraction? s
  let (exponent, s) ← readExponent? s
  pure (⟨negative, whole, fraction, exponent⟩, s)

/-- The rest after an expected word. -/
def readWord (word : String) (s : List Char) : Option (List Char) :=
  if word.toList.isPrefixOf s then some (s.drop word.length) else none

mutual

/-- One value.  Each nested value costs one unit of `depth`, which the length of the text bounds. -/
def readValue (depth : Nat) (s : List Char) : Option (Value × List Char) :=
  match depth with
  | 0 => none
  | depth + 1 =>
    match skipSpace s with
    | '\x7b' :: rest =>
      match skipSpace rest with
      | '\x7d' :: rest => some (.object [], rest)
      | rest => (readMembers depth rest []).map fun (ms, rest) => (.object ms, rest)
    | '[' :: rest =>
      match skipSpace rest with
      | ']' :: rest => some (.array [], rest)
      | rest => (readItems depth rest []).map fun (vs, rest) => (.array vs, rest)
    | '"' :: rest => (readPieces rest []).map fun (ps, rest) => (.string ps, rest)
    | 'n' :: rest => (readWord "ull" rest).map fun rest => (.null, rest)
    | 't' :: rest => (readWord "rue" rest).map fun rest => (.bool true, rest)
    | 'f' :: rest => (readWord "alse" rest).map fun rest => (.bool false, rest)
    | s => (readNumeral s).map fun (n, rest) => (.number n, rest)

/-- The items of an array after its opening bracket, up to and with the closing one. -/
def readItems (depth : Nat) (s : List Char) (acc : List Value) :
    Option (List Value × List Char) :=
  match depth with
  | 0 => none
  | depth + 1 =>
    match readValue depth s with
    | none => none
    | some (v, rest) =>
      match skipSpace rest with
      | ',' :: rest => readItems depth rest (v :: acc)
      | ']' :: rest => some ((v :: acc).reverse, rest)
      | _ => none

/-- The members of an object after its opening brace, up to and with the closing one. -/
def readMembers (depth : Nat) (s : List Char) (acc : List (List Piece × Value)) :
    Option (List (List Piece × Value) × List Char) :=
  match depth with
  | 0 => none
  | depth + 1 =>
    match skipSpace s with
    | '"' :: rest =>
      match readPieces rest [] with
      | none => none
      | some (key, rest) =>
        match skipSpace rest with
        | ':' :: rest =>
          match readValue depth rest with
          | none => none
          | some (v, rest) =>
            match skipSpace rest with
            | ',' :: rest => readMembers depth rest ((key, v) :: acc)
            | '\x7d' :: rest => some (((key, v) :: acc).reverse, rest)
            | _ => none
        | _ => none
    | _ => none

end

/-- Reads a document.  Every unit of depth is paid for by a character, so the length of the text is
depth enough. -/
def read? (text : String) : Option Value :=
  let s := text.toList
  match readValue (2 * s.length + 2) s with
  | some (v, rest) => if (skipSpace rest).isEmpty then some v else none
  | none => none

end CurveFit.Json
