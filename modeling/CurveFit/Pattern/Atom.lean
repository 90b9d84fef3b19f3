import CurveFit.Text.Blank

/-!
# The smallest parts of a pattern

A pattern describes texts by characters, classes, groups and repetitions.  Its smallest parts are
atoms: a character, a shorthand for digits, blanks or word characters, the dot, and the tests for a
place in the text.  How they are read, and which may be used, depends on switches that the pattern
can set.  There are no tables of Unicode classes and cases, so what needs one may not be used.
-/

namespace CurveFit.Pattern

open CurveFit.Text

/-- The switches that reading depends on. -/
structure Switches where
  /-- Letters match in either case. -/
  ignoreCase : Bool
  /-- The pattern is about characters; else about bytes. -/
  unicode : Bool
  /-- Blanks and comments between the parts are skipped. -/
  spaced : Bool
deriving DecidableEq, Repr

/-- The switches at the start of a pattern. -/
def Switches.initial : Switches := ⟨false, true, false⟩

/-- A text without blanks and comments at its start; a comment goes from a number sign to the end of
the line.  The flag tells whether the text starts inside a comment. -/
def skipSpace : Bool → List Char → List Char
  | _, [] => []
  | true, c :: rest => skipSpace (c != '\n') rest
  | false, c :: rest =>
    if isBlank c then skipSpace false rest
    else if c = '#' then skipSpace true rest
    else c :: rest

/-- What is left to read of a text. -/
def Switches.skip (w : Switches) (s : List Char) : List Char :=
  if w.spaced then skipSpace false s else s

/-- The next character of a text, as the decision about a range sees it: blanks and one number sign
are passed over, unless nothing else follows. -/
def Switches.peek? (w : Switches) (s : List Char) : Option Char :=
  let next :=
    match trimStart s with
    | '#' :: rest => trimStart rest
    | rest => rest
  if w.spaced then next.head?.or s.head? else s.head?

/-- The smallest parts. -/
inductive Atom where
  /-- A character; the flag tells whether it is given as a byte. -/
  | char (c : Char) (byte : Bool)
  /-- Digits, blanks or word characters, or all others. -/
  | shorthand (negated : Bool)
  | dot
  /-- The start or the end of a line or a text. -/
  | anchor
  /-- A place where a word starts or ends, or one where none does. -/
  | boundary
deriving DecidableEq, Repr

/-- Whether an atom may stand outside classes. -/
def Atom.usable (w : Switches) : Atom → Bool
  | .char c byte => if w.unicode then !w.ignoreCase else !byte || decide (c.toNat < 128)
  | .shorthand negated => !w.unicode && !negated
  | .dot => w.unicode
  | .anchor => true
  | .boundary => true

/-- Whether an atom may stand in a class. -/
def Atom.usableInClass (w : Switches) : Atom → Bool
  | .char c _ => if w.unicode then !w.ignoreCase else decide (c.toNat < 128)
  | .shorthand negated => !w.unicode && !negated
  | .dot | .anchor | .boundary => false

/-- The value of a hexadecimal digit. -/
def hexValue? (c : Char) : Option Nat :=
  if c.isDigit then some (c.toNat - 48)
  else if 'a' ≤ c ∧ c ≤ 'f' then some (c.toNat - 87)
  else if 'A' ≤ c ∧ c ≤ 'F' then some (c.toNat - 55)
  else none

/-- Reads so many hexadecimal digits, after others of the given value. -/
def readHex (w : Switches) : Nat → Nat → List Char → Option (Nat × List Char)
  | 0, value, s => some (value, s)
  | _ + 1, _, [] => none
  | n + 1, value, c :: rest => do
    let digit ← hexValue? c
    readHex w n (16 * value + digit) (w.skip rest)

/-- Reads a character given by so many hexadecimal digits. -/
def readCoded (w : Switches) (digits : Nat) (s : List Char) : Option (Atom × List Char) := do
  let (value, rest) ← readHex w digits 0 (w.skip s)
  if value.isValidChar then some (.char (Char.ofNat value) (digits == 2), rest) else none

/-- The control characters with a letter of their own. -/
def controlLetters : List (Char × Char) :=
  [('a', '\x07'), ('f', '\x0c'), ('t', '\t'), ('n', '\n'), ('r', '\x0d'), ('v', '\x0b')]

/-- Whether a backslash before a character stands for the character itself. -/
def isEscapable (c : Char) : Bool :=
  decide (c.toNat < 128) && !c.isAlphanum && c != '<' && c != '>'

/-- Reads what follows a backslash. -/
def readEscape (w : Switches) : List Char → Option (Atom × List Char)
  | [] => none
  | c :: rest =>
    if c = 'x' then readCoded w 2 rest
    else if c = 'u' then readCoded w 4 rest
    else if c = 'U' then readCoded w 8 rest
    else if ['d', 's', 'w'].contains c then some (.shorthand false, rest)
    else if ['D', 'S', 'W'].contains c then some (.shorthand true, rest)
    else if ['A', 'z'].contains c then some (.anchor, rest)
    else if ['b', 'B', '<', '>'].contains c then some (.boundary, rest)
    else if isEscapable c then some (.char c false, rest)
    else (controlLetters.lookup c).map fun control => (.char control false, rest)

/-- Skipping never adds to a text. -/
theorem skipSpace_isSuffix (comment : Bool) (s : List Char) : skipSpace comment s <:+ s := by
  induction s generalizing comment with
  | nil => simp [skipSpace]
  | cons c rest ih =>
    cases comment with
    | true => exact (ih _).trans (List.suffix_cons c rest)
    | false =>
      unfold skipSpace
      split
      · exact (ih _).trans (List.suffix_cons c rest)
      · split
        · exact (ih _).trans (List.suffix_cons c rest)
        · exact List.suffix_rfl

end CurveFit.Pattern
