import CurveFit.Pattern.Atom

/-!
# Character classes

A class in brackets lists characters, ranges of them, shorthands, named classes and classes, and may
be negated; two lists may be combined by an intersection, a difference or a symmetric difference.
Reading gives the depth of the nesting.
-/

namespace CurveFit.Pattern

/-- The names of classes. -/
def classNames : List String :=
  ["alnum", "alpha", "ascii", "blank", "cntrl", "digit", "graph", "lower", "print", "punct",
   "space", "upper", "word", "xdigit"]

/-- Reads a named class after its opening bracket: whether it is negated, and the rest. -/
def readNamed? : List Char → Option (Bool × List Char)
  | ':' :: s =>
    let (negated, s) := match s with
      | '^' :: rest => (true, rest)
      | _ => (false, s)
    match s.dropWhile (· != ':') with
    | ':' :: ']' :: rest =>
      if classNames.contains (String.ofList (s.takeWhile (· != ':'))) then some (negated, rest)
      else none
    | _ => none
  | _ => none

/-- Whether a named class may be used. -/
def usableNamed (w : Switches) (negated : Bool) : Bool :=
  if w.unicode then !w.ignoreCase else !negated

/-- What has been read of a class: the depth of the lists before the last operation, if there was
one, and the number of items since and their depth. -/
structure ClassLevel where
  left? : Option Nat
  count : Nat
  depth : Nat

namespace ClassLevel

/-- Nothing read. -/
def empty : ClassLevel := ⟨none, 0, 0⟩

/-- One more item of the given depth. -/
def add (l : ClassLevel) (depth : Nat) : ClassLevel :=
  { l with count := l.count + 1, depth := max l.depth depth }

/-- The depth of everything read.  A list of several items is one level deeper than the items, and
so is an operation than its operands. -/
def total (l : ClassLevel) : Nat :=
  let here := if l.count ≤ 1 then l.depth else l.depth + 1
  match l.left? with
  | none => here
  | some left => max left here + 1

/-- Everything read is the left operand of an operation. -/
def operand (l : ClassLevel) : ClassLevel := ⟨some l.total, 0, 0⟩

end ClassLevel

/-- Counts the hyphens at the start of a class. -/
def readHyphens (w : Switches) : Nat → ClassLevel → List Char → ClassLevel × List Char
  | fuel + 1, level, '-' :: rest => readHyphens w fuel (level.add 0) (w.skip rest)
  | _, level, s => (level, s)

/-- Reads the start of a class after its opening bracket: a negation, hyphens, and a closing bracket
that stands for itself. -/
def openClass (w : Switches) (s : List Char) : Option (ClassLevel × List Char) :=
  let (negated, s) := match w.skip s with
    | '^' :: rest => (true, w.skip rest)
    | s => (false, s)
  let (level, s) := readHyphens w s.length .empty s
  let (level, s) := match level.count, s with
    | 0, ']' :: rest => (level.add 0, w.skip rest)
    | _, _ => (level, s)
  let usable := (Atom.char '-' false).usableInClass w
  if (negated && !w.unicode) || (level.count != 0 && !usable) then none else some (level, s)

/-- Reads a character or an escape of a class. -/
def readMember (w : Switches) : List Char → Option (Atom × List Char)
  | [] => none
  | '\\' :: rest => readEscape w rest
  | c :: rest => some (.char c false, rest)

/-- Reads a member of a class, or a range between two characters. -/
def readRange (w : Switches) (s : List Char) : Option (List Char) := do
  let (low, rest) ← readMember w s
  let rest := w.skip rest
  let alone := if low.usableInClass w then some rest else none
  match rest with
  | '-' :: after =>
    if [some ']', some '-'].contains (w.peek? after) then alone
    else
      match low, ← readMember w (w.skip after) with
      | .char a x, (.char b y, rest) =>
        let usable := (Atom.char a x).usableInClass w && (Atom.char b y).usableInClass w
        if a ≤ b && usable then some rest else none
      | _, _ => none
  | _ => alone

/-- Reads the items of a class up to its closing bracket; gives their depth and the rest. -/
def readItems (w : Switches) : Nat → ClassLevel → List Char → Option (Nat × List Char)
  | 0, _, _ => none
  | fuel + 1, level, s =>
    match w.skip s with
    | [] => none
    | ']' :: rest => some (level.total, rest)
    | '&' :: '&' :: rest => readItems w fuel level.operand rest
    | '-' :: '-' :: rest => readItems w fuel level.operand rest
    | '~' :: '~' :: rest => readItems w fuel level.operand rest
    | '[' :: rest =>
      match readNamed? rest with
      | some (negated, rest) =>
        if usableNamed w negated then readItems w fuel (level.add 0) rest else none
      | none => do
        let (inner, rest) ← openClass w rest
        let (depth, rest) ← readItems w fuel inner rest
        readItems w fuel (level.add (depth + 1)) rest
    | s => do
      let rest ← readRange w s
      readItems w fuel (level.add 0) rest

/-- Reads a class after its opening bracket; gives its depth and the rest. -/
def readClass (w : Switches) (s : List Char) : Option (Nat × List Char) := do
  let (level, rest) ← openClass w s
  let (depth, rest) ← readItems w (rest.length + 1) level rest
  pure (depth + 1, rest)

end CurveFit.Pattern
