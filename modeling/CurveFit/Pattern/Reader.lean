import CurveFit.Error
import CurveFit.Pattern.Class
import CurveFit.Text.Letters

/-!
# Reading patterns

A pattern is a choice, between bars, of sequences of items: atoms, classes and groups, each possibly
repeated, and directives that set switches for the rest of the group they stand in.  A pattern is
read to find whether it is one, whether it nests too deeply, and whether it tests for the boundaries
of words in the sense of Unicode.
-/

namespace CurveFit.Pattern

open CurveFit.Text

/-- The letters of the switches. -/
def switchLetters : List Char := ['i', 'm', 's', 'U', 'u', 'R', 'x']

/-- Sets the switch of a letter; those that reading does not depend on are left out. -/
def Switches.set (w : Switches) (letter : Char) (on : Bool) : Switches :=
  if letter = 'i' then { w with ignoreCase := on }
  else if letter = 'u' then { w with unicode := on }
  else if letter = 'x' then { w with spaced := on }
  else w

/-- Reads switches up to a colon or a closing parenthesis, none of them twice; those after a hyphen
are turned off.  `seen` are the characters before, the last one first. -/
def readSwitches (w : Switches) (seen : List Char) :
    List Char → Option (Switches × List Char × List Char)
  | [] => none
  | c :: rest =>
    if c = ':' ∨ c = ')' then if seen.head? = some '-' then none else some (w, seen, c :: rest)
    else if seen.contains c then none
    else if c = '-' then readSwitches w (c :: seen) rest
    else if switchLetters.contains c then
      readSwitches (w.set c !(seen.contains '-')) (c :: seen) rest
    else none

/-- Reads the name of a group and the angle bracket after it. -/
def readGroupName (s : List Char) : Option (String × List Char) :=
  match s.takeWhile (· != '>'), s.dropWhile (· != '>') with
  | first :: more, _ :: rest =>
    if (first = '_' || isLetter first) &&
        more.all fun c => ['_', '.', '[', ']'].contains c || isWordChar c then
      some (String.ofList (first :: more), rest)
    else none
  | _, _ => none

/-- A place in a pattern, and what is known there. -/
structure Cursor where
  rest : List Char
  switches : Switches
  /-- The names of the groups so far. -/
  names : List String
  /-- Whether there was a test for the boundaries of words in the sense of Unicode. -/
  boundary : Bool

/-- What an opening parenthesis opens. -/
inductive Opening where
  | directive (after : Cursor)
  | group (inner : Cursor)

/-- Reads the start of a named group. -/
def openNamed (c : Cursor) (s : List Char) : Option Opening := do
  let (name, rest) ← readGroupName s
  if c.names.contains name then none
  else some (.group { c with rest := rest, names := name :: c.names })

/-- Reads what follows an opening parenthesis, up to the contents of the group. -/
def openGroup (c : Cursor) (s : List Char) : Option Opening :=
  match c.switches.skip s with
  | '?' :: '=' :: _ => none
  | '?' :: '!' :: _ => none
  | '?' :: '<' :: '=' :: _ => none
  | '?' :: '<' :: '!' :: _ => none
  | '?' :: 'P' :: '<' :: rest => openNamed c rest
  | '?' :: '<' :: rest => openNamed c rest
  | '?' :: rest =>
    match readSwitches c.switches [] rest with
    | some (w, _, ':' :: rest) => some (.group { c with rest := rest, switches := w })
    | some (w, _ :: _, _ :: rest) => some (.directive { c with rest := rest, switches := w })
    | _ => none
  | rest => some (.group { c with rest := rest })

/-- What has been read of a group: the number of branches before the last bar and their depth, the
number of items since and their depth, and the depth of the last item if it may be repeated. -/
structure Level where
  branches : Nat
  branchDepth : Nat
  count : Nat
  depth : Nat
  last? : Option Nat

namespace Level

/-- Nothing read. -/
def empty : Level := ⟨0, 0, 0, 0, none⟩

/-- One more item of the given depth. -/
def add (l : Level) (depth : Nat) : Level :=
  { l with count := l.count + 1, depth := max l.depth depth, last? := some depth }

/-- One more directive. -/
def addDirective (l : Level) : Level := { l with count := l.count + 1, last? := none }

/-- The last item is repeated. -/
def repeatLast (l : Level) : Option Level :=
  l.last?.map fun depth => { l with depth := max l.depth (depth + 1), last? := some (depth + 1) }

/-- The depth of the last branch.  A sequence of several items is one level deeper than the
items. -/
def branch (l : Level) : Nat := if l.count ≤ 1 then l.depth else l.depth + 1

/-- A new branch. -/
def bar (l : Level) : Level := ⟨l.branches + 1, max l.branchDepth l.branch, 0, 0, none⟩

/-- The depth of everything read.  A choice is one level deeper than its branches. -/
def total (l : Level) : Nat :=
  if l.branches = 0 then l.branch else max l.branchDepth l.branch + 1

end Level

/-- Reads an atom outside classes. -/
def readAtom (w : Switches) : List Char → Option (Atom × List Char)
  | [] => none
  | '\\' :: rest => readEscape w rest
  | '.' :: rest => some (.dot, rest)
  | '^' :: rest => some (.anchor, rest)
  | '$' :: rest => some (.anchor, rest)
  | c :: rest => some (.char c false, rest)

/-- Reads a group up to its closing parenthesis or the end of the text; gives its depth and the
place where it ends. -/
def readGroup : Nat → Level → Cursor → Option (Nat × Cursor)
  | 0, _, _ => none
  | fuel + 1, level, c =>
    let s := c.switches.skip c.rest
    match s with
    | [] => some (level.total, { c with rest := s })
    | ')' :: _ => some (level.total, { c with rest := s })
    | '|' :: rest => readGroup fuel level.bar { c with rest := rest }
    | '(' :: rest => do
      match ← openGroup c rest with
      | .directive after => readGroup fuel level.addDirective after
      | .group inner =>
        match ← readGroup fuel .empty inner with
        | (depth, ⟨')' :: rest, _, names, boundary⟩) =>
          readGroup fuel (level.add (depth + 1)) ⟨rest, c.switches, names, boundary⟩
        | _ => none
    | '[' :: rest => do
      let (depth, rest) ← readClass c.switches rest
      readGroup fuel (level.add depth) { c with rest := rest }
    | '\x7b' :: _ => none
    | sign :: rest =>
      if ['?', '*', '+'].contains sign then do
        let level ← level.repeatLast
        let rest := match rest with
          | '?' :: rest => rest
          | _ => rest
        readGroup fuel level { c with rest := rest }
      else do
        let (atom, rest) ← readAtom c.switches s
        if atom.usable c.switches then
          let boundary := c.boundary || (atom == .boundary && c.switches.unicode)
          readGroup fuel (level.add 0) { c with rest := rest, boundary := boundary }
        else none

/-- The deepest nesting. -/
def nestingLimit : Nat := 250

/-- Why a text is no usable pattern, if it is none. -/
def issue? (s : List Char) : Option PatternIssue :=
  match readGroup (s.length + 1) .empty ⟨s, .initial, [], false⟩ with
  | some (depth, ⟨[], _, _, boundary⟩) =>
    if nestingLimit < depth then some .malformed
    else if boundary then some .unicodeBoundary
    else none
  | _ => some .malformed

end CurveFit.Pattern
