import CurveFit.Text.Blank

/-!
# Entries of a variable file

An entry is a line, or several: a line that ends inside quotes, after a backslash or on a blank
goes on with the next one.  A number sign directly after a blank outside quotes ends the entry, and
a line that starts with one is no entry at all.
-/

namespace CurveFit.DotEnv

open CurveFit.Text

/-- Where the search for the end of an entry stands: outside quotes, after a blank there, after a
backslash there, or inside single (strong) or double (weak) quotes. -/
inductive Scan where
  | complete
  | blank
  | escape
  | strong
  | strongEscape
  | weak
  | weakEscape
deriving DecidableEq, Repr

/-- The state after a character outside quotes that is no blank. -/
def Scan.opening (c : Char) : Scan :=
  if c = '\\' then .escape
  else if c = '"' then .weak
  else if c = '\'' then .strong
  else .complete

/-- The state one character further; none where a comment starts.  The second of two blanks does not
count as one. -/
def Scan.step (s : Scan) (c : Char) : Option Scan :=
  match s with
  | .complete => if isBlank c && c != '\n' && c != '\x0d' then some .blank else some (.opening c)
  | .blank => if c = '#' then none else some (.opening c)
  | .escape => some .complete
  | .strong =>
    if c = '\\' then some .strongEscape else if c = '\'' then some .complete else some .strong
  | .strongEscape => some .strong
  | .weak =>
    if c = '\\' then some .weakEscape else if c = '"' then some .complete else some .weak
  | .weakEscape => some .weak

/-- A line up to a comment, and the state at its end. -/
def scanLine : Scan → List Char → List Char × Scan
  | s, [] => ([], s)
  | s, c :: rest =>
    match s.step c with
    | none => ([], .complete)
    | some s =>
      let (kept, last) := scanLine s rest
      (c :: kept, last)

/-- The lines of a text, each with its line break. -/
def physicalLines : List Char → List (List Char)
  | [] => []
  | c :: rest =>
    match physicalLines rest with
    | [] => [[c]]
    | line :: more => if c = '\n' then [c] :: line :: more else (c :: line) :: more

/-- Lines joined to entries, after an unfinished one.  An entry still unfinished at the end of the
text is dropped. -/
def joinLines (pending : List Char) (s : Scan) : List (List Char) → List (List Char)
  | [] => []
  | line :: rest =>
    if (trimStart (pending ++ line)).head? = some '#' then joinLines [] .complete rest
    else
      match scanLine s line with
      | (kept, .complete) => (pending ++ kept) :: joinLines [] .complete rest
      | (_, s) => joinLines (pending ++ line) s rest

/-- A text without the mark that may stand at its start. -/
def dropByteOrderMark : List Char → List Char
  | '\ufeff' :: rest => rest
  | s => s

/-- The entries of a text. -/
def entries (text : String) : List (List Char) :=
  joinLines [] .complete (physicalLines (dropByteOrderMark text.toList))

/-- No character is lost or added by cutting a text into lines. -/
theorem flatten_physicalLines (s : List Char) : (physicalLines s).flatten = s := by
  induction s with
  | nil => rfl
  | cons c rest ih =>
    unfold physicalLines
    split
    · next h => simp_all
    · next line more h =>
      rw [h] at ih
      split <;> simp_all

/-- What is kept of a line is a part of its start. -/
theorem scanLine_isPrefix (s : Scan) (line : List Char) : (scanLine s line).1 <+: line := by
  induction line generalizing s with
  | nil => simp [scanLine]
  | cons c rest ih =>
    unfold scanLine
    split
    · simp
    · next t _ => simpa using ih t

end CurveFit.DotEnv
