import CurveFit.Pattern.Reader
import CurveFit.Text.Numeral
import CurveFit.Text.Slice

/-!
# Log filters

A filter is a list of directives between commas; empty ones are skipped.  A directive is a level, or
a target, a span in square brackets, or both, with an optional equals sign and level after them.  A
span may end in a field in braces, whose value is a number or a pattern.

The marks of a directive are found in its text without the blanks around it, by position in bytes,
and what stands between the marks is then cut out of the text with those blanks.  So after blanks at
the start the parts come out shifted.
-/

namespace CurveFit.Cli

open CurveFit.Text

/-- The words for levels. -/
def levelWords : List String := ["off", "error", "warn", "info", "debug", "trace"]

/-- Whether a text is a level: a word in any case, a number from zero to five, or nothing. -/
def isLevel (s : List Char) : Bool :=
  s.isEmpty || levelWords.contains (String.ofList (s.map Char.toLower)) ||
    (readCount? s).any (· ≤ 5)

/-- Whether a directive may start with a character other than a bracket. -/
def startsDirective (c : Char) : Bool := c = '_' || c = ':' || c = '-' || isWordChar c

/-- Why a directive cannot be read: an issue to be told, or a position inside a character. -/
inductive DirectiveFailure where
  | issue (issue : FilterIssue)
  | insideCharacter
deriving DecidableEq, Repr

/-- The part of a directive between two positions. -/
def part (text : List Char) (start stop : Nat) : Except DirectiveFailure (List Char) :=
  match slice? start stop text with
  | some s => .ok s
  | none => .error .insideCharacter

/-- The value of a field: what stands between the first equals sign and the second. -/
def fieldValue? (field : List Char) : Option (List Char) :=
  match field.dropWhile (· != '=') with
  | _ :: rest => some (rest.takeWhile (· != '='))
  | [] => none

/-- Refuses an empty field, and one whose value is neither a number nor a pattern. -/
def checkField (field : List Char) : Except DirectiveFailure Unit :=
  if field.isEmpty then .error (.issue .directive)
  else
    match fieldValue? field with
    | none => .ok ()
    | some value =>
      if (readNumber? value).isSome then .ok ()
      else
        match Pattern.issue? value with
        | some issue => .error (.issue (.field issue))
        | none => .ok ()

/-- Where the reading of a directive stands: at its start, in a level or a target, in a span, a
field or a level that starts at a position, after a field, or after a span. -/
inductive Stage where
  | start
  | target
  | span (since : Nat)
  | field (since : Nat)
  | fieldEnd
  | spanEnd
  | level (since : Nat)
deriving DecidableEq, Repr

/-- The stage after a character at a position; the parts that it ends are cut out of the text. -/
def Stage.step (text : List Char) (position : Nat) (c : Char) :
    Stage → Except DirectiveFailure Stage
  | .start =>
    if c = '[' then .ok (.span (position + 1))
    else if startsDirective c then .ok .target
    else .error (.issue .directive)
  | .target =>
    if c = '=' then (part text 0 position).map fun _ => .level (position + 1)
    else if c = '[' then (part text 0 position).map fun _ => .span (position + 1)
    else .ok .target
  | .span since =>
    if c = ']' then (part text since position).map fun _ => .spanEnd
    else if c = '\x7b' then (part text since position).map fun _ => .field (position + 1)
    else .ok (.span since)
  | .field since =>
    if c = '\x7d' then do
      checkField (← part text since position)
      pure .fieldEnd
    else .ok (.field since)
  | .fieldEnd => if c = ']' then .ok .spanEnd else .error (.issue .directive)
  | .spanEnd => if c = '=' then .ok (.level (position + 1)) else .error (.issue .directive)
  | .level since => .ok (.level since)

/-- Refuses a directive that ends too early or in a level that is none. -/
def Stage.finish (text : List Char) : Stage → Except DirectiveFailure Unit
  | .target => .ok ()
  | .spanEnd => .ok ()
  | .level since => do
    if isLevel (← part text since (byteLength text)) then pure () else throw (.issue .level)
  | _ => .error (.issue .directive)

/-- Reads a directive on from a stage and a position. -/
def readDirective (text : List Char) : Stage → Nat → List Char → Except DirectiveFailure Unit
  | stage, _, [] => stage.finish text
  | stage, position, c :: rest => do
    let next ← stage.step text position c
    readDirective text next (position + c.utf8Size) rest

/-- Refuses a text that is no directive. -/
def checkDirective (text : List Char) : Except DirectiveFailure Unit :=
  readDirective text .start 0 (trim text)

/-- Refuses a text that is no filter, by the first directive that cannot be read. -/
def checkFilter (filter : String) : Except Failure Unit := do
  for directive in (filter.splitOn ",").map String.toList do
    if !directive.isEmpty then
      (checkDirective directive).mapError fun
        | .issue issue => Failure.refused (.invalidSettings (.logFilter filter issue))
        | .insideCharacter => .faulted .insideCharacter

end CurveFit.Cli
