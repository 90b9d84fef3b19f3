import CurveFit.Text.Number

/-!
# What can go wrong

`FitError` holds the refusals a caller can act on, by cause; the wording and the exit status of each
are functions of it.  `Fault` holds the violations of a contract between parts of the library, or
with what it runs on: operands of different lengths, a matrix of the wrong shape, an index out of
range, a list that no memory holds.  A computation that may meet both fails with a `Failure`.
-/

namespace CurveFit

/-- Why a text is no usable pattern: it has not the form of one or needs what there is not, or it
tests for the boundaries of words in the sense of Unicode. -/
inductive PatternIssue where
  | malformed
  | unicodeBoundary
deriving DecidableEq, Repr

/-- The wording of a pattern's issue. -/
def PatternIssue.message : PatternIssue → String
  | .malformed => "error building NFA"
  | .unicodeBoundary =>
    "unsupported regex feature for DFAs: cannot build DFAs for regexes with Unicode word " ++
      "boundaries; switch to ASCII word boundaries, or heuristically enable Unicode word " ++
      "boundaries or use a different regex engine"

/-- Why a text is no log filter: a directive without the form of one, a field whose value is no
pattern, or a level that is none. -/
inductive FilterIssue where
  | directive
  | field (issue : PatternIssue)
  | level
deriving DecidableEq, Repr

/-- The wording of a filter's issue. -/
def FilterIssue.message : FilterIssue → String
  | .directive => "invalid filter directive"
  | .field issue => s!"invalid field filter: {issue.message}"
  | .level =>
    "error parsing level filter: expected one of \"off\", \"error\", \"warn\", \"info\", " ++
      "\"debug\", \"trace\", or a number 0-5"

/-- Why settings, sample specifications or arguments are unusable. -/
inductive SettingsIssue where
  | minDeltaChi2 (value : Float)
  | initialLambda (value : Float)
  | truncateRatio (value : Float)
  | unreadable (key raw : String)
  | notASwitch (key raw : String)
  | sampleRange (low high : Float)
  | noiseSigma (value : Float)
  | spread (value : Float)
  | nonFiniteSample
  | logFilter (directives : String) (issue : FilterIssue)
  | checkRange (low high : Float)
  | tooFewSamples
  | other (reason : String)
deriving DecidableEq

/-- Numbers in messages are written plainly. -/
def plainText (x : Float) : String := Text.NumberStyle.plain.render x

/-- The wording of an issue. -/
def SettingsIssue.message : SettingsIssue → String
  | .minDeltaChi2 v => s!"min_delta_chi2 must be finite and >= 0, got {plainText v}"
  | .initialLambda v => s!"initial_lambda must be finite and > 0, got {plainText v}"
  | .truncateRatio v => s!"truncate_ratio must be finite and >= 0, got {plainText v}"
  | .unreadable key raw => s!"{key}: cannot parse '{raw}'"
  | .notASwitch key raw => s!"{key}: expected on/off, got '{raw}'"
  | .sampleRange low high => s!"invalid x range [{plainText low}, {plainText high}]"
  | .noiseSigma v => s!"noise sigma must be finite and >= 0, got {plainText v}"
  | .spread v => s!"spread must be in [0, 1), got {plainText v}"
  | .nonFiniteSample => "sample produced non-finite values"
  | .logFilter directives issue => s!"invalid log filter '{directives}': {issue.message}"
  | .checkRange low high => s!"invalid range [{plainText low}, {plainText high}]"
  | .tooFewSamples => "need at least 2 samples"
  | .other reason => reason

/-- Refusals. -/
inductive FitError where
  | lengthMismatch (left right : Nat)
  | capacityExceeded (requested capacity : Nat)
  | parameterCount (expected actual : Nat)
  | unsupported (operation : String)
  | emptyDataset
  | invalidSettings (issue : SettingsIssue)
  | io (reason : String)
  | json (reason : String)
deriving DecidableEq

/-- The wording of a refusal. -/
def FitError.message : FitError → String
  | .lengthMismatch left right => s!"length mismatch: {left} vs {right}"
  | .capacityExceeded requested capacity =>
    s!"requested length {requested} exceeds vector capacity {capacity}"
  | .parameterCount expected actual => s!"model expects {expected} parameters, got {actual}"
  | .unsupported operation => s!"unsupported operation: {operation}"
  | .emptyDataset => "dataset is empty"
  | .invalidSettings issue => s!"invalid settings: {issue.message}"
  | .io reason => s!"i/o error: {reason}"
  | .json reason => s!"json error: {reason}"

/-- The exit status that reports a refusal, one for each group of causes. -/
def FitError.exitCode : FitError → Nat
  | .invalidSettings _ => 2
  | .lengthMismatch _ _ | .capacityExceeded _ _ | .parameterCount _ _ | .emptyDataset => 3
  | .unsupported _ => 4
  | .io _ | .json _ => 5

/-- Violations of a contract inside the library. -/
inductive Fault where
  /-- An operation on vectors met two lengths. -/
  | lengths (operation : String) (left right : Nat)
  /-- Source and destination of the scalar exponential differ in length. -/
  | sliceLengths
  /-- A system of equations whose matrix does not fit its right-hand side. -/
  | shape (rows cols rhs : Nat)
  /-- An index, or a parameter, that is not there. -/
  | outOfRange
  /-- A position inside a character of a text. -/
  | insideCharacter
  /-- A list larger than the addresses there are. -/
  | capacity
  /-- A value that no environment can hold. -/
  | unusableValue
deriving DecidableEq

/-- The wording of a fault, if it has one of its own. -/
def Fault.message? : Fault → Option String
  | .lengths operation left right =>
    some s!"{operation}: vector length mismatch ({left} vs {right})"
  | .sliceLengths => some "fast_exp_slice: length mismatch"
  | .shape rows cols rhs => some s!"solve_in_place: {rows}x{cols} matrix vs rhs of {rhs}"
  | .outOfRange | .insideCharacter | .capacity | .unusableValue => none

/-- The size of the largest list in bytes: half of the addresses that sixty-four bits give. -/
def maxBytes : Nat := 0x7fffffffffffffff

/-- Refuses a list of so many entries, each of so many bytes, that it is too large. -/
def checkCapacity (entries bytes : Nat) : Except Fault Unit :=
  if maxBytes < entries * bytes then .error .capacity else .ok ()

/-- A refusal or a fault. -/
inductive Failure where
  | refused (error : FitError)
  | faulted (fault : Fault)
deriving DecidableEq

/-- A refusal as a failure. -/
def orRefused {β : Type} (r : Except FitError β) : Except Failure β := r.mapError .refused

/-- A fault as a failure. -/
def orFaulted {β : Type} (r : Except Fault β) : Except Failure β := r.mapError .faulted

end CurveFit
