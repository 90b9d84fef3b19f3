import CurveFit.Fit.Backend
import CurveFit.Model.Library
import CurveFit.Text.Numeral

/-!
# Command-line options

Options are declared as data: their names, what kind of value they take, and whether a value in an
argument of its own may start with a hyphen.  `scan` reads arguments against such a list.  An option
is given as `--name value`, `--name=value`, `-n value`, `-nvalue` or `-n=value`; a flag takes no
value; nothing but the repeatable options may be given twice.
-/

namespace CurveFit.Cli

/-- The kinds of value an option takes. -/
inductive ValueKind where
  | text
  /-- A path, which is not empty. -/
  | path
  | count
  | number
  /-- Numbers between commas. -/
  | numbers
  | model
  | backend
deriving DecidableEq, Repr

/-- A value given for an option. -/
inductive OptionValue where
  | flag
  | text (s : String)
  | count (n : Nat)
  | number (x : Float)
  | numbers (xs : List Binary64.Bits)
  | model (kind : ModelKind)
  | backend (choice : BackendChoice)
deriving DecidableEq

/-- A text cut at every comma. -/
def splitCommas (s : List Char) : List (List Char) :=
  s.foldr
    (fun c pieces =>
      if c = ',' then [] :: pieces
      else match pieces with
        | [] => [[c]]
        | p :: rest => (c :: p) :: rest)
    [[]]

/-- The value that a text stands for. -/
def ValueKind.read? (kind : ValueKind) (s : String) : Option OptionValue :=
  match kind with
  | .text => some (.text s)
  | .path => if s.isEmpty then none else some (.text s)
  | .count => (Text.readCount? s.toList).map .count
  | .number => (Text.readNumber? s.toList).map .number
  | .numbers => ((splitCommas s.toList).mapM Text.readBits?).map .numbers
  | .model => (ModelKind.ofName? s).map .model
  | .backend => (BackendChoice.ofName? s).map .backend

/-- A declared option. -/
structure OptionSpec where
  name : String
  short : Option Char
  /-- What kind of value the option takes; none for a flag. -/
  kind : Option ValueKind
  /-- Whether a value in an argument of its own may start with a hyphen. -/
  hyphenValues : Bool
  /-- Whether the option may be given again, its values adding up. -/
  repeatable : Bool
deriving DecidableEq

/-- An option with one value. -/
def OptionSpec.valued (name : String) (kind : ValueKind) : OptionSpec :=
  ⟨name, none, some kind, false, false⟩

/-- An option without a value. -/
def OptionSpec.flag (name : String) : OptionSpec := ⟨name, none, none, false, false⟩

/-- The option with a one-letter name. -/
def OptionSpec.withShort (o : OptionSpec) (c : Char) : OptionSpec := { o with short := some c }

/-- The option with values that may start with a hyphen. -/
def OptionSpec.allowingHyphen (o : OptionSpec) : OptionSpec := { o with hyphenValues := true }

/-- The option with values that add up. -/
def OptionSpec.accumulating (o : OptionSpec) : OptionSpec := { o with repeatable := true }

/-- Why reading the arguments ends without a command: help or the version is asked for, or the
arguments are not usable. -/
inductive Halt where
  | help
  | version
  | usage
deriving DecidableEq, Repr

/-- The options given so far, the latest first. -/
abbrev Given := List (String × OptionValue)

/-- The form of an argument. -/
inductive Form where
  /-- Two hyphens alone. -/
  | terminator
  | long (name : String) (value : Option String)
  /-- A hyphen with letters. -/
  | short (letters : List Char)
  | plain
deriving DecidableEq

/-- The form an argument has.  A hyphen alone is a plain argument. -/
def Form.of (arg : String) : Form :=
  match arg.toList with
  | ['-', '-'] => .terminator
  | '-' :: '-' :: body =>
    let name := String.ofList (body.takeWhile (· != '='))
    match body.dropWhile (· != '=') with
    | '=' :: value => .long name (some (String.ofList value))
    | _ => .long name none
  | '-' :: c :: letters => .short (c :: letters)
  | _ => .plain

/-- Adds a value, unless the option may not be given again. -/
def add (o : OptionSpec) (v : OptionValue) (given : Given) : Except Halt Given :=
  if !o.repeatable && (given.lookup o.name).isSome then .error .usage
  else .ok ((o.name, v) :: given)

/-- Adds the value that a text stands for. -/
def addText (o : OptionSpec) (kind : ValueKind) (text : String) (given : Given) :
    Except Halt Given :=
  match kind.read? text with
  | some v => add o v given
  | none => .error .usage

/-- Whether an argument can be the value of the option before it. -/
def canFollow (o : OptionSpec) (arg : String) : Bool := o.hyphenValues || Form.of arg == .plain

/-- What one argument means where options are expected. -/
inductive Reading where
  /-- The options with this one added. -/
  | done (given : Given)
  /-- An option whose value is the next argument. -/
  | needsValue (o : OptionSpec) (kind : ValueKind)
  /-- Not an option. -/
  | operand
  | halt (h : Halt)

/-- A result as a reading. -/
def Reading.ofExcept : Except Halt Given → Reading
  | .ok given => .done given
  | .error h => .halt h

/-- The value glued to a one-letter option: an equals sign before it does not count. -/
def gluedValue : List Char → String
  | '=' :: rest => String.ofList rest
  | rest => String.ofList rest

/-- Reads one argument.  The letter `h` asks for help, and where the version may be asked for the
letter `V` does. -/
def readArgument (specs : List OptionSpec) (hasVersion : Bool) (arg : String) (given : Given) :
    Reading :=
  match Form.of arg with
  | .terminator | .plain => .operand
  | .long name value =>
    if name = "help" then (if value.isNone then .halt .help else .halt .usage)
    else if name = "version" ∧ hasVersion then
      (if value.isNone then .halt .version else .halt .usage)
    else
      match specs.find? (·.name == name) with
      | none => .halt .usage
      | some o =>
        match o.kind, value with
        | none, none => .ofExcept (add o .flag given)
        | none, some _ => .halt .usage
        | some kind, some text => .ofExcept (addText o kind text given)
        | some kind, none => .needsValue o kind
  | .short letters =>
    match letters with
    | [] => .halt .usage
    | c :: rest =>
      if c = 'h' then .halt .help
      else if c = 'V' ∧ hasVersion then .halt .version
      else
        match specs.find? (·.short == some c) with
        | none => .halt .usage
        | some o =>
          match o.kind with
          | none => .halt .usage
          | some kind =>
            if rest.isEmpty then .needsValue o kind
            else .ofExcept (addText o kind (gluedValue rest) given)

/-- Whether an argument ends the options. -/
def isOperand (arg : String) : Bool := Form.of arg == .plain || Form.of arg == .terminator

/-- What reading options comes to: the options, and the first operand with what follows it.  A value
in an argument of its own is taken up by what comes after it, so if it is the last before the
operands, a refusal of it is left to them. -/
structure Scanned where
  given : Except Halt Given
  operands : List String

/-- Reads options up to the end, or to the first operand.  After the terminator everything is an
operand. -/
def scan (specs : List OptionSpec) (hasVersion : Bool) :
    List String → Given → Except Halt Scanned
  | [], given => .ok ⟨.ok given, []⟩
  | arg :: rest, given =>
    match readArgument specs hasVersion arg given with
    | .halt h => .error h
    | .operand => .ok ⟨.ok given, arg :: rest⟩
    | .done given => scan specs hasVersion rest given
    | .needsValue o kind =>
      match rest with
      | [] => .error .usage
      | value :: rest =>
        if canFollow o value then
          match addText o kind value given with
          | .ok given => scan specs hasVersion rest given
          | .error h => if rest.head?.any isOperand then .ok ⟨.error h, rest⟩ else .error h
        else .error .usage

namespace Given

/-- The value of an option as a text. -/
def text? (given : Given) (name : String) : Option String :=
  match given.lookup name with
  | some (.text s) => some s
  | _ => none

/-- The value of an option as a count. -/
def count? (given : Given) (name : String) : Option Nat :=
  match given.lookup name with
  | some (.count n) => some n
  | _ => none

/-- The value of an option as a number. -/
def number? (given : Given) (name : String) : Option Float :=
  match given.lookup name with
  | some (.number x) => some x
  | _ => none

/-- All values of an option, in the order given. -/
def numbers? (given : Given) (name : String) : Option (List Binary64.Bits) :=
  let pieces := given.reverse.filterMap fun (n, v) =>
    match v with
    | .numbers xs => if n = name then some xs else none
    | _ => none
  if pieces.isEmpty then none else some pieces.flatten

/-- The value of an option as a model. -/
def model? (given : Given) (name : String) : Option ModelKind :=
  match given.lookup name with
  | some (.model k) => some k
  | _ => none

/-- The value of an option as a choice of backend. -/
def backend? (given : Given) (name : String) : Option BackendChoice :=
  match given.lookup name with
  | some (.backend c) => some c
  | _ => none

/-- Whether a flag is given. -/
def flag (given : Given) (name : String) : Bool := (given.lookup name).isSome

end Given

end CurveFit.Cli
