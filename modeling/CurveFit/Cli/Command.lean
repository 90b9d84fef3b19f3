import CurveFit.Cli.Options
import CurveFit.Exponential.Fast
import CurveFit.Sample
import CurveFit.Settings.Layers

/-!
# Commands

The four commands with their options and defaults, and reading a whole command line.
-/

namespace CurveFit.Cli

/-- The options of a synthetic dataset. -/
structure SampleArgs where
  model : ModelKind
  points : Nat
  xMin : Float
  xMax : Float
  noise : Float
  seed : Nat
  /-- The parameters the data is made from. -/
  truth : Option (List Binary64.Bits)
  /-- The parameters a fit starts from. -/
  initial : Option (List Float)
deriving DecidableEq

/-- The options of a single fit. -/
structure FitArgs where
  sample : SampleArgs
  solver : SettingsFlags
  backend : BackendChoice
  trace : Bool
  /-- Where to write the report. -/
  export? : Option String
deriving DecidableEq

/-- The options of a batch. -/
structure BatchArgs where
  sample : SampleArgs
  solver : SettingsFlags
  series : Nat
  spread : Float
deriving DecidableEq

/-- The commands. -/
inductive Command where
  /-- Fit one synthetic dataset. -/
  | fit (args : FitArgs)
  /-- Fit many synthetic series. -/
  | batch (args : BatchArgs)
  /-- Show which backend a dataset gets. -/
  | support (points : Nat) (solver : SettingsFlags)
  /-- Measure the table-driven exponential. -/
  | expCheck (min max : Float) (samples : Nat)
deriving DecidableEq

/-- A command line: the log filter and the command. -/
structure Invocation where
  logLevel : String
  command : Command
deriving DecidableEq

/-- The names of the commands. -/
inductive CommandName where
  | fit
  | batch
  | support
  | expCheck
deriving DecidableEq, Repr

namespace CommandName

/-- The name as an argument. -/
def text : CommandName → String
  | .fit => "fit"
  | .batch => "batch"
  | .support => "support"
  | .expCheck => "exp-check"

/-- Every command name. -/
def all : List CommandName := [.fit, .batch, .support, .expCheck]

/-- The command of an argument. -/
def ofText? (s : String) : Option CommandName := all.find? (·.text == s)

end CommandName

/-- The option every command has. -/
def globalOptions : List OptionSpec := [.valued "log-level" .text]

/-- The options of a synthetic dataset. -/
def sampleOptions : List OptionSpec :=
  [(OptionSpec.valued "model" .model).withShort 'm',
   (OptionSpec.valued "points" .count).withShort 'n',
   .valued "x-min" .number,
   .valued "x-max" .number,
   .valued "noise" .number,
   .valued "seed" .count,
   (OptionSpec.valued "truth" .numbers).allowingHyphen.accumulating,
   (OptionSpec.valued "initial" .numbers).allowingHyphen.accumulating]

/-- The options that set solver settings. -/
def solverOptions : List OptionSpec :=
  [.valued "config" .path,
   .valued "max-iterations" .count,
   .valued "min-delta-chi2" .number,
   .valued "initial-lambda" .number,
   .valued "truncate-ratio" .number,
   .flag "no-simd"]

/-- The options of a command. -/
def CommandName.options : CommandName → List OptionSpec
  | .fit =>
    sampleOptions ++ solverOptions ++
      [.valued "backend" .backend, .flag "trace", .valued "export" .path] ++ globalOptions
  | .batch =>
    sampleOptions ++ solverOptions ++ [.valued "series" .count, .valued "spread" .number] ++
      globalOptions
  | .support =>
    (OptionSpec.valued "points" .count).withShort 'n' :: solverOptions ++ globalOptions
  | .expCheck =>
    [(OptionSpec.valued "min" .number).allowingHyphen,
     (OptionSpec.valued "max" .number).allowingHyphen,
     .valued "samples" .count] ++ globalOptions

/-- The dataset options with their defaults. -/
def SampleArgs.ofGiven (given : Given) : SampleArgs :=
  { model := (given.model? "model").getD .exponential
    points := (given.count? "points").getD 1000
    xMin := (given.number? "x-min").getD 0.0
    xMax := (given.number? "x-max").getD 10.0
    noise := (given.number? "noise").getD 0.01
    seed := (given.count? "seed").getD 42
    truth := given.numbers? "truth"
    initial := (given.numbers? "initial").map fun xs => xs.map (·.value) }

/-- The settings flags. -/
def flagsOfGiven (given : Given) : SettingsFlags :=
  { config := given.text? "config"
    maxIterations := given.count? "max-iterations"
    minDeltaChi2 := given.number? "min-delta-chi2"
    initialLambda := given.number? "initial-lambda"
    truncateRatio := given.number? "truncate-ratio"
    noSimd := given.flag "no-simd" }

/-- The command with the given options. -/
def CommandName.command (name : CommandName) (given : Given) : Command :=
  match name with
  | .fit => .fit
    { sample := .ofGiven given
      solver := flagsOfGiven given
      backend := (given.backend? "backend").getD .auto
      trace := given.flag "trace"
      export? := given.text? "export" }
  | .batch => .batch
    { sample := .ofGiven given
      solver := flagsOfGiven given
      series := (given.count? "series").getD 64
      spread := (given.number? "spread").getD 0.2 }
  | .support => .support ((given.count? "points").getD 1024) (flagsOfGiven given)
  | .expCheck => .expCheck
    ((given.number? "min").getD Exponential.minArgument)
    ((given.number? "max").getD Exponential.maxArgument)
    ((given.count? "samples").getD 1000001)

/-- Reads the arguments of the help command: nothing, or the name of a command. -/
def readHelp : List String → Halt
  | [] => .help
  | [name] => if name = "help" ∨ (CommandName.ofText? name).isSome then .help else .usage
  | _ => .usage

/-- Reads a command line.  The log filter may be given before the command and after it; the later
one counts.  Asking a command for help comes before a refusal that was left to it. -/
def parseArguments (args : List String) : Except Halt Invocation := do
  let top ← scan globalOptions true args []
  match top.operands with
  | [] => throw .usage
  | word :: rest =>
    if word = "help" then throw (readHelp rest)
    else
      match CommandName.ofText? word with
      | none => throw .usage
      | some name =>
        let own ← scan name.options false rest []
        let given ← own.given
        if own.operands = [] ∨ own.operands = ["--"] then
          let level := (given.text? "log-level").or ((← top.given).text? "log-level")
          pure ⟨level.getD "warn", name.command given⟩
        else throw .usage

end CurveFit.Cli
