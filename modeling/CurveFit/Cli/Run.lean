import CurveFit.Cli.Command
import CurveFit.Cli.LogFilter
import CurveFit.Fit.Batch
import CurveFit.Model.Guess
import CurveFit.Report.File
import CurveFit.Report.Summary
import CurveFit.Settings.DotEnv

/-!
# Runs of the program

What a command line does, as a function of the environment and the files it finds: the text it
prints, the file it wants written, and the failure it ends with.  Printing and writing are left to
the caller.
-/

namespace CurveFit.Cli

open Binary64

/-- What a run sees. -/
structure World where
  /-- The environment variables. -/
  lookup? : String → Option String
  /-- The texts of files. -/
  file? : String → Option String

/-- How a run fails: its exit status and the error text. -/
structure Ending where
  status : Nat
  text : String

/-- What a run comes to. -/
structure Outcome where
  stdout : String
  /-- A file to be written after printing: its path and text. -/
  write? : Option (String × String)
  failure? : Option Ending

/-- A run that only prints. -/
def Outcome.printed (stdout : String) : Outcome := ⟨stdout, none, none⟩

/-- What is said after a fault.  A variable tells how much of the calls that led to it is shown:
nothing, a part, or everything, which leaves nothing to be said. -/
def faultNote? (environment : String → Option String) : Option String :=
  match environment "RUST_BACKTRACE" with
  | none | some "0" =>
    some "note: run with `RUST_BACKTRACE=1` environment variable to display a backtrace"
  | some "full" => none
  | some _ =>
    some <| "note: Some details are omitted, run with `RUST_BACKTRACE=full` for a verbose " ++
      "backtrace."

/-- How a run fails with a refusal. -/
def Ending.ofRefusal (e : FitError) : Ending := ⟨e.exitCode, e.message⟩

/-- How a run fails in an environment. -/
def Ending.of (environment : String → Option String) : Failure → Ending
  | .refused e => .ofRefusal e
  | .faulted f =>
    ⟨101, "\n".intercalate (f.message?.toList ++ (faultNote? environment).toList)⟩

/-- The number of points of an exported curve. -/
def exportGridPoints : Nat := 201

/-- The dataset that the options describe. -/
def SampleArgs.spec (a : SampleArgs) : SampleSpec :=
  { points := a.points, xMin := a.xMin, xMax := a.xMax, noiseSigma := a.noise, seed := a.seed }

/-- The true parameters: those given, or the demonstration ones; their number has to fit the
model. -/
def SampleArgs.truthBits (a : SampleArgs) : Except FitError (List Bits) :=
  let truth := a.truth.getD (a.model.demoTruth.map .computed)
  if truth.length = a.model.parameterCount then .ok truth
  else .error (.parameterCount a.model.parameterCount truth.length)

/-- The environment with its variable file. -/
def World.extended (w : World) : DotEnv.Extended := DotEnv.extend w.lookup? (w.file? ".env")

/-- The settings of a run, from the file, the environment with its variable file, and the flags.
The settings file is read before the variable file. -/
def World.settings (w : World) (flags : SettingsFlags) : Except Failure FitSettings :=
  match w.extended with
  | ⟨lookup, none⟩ => orRefused (FitSettings.load w.file? lookup flags)
  | ⟨_, some fault⟩ => do
    let _ ← orRefused (FitSettings.base w.file? flags)
    throw (.faulted fault)

/-- Fits one synthetic dataset. -/
def runFit (w : World) (args : FitArgs) : Except Failure Outcome := do
  let settings ← w.settings args.solver
  let settings := { settings with collectTrace := args.trace }
  let kind := args.sample.model
  let truthBits ← orRefused args.sample.truthBits
  let truth := truthBits.map (·.value)
  let source ← orRefused (kind.model truth)
  let data ← generate source truth args.sample.spec
  let model ← orRefused <| match args.sample.initial with
    | some values => kind.model values
    | none => kind.guess data.x (kind.observe truthBits data.x data.y)
  let initial := model.initialValues
  let backend ← orRefused (resolveBackend args.backend data.x.length settings)
  let report ← fitWithBackend backend model data.x data.y initial settings
  let summary := Summary.ofFit kind.displayName model backend report (some truth) ++ "\n"
  let stdout := summary ++ (report.trace.map Summary.ofTrace).getD ""
  match args.export? with
  | none => pure (.printed stdout)
  | some path =>
    let file ← orFaulted <|
      ReportFile.new kind model backend report data.stats.xMin data.stats.xMax exportGridPoints
    pure ⟨stdout, some (path, file.toText), none⟩

/-- Fits a family of synthetic series. -/
def runBatch (w : World) (args : BatchArgs) : Except Failure Outcome := do
  let settings ← w.settings args.solver
  let kind := args.sample.model
  let truthBits ← orRefused args.sample.truthBits
  let truth := truthBits.map (·.value)
  let source ← orRefused (kind.model truth)
  let family ← generateFamily source truth args.sample.spec args.series args.spread
  let model ← orRefused <| match args.sample.initial, family.series, family.truths with
    | some values, _, _ => kind.model values
    | none, y :: _, scaled :: _ =>
      kind.guess family.x (kind.observe (List.zipWith .handOn truthBits scaled) family.x y)
    | none, _, _ => .ok source
  let (backend, reports) ← fitBatch model family.x family.series model.initialValues settings
  pure (.printed (Summary.ofBatch backend reports family.truths ++ "\n"))

/-- Shows the support gate's answers for a dataset. -/
def runSupport (w : World) (points : Nat) (flags : SettingsFlags) : Except Failure Outcome := do
  let settings ← w.settings flags
  let gate := acceleratedCapacities.map fun capacity =>
    (capacity, VectorUnit.supports ⟨.avx2, capacity⟩ points settings)
  let chosen := selectBackend points settings
  pure (.printed (Summary.ofSupport simdLevel points settings gate chosen ++ "\n"))

/-- Measures the table-driven exponential. -/
def runExpCheck (low high : Float) (samples : Nat) : Except Failure Outcome := do
  if !(low.isFinite && high.isFinite && decide (low < high)) then
    throw (.refused (.invalidSettings (.checkRange low high)))
  if samples < 2 then throw (.refused (.invalidSettings .tooFewSamples))
  let worst := Text.scientific 3 (Exponential.maxRelativeError low high samples)
  pure <| .printed <|
    s!"fast exp: max relative error {worst} over [{plainText low}, {plainText high}] " ++
      s!"({samples} samples)\n"

/-- Refuses a log filter that is none.  A filter in the environment comes first, unless it is
refused. -/
def World.checkLogFilter (w : World) (level : String) : Except Failure Unit :=
  match (w.lookup? "RUST_LOG").map checkFilter with
  | some (.ok ()) => .ok ()
  | some (.error (.faulted fault)) => .error (.faulted fault)
  | _ => checkFilter level

/-- Runs a command. -/
def Command.run (w : World) : Command → Except Failure Outcome
  | .fit args => runFit w args
  | .batch args => runBatch w args
  | .support points flags => runSupport w points flags
  | .expCheck low high samples => runExpCheck low high samples

/-- Runs a command line.  The variable file is read after the log filter. -/
def Invocation.run (w : World) (i : Invocation) : Outcome :=
  match w.checkLogFilter i.logLevel with
  | .error failure => ⟨"", none, some (.of w.lookup? failure)⟩
  | .ok () =>
    match i.command.run w with
    | .error failure => ⟨"", none, some (.of w.extended.lookup? failure)⟩
    | .ok outcome => outcome

/-- What is printed when the version is asked for. -/
def versionText : String := "lmfit 0.1.0\n"

end CurveFit.Cli
