import CurveFit.Settings.File
import CurveFit.Text.Blank
import CurveFit.Text.Numeral

/-!
# Layers of settings

Settings come from four layers: the defaults, a file, the environment, and command-line flags.  Each
layer replaces what it names and leaves the rest, and the result is validated after the environment
and after the flags.
-/

namespace CurveFit

/-- The settings that flags give; what is absent leaves the setting alone. -/
structure SettingsFlags where
  /-- The settings file. -/
  config : Option String
  maxIterations : Option Nat
  minDeltaChi2 : Option Float
  initialLambda : Option Float
  truncateRatio : Option Float
  /-- Switches accelerated vectors off. -/
  noSimd : Bool
deriving DecidableEq

/-- No flags. -/
def SettingsFlags.none : SettingsFlags := ⟨.none, .none, .none, .none, .none, false⟩

namespace FitSettings

/-- The settings with the given flags applied. -/
def withFlags (s : FitSettings) (f : SettingsFlags) : FitSettings :=
  { s with
    maxIterations := f.maxIterations.getD s.maxIterations
    minDeltaChi2 := f.minDeltaChi2.getD s.minDeltaChi2
    initialLambda := f.initialLambda.getD s.initialLambda
    truncateRatio := f.truncateRatio.getD s.truncateRatio
    simdEnabled := if f.noSimd then false else s.simdEnabled }

/-- What a variable's text means, blanks around it apart. -/
def readVariable {β : Type} (read? : List Char → Option β) (key raw : String) :
    Except SettingsIssue β :=
  match read? (Text.trim raw.toList) with
  | some v => .ok v
  | none => .error (.unreadable key raw)

/-- What a switch's text means, blanks and the case of letters apart. -/
def readSwitch (key raw : String) : Except SettingsIssue Bool :=
  let word := String.ofList ((Text.trim raw.toList).map Char.toLower)
  if ["1", "true", "on", "yes"].contains word then .ok true
  else if ["0", "false", "off", "no"].contains word then .ok false
  else .error (.notASwitch key raw)

/-- An environment variable: its name, and what its text does to the settings. -/
structure Variable where
  name : String
  apply : FitSettings → String → Except SettingsIssue FitSettings

/-- The environment variables in the order they are applied. -/
def environmentVariables : List Variable :=
  [{ name := "LMFIT_MAX_ITERATIONS"
     apply := fun s raw => do
      let v ← readVariable Text.readCount? "LMFIT_MAX_ITERATIONS" raw
      pure { s with maxIterations := v } },
   { name := "LMFIT_MIN_DELTA_CHI2"
     apply := fun s raw => do
      let v ← readVariable Text.readNumber? "LMFIT_MIN_DELTA_CHI2" raw
      pure { s with minDeltaChi2 := v } },
   { name := "LMFIT_INITIAL_LAMBDA"
     apply := fun s raw => do
      let v ← readVariable Text.readNumber? "LMFIT_INITIAL_LAMBDA" raw
      pure { s with initialLambda := v } },
   { name := "LMFIT_SIMD"
     apply := fun s raw => do
      let v ← readSwitch "LMFIT_SIMD" raw
      pure { s with simdEnabled := v } },
   { name := "LMFIT_TRUNCATE_RATIO"
     apply := fun s raw => do
      let v ← readVariable Text.readNumber? "LMFIT_TRUNCATE_RATIO" raw
      pure { s with truncateRatio := v } }]

/-- The settings after the variables that the environment has, and the refusal that stopped them, if
any; what was applied before a refusal stays. -/
def applyVariables (lookup : String → Option String) :
    List Variable → FitSettings → FitSettings × Option FitError
  | [], s => (s, s.issue?.map .invalidSettings)
  | v :: rest, s =>
    match lookup v.name with
    | none => applyVariables lookup rest s
    | some raw =>
      match v.apply s raw with
      | .ok s => applyVariables lookup rest s
      | .error issue => (s, some (.invalidSettings issue))

/-- The settings with the environment applied and validated. -/
def withEnvironment (s : FitSettings) (lookup : String → Option String) :
    Except FitError FitSettings :=
  match applyVariables lookup environmentVariables s with
  | (s, none) => .ok s
  | (_, some e) => .error e

/-- The lowest layers: the file that the flags name, else the defaults.  `file` gives the text of a
file, if it exists. -/
def base (file : String → Option String) (flags : SettingsFlags) : Except FitError FitSettings :=
  match flags.config with
  | some path => ofFile (file path)
  | none => .ok default

/-- All layers together. -/
def load (file lookup : String → Option String) (flags : SettingsFlags) :
    Except FitError FitSettings := do
  let s ← (← base file flags).withEnvironment lookup
  let s := s.withFlags flags
  s.validate
  pure s

end FitSettings

end CurveFit
