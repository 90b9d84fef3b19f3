import CurveFit.Cli.Run

/-!
# The command line program

Reads the files that a command line names, runs it, prints, and writes the export.
-/

open CurveFit CurveFit.Cli

/-- The text of a file, if it can be read. -/
def readText? (path : String) : IO (Option String) := do
  try
    pure (some (← IO.FS.readFile path))
  catch _ => pure none

/-- The path of the settings file of a command. -/
def configPath? : Command → Option String
  | .fit args => args.solver.config
  | .batch args => args.solver.config
  | .support _ flags => flags.config
  | .expCheck _ _ _ => none

/-- The variables that a run with the given variable file may look up in the environment. -/
def neededVariables (dotEnv : Option String) : List String :=
  "RUST_LOG" :: "RUST_BACKTRACE" :: FitSettings.environmentVariables.map (·.name) ++
    (dotEnv.map fun text => DotEnv.bound text ++ DotEnv.mentioned text.toList).getD []

/-- Writes a file; false if that fails. -/
def writeText (path text : String) : IO Bool := do
  try
    IO.FS.writeFile path text
    pure true
  catch _ => pure false

/-- Tells how a run fails and returns the exit status. -/
def tellFailure (ending : Ending) : IO UInt32 := do
  IO.eprintln ending.text
  pure ending.status.toUInt32

/-- Runs one command line and returns the exit status. -/
def main (args : List String) : IO UInt32 := do
  match parseArguments args with
  | .error .help => pure 0
  | .error .version =>
    IO.print versionText
    pure 0
  | .error .usage =>
    IO.eprintln "usage: lmfit [fit|batch|support|exp-check] [options]"
    pure 2
  | .ok invocation =>
    let dotEnv ← readText? ".env"
    let path? := configPath? invocation.command
    let config ← match path? with
      | some path => readText? path
      | none => pure none
    let values ← (neededVariables dotEnv).mapM fun name => do
      pure (name, ← IO.getEnv name)
    let world : World :=
      { lookup? := fun name => (values.lookup name).join
        file? := fun name =>
          if name = ".env" then dotEnv else if path? = some name then config else none }
    let outcome := invocation.run world
    IO.print outcome.stdout
    match outcome.failure?, outcome.write? with
    | some ending, _ => tellFailure ending
    | none, some (path, text) =>
      if ← writeText path text then pure 0
      else tellFailure (.ofRefusal (.io s!"cannot write {path}"))
    | none, none => pure 0
