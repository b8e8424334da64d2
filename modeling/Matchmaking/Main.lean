import Matchmaking.CommandLine.Invocation
import Matchmaking.Label
import Matchmaking.Simulation.Basic

/-!
# The simulator

Reads the command line, the configuration files and the environment, runs a simulation with real
time between its passes, and prints what came of it.
-/

namespace Matchmaking.Simulator

/-- The text of a file, if it can be read. -/
def readFile? (path : String) : IO (Option String) := do
  try
    let text ← IO.FS.readFile path
    pure (some text)
  catch _ => pure none

/-- What stands behind the last point of a path. -/
def ending (path : String) : String := (path.splitOn ".").getLastD ""

/-- The first file that can be read at a path with one of some endings. -/
def firstFile? (path : String) : List String → IO (Option Layers.Source)
  | [] => pure none
  | format :: rest => do
    match ← readFile? (path ++ "." ++ format) with
    | some text => pure (some ⟨format, text⟩)
    | none => firstFile? path rest

/-- The file that the user names, with or without its ending. -/
def namedFile? (path : String) : IO (Option Layers.Source) := do
  match ← readFile? path with
  | some text => pure (some ⟨ending path, text⟩)
  | none => firstFile? path Layers.formats

/-- The directory of the user's configuration. -/
def configHome : IO String := do
  match ← IO.getEnv "XDG_CONFIG_HOME" with
  | some directory => pure directory
  | none => pure ((← IO.getEnv "HOME").getD "" ++ "/.config")

/-- The environment variables that are settings. -/
def settingNames : List String :=
  "MATCHMAKER_LOG_LEVEL" ::
    Layers.configNames.map fun name => "MATCHMAKER_MATCHMAKER__" ++ name.toUpper

/-- The values of some environment variables. -/
def environment : List String → IO (List (String × String))
  | [] => pure []
  | name :: rest => do
    let value ← IO.getEnv name
    let others ← environment rest
    pure (value.toList.map (fun v => (name, v)) ++ others)

/-- Everything that settings come from; of the files only those of two formats can be read. -/
def sources (config : Option String) : IO Settings.Sources := do
  let standing ← firstFile? ((← configHome) ++ "/matchmaker/config") Layers.formats
  let named ← match config with
    | none => pure none
    | some path => do pure (some (← namedFile? path))
  pure ⟨standing, named, Table.ofList (← environment settingNames), fun _ _ => none⟩

/-- Tickets and groups are labelled by their numbers. -/
def naming : Naming := ⟨Label.ofNat, Label.ofNat⟩

/-- The seed that was given, or one from the system. -/
def chooseSeed (seed : Option Nat) : IO UInt64 := do
  match seed with
  | some n => pure (UInt64.ofNat n)
  | none =>
    let bytes ← IO.getRandomBytes 8
    pure (bytes.toList.foldl (fun n b => n * 256 + b.toUInt64) 0)

/-- Lets passes run, each one after the interval. -/
def runPasses (intervalMs : Nat) : Nat → Simulation → IO Simulation
  | 0, s => pure s
  | n + 1, s => do
    IO.sleep (UInt32.ofNat (min intervalMs (2 ^ 32 - 1)))
    runPasses intervalMs n s.pass

/-- Runs a simulation (`start_simulation`). -/
def simulate (v : CommandLine.Invocation) : IO (Except SimulationFault Summary) := do
  let seed ← chooseSeed v.seed
  let plan : Plan := ⟨v.tickets, v.passes, v.custom, v.intervalMs, seed⟩
  match Simulation.settings (← sources v.config) v.logLevel with
  | .error f => pure (.error f)
  | .ok settings =>
    match (Simulation.prepare settings.matchmaker plan naming).bind Simulation.start with
    | .error f => pure (.error f)
    | .ok s =>
      let s ← runPasses s.timetable.timing.intervalMs plan.passes s
      pure (s.stop.map Simulation.summary)

/-- Answers a command line that is not carried out; the exit code says whether it was a mistake. -/
def refuse (r : CommandLine.Refusal) : IO UInt32 := do
  match r with
  | .help => do
    IO.print CommandLine.helpText
    pure 0
  | .version => do
    IO.print CommandLine.versionText
    pure 0
  | .nothing => do
    IO.eprint CommandLine.helpText
    pure 2
  | r => do
    IO.eprintln r.message
    pure 2

end Matchmaking.Simulator

/-- The simulator. -/
def main (args : List String) : IO UInt32 := do
  match Matchmaking.CommandLine.Invocation.read args with
  | .error r => Matchmaking.Simulator.refuse r
  | .ok v =>
    match ← Matchmaking.Simulator.simulate v with
    | .ok summary => do
      IO.println summary.text
      pure 0
    | .error f => do
      IO.eprint f.report
      pure 1
