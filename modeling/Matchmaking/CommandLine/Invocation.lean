import Matchmaking.CommandLine.Scan

/-!
# The command line of the simulator

There is one command, `run`. The configuration file and the log level can be given before it or
behind it; behind it they win.
-/

namespace Matchmaking.CommandLine

/-- What the simulator is asked to do (`Cli`). -/
structure Invocation where
  /-- The configuration file. -/
  config : Option String
  /-- The log level. -/
  logLevel : Option String
  /-- The number of tickets to submit. -/
  tickets : Nat
  /-- The number of passes to wait for. -/
  passes : Nat
  /-- Whether groups are chosen by a selector. -/
  custom : Bool
  /-- The milliseconds between two passes. -/
  intervalMs : Option Nat
  /-- The seed of the tickets. -/
  seed : Option Nat
  deriving DecidableEq, Repr

namespace Invocation

/-- The options of all levels. -/
def everywhere : List Opt :=
  [⟨"config", some 'c', .text⟩, ⟨"log-level", some 'l', .text⟩, ⟨"help", some 'h', .help⟩]

/-- The commands. -/
def commands : List String := ["run", "help"]

/-- What stands before the command. -/
def topLevel : Level := ⟨⟨"version", some 'V', .version⟩ :: everywhere, commands⟩

/-- What stands behind the command. -/
def runLevel : Level where
  options := [⟨"tickets", some 't', .number⟩, ⟨"passes", some 'p', .number⟩,
    ⟨"custom", none, .flag⟩, ⟨"interval-ms", none, .number⟩, ⟨"seed", none, .number⟩] ++ everywhere
  commands := []

/-- What is behind the command that shows help: nothing, or one command. -/
def helpFor : List String → Refusal
  | [] => .help
  | [name] => if commands.contains name then .help else .unknownCommand name
  | name :: other :: _ => .unknownCommand (if commands.contains name then other else name)

/-- Reads a command line. Faults behind the command are found first. -/
def read (args : List String) : Except Refusal Invocation := do
  let (top, command) ← topLevel.scan .start args
  match command with
  | none =>
    let top ← top.settle
    throw (if top.found.size = 0 then .nothing else .missingCommand)
  | some (name, rest) =>
    if name = "help" then throw (helpFor rest)
    let (run, _) ← runLevel.scan .start rest
    let run ← run.settle
    let top ← top.settle
    pure {
      config := (run.value? "config").or (top.value? "config")
      logLevel := (run.value? "log-level").or (top.value? "log-level")
      tickets := (run.number? "tickets").getD 40
      passes := (run.number? "passes").getD 3
      custom := (run.value? "custom").isSome
      intervalMs := run.number? "interval-ms"
      seed := run.number? "seed" }

end Invocation

/-- What the simulator says when it is asked for help. -/
def helpText : String :=
  "Ticket matchmaker simulator\n\nUsage: matchmaker-sim [OPTIONS] run [OPTIONS]\n\nOptions:\n" ++
  "  -c, --config <CONFIG>            Path to configuration file\n" ++
  "  -l, --log-level <LOG_LEVEL>      Log level (trace, debug, info, warn, error)\n" ++
  "  -t, --tickets <TICKETS>          Number of tickets to submit [default: 40]\n" ++
  "  -p, --passes <PASSES>            Passes to run before stopping [default: 3]\n" ++
  "      --custom                     Use the custom strategy with a largest-group-first " ++
  "selector\n" ++
  "      --interval-ms <INTERVAL_MS>  Pass interval in milliseconds (overrides config)\n" ++
  "      --seed <SEED>                Seed for ticket generation\n" ++
  "  -h, --help                       Print help\n" ++
  "  -V, --version                    Print version\n"

/-- What the simulator says when it is asked for its version. -/
def versionText : String := "matchmaker-sim 0.3.0\n"

end Matchmaking.CommandLine
