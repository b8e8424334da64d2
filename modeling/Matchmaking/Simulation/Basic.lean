import Matchmaking.Assembly.LargestFirst
import Matchmaking.Json.Writer
import Matchmaking.Schedule.Attempt
import Matchmaking.Settings.Layers
import Matchmaking.Simulation.Population

/-!
# Simulations

A simulation creates a matchmaker and a timetable, submits synthetic requests, starts the
timetable, lets passes run, stops the timetable and sums up.
-/

namespace Matchmaking

/-- What a simulation is to do (`SimulationOptions`). -/
structure Plan where
  /-- The number of requests to submit. -/
  tickets : Nat
  /-- The number of passes to run. -/
  passes : Nat
  /-- Whether the largest groups are chosen first. -/
  custom : Bool
  /-- The milliseconds between two passes, if not those of the settings. -/
  intervalMs : Option Nat
  /-- The seed of the requests. -/
  seed : UInt64
  deriving DecidableEq, Repr

/-- What came of a simulation (`SimulationSummary`). -/
structure Summary where
  /-- The number of accepted requests. -/
  submitted : Nat
  /-- The number of refused requests. -/
  rejected : Nat
  /-- The number of passes. -/
  passes : Nat
  /-- The number of skipped passes. -/
  skipped : Nat
  /-- The number of groups. -/
  groups : Nat
  /-- The number of tickets in groups. -/
  matchedTickets : Nat
  /-- The number of tickets that still wait. -/
  remaining : Nat
  /-- The number of active tickets among them. -/
  active : Nat
  deriving DecidableEq, Repr

namespace Summary

/-- The fields by their names. -/
def fields (s : Summary) : List (String × Json) :=
  [("submitted", Json.nat s.submitted), ("rejected", Json.nat s.rejected),
    ("passes", Json.nat s.passes), ("skipped", Json.nat s.skipped), ("groups", Json.nat s.groups),
    ("matched_tickets", Json.nat s.matchedTickets), ("remaining", Json.nat s.remaining),
    ("active", Json.nat s.active)]

/-- The JSON form. -/
def form (s : Summary) : Json := .record s.fields

/-- The form for a reader, one field per line. -/
def text (s : Summary) : String := Json.writeLines s.fields

end Summary

/-- Why a simulation comes to nothing. -/
inductive SimulationFault
  /-- The settings cannot be loaded. -/
  | settings (f : SettingsFault)
  /-- There is no matchmaker for the settings. -/
  | matchmaker (f : ServiceFault)
  /-- There is no timetable for the settings. -/
  | timetable (f : ScheduleFault)
  /-- The timetable cannot be started. -/
  | start (f : ScheduleFault)
  /-- The timetable cannot be stopped. -/
  | stop (f : ScheduleFault)
  deriving DecidableEq, Repr

namespace SimulationFault

/-- The wording of a cause. -/
def message : SimulationFault → String
  | .settings _ => "Failed to load configuration"
  | .matchmaker _ => "Failed to create matchmaker"
  | .timetable _ => "Failed to create scheduler"
  | .start _ => "Failed to start scheduler"
  | .stop _ => "Failed to stop scheduler"

/-- The wordings of what lies behind a cause. -/
def causes : SimulationFault → List String
  | .settings f => [f.message]
  | .matchmaker f => f.chain
  | .timetable f => f.chain
  | .start f => f.chain
  | .stop f => f.chain

/-- The wording of a cause, followed by the wordings of what lies behind it. -/
def chain (f : SimulationFault) : List String := f.message :: f.causes

/-- What is shown to the user: the cause, and below it what lies behind it, numbered if there is
more than one thing. -/
def report (f : SimulationFault) : String :=
  let lines := match f.causes with
    | [only] => ["    " ++ only]
    | causes => causes.zipIdx.map fun c => "    " ++ toString c.2 ++ ": " ++ c.1
  "Error: " ++ f.message ++ "\n\nCaused by:\n" ++ "\n".intercalate lines ++ "\n"

end SimulationFault

/-- The state of a simulation. -/
structure Simulation where
  /-- The timetable with its matchmaker. -/
  timetable : Timetable
  /-- The number of accepted requests. -/
  submitted : Nat
  /-- The number of refused requests. -/
  rejected : Nat

namespace Simulation

/-- How a simulation forms groups. -/
def strategy (p : Plan) : Strategy := if p.custom then .selected LargestFirst.selector else .greedy

/-- When the passes of a simulation run. -/
def timing (c : Config) (p : Plan) : Timing :=
  let t := Timing.ofConfig c
  { t with intervalMs := p.intervalMs.getD t.intervalMs }

/-- Submits a request. -/
def submit (s : Simulation) (r : Request) : Simulation :=
  match s.timetable.perform (.submit none r) with
  | (.submitted _, t) => { s with timetable := t, submitted := s.submitted + 1 }
  | (_, t) => { s with timetable := t, rejected := s.rejected + 1 }

/-- A simulation whose requests have been submitted. -/
def prepare (c : Config) (p : Plan) (naming : Naming) : Except SimulationFault Simulation :=
  match Service.create c (strategy p) naming with
  | .error f => .error (.matchmaker f)
  | .ok service => match Timetable.create service (timing c p) 0 with
    | .error f => .error (.timetable f)
    | .ok t => .ok ((Population.requests p.seed 0 p.tickets).foldl submit ⟨t, 0, 0⟩)

/-- Starts the timetable. -/
def start (s : Simulation) : Except SimulationFault Simulation :=
  match s.timetable.start with
  | (some (.error f), _) => .error (.start f)
  | (_, t) => .ok { s with timetable := t }

/-- Lets a pass run. -/
def pass (s : Simulation) : Simulation := { s with timetable := s.timetable.tick.2 }

/-- Stops the timetable. -/
def stop (s : Simulation) : Except SimulationFault Simulation :=
  match s.timetable.shutdown with
  | (some (.error f), _) => .error (.stop f)
  | (_, t) => .ok { s with timetable := t }

/-- Sums up. -/
def summary (s : Simulation) : Summary :=
  let ledger := s.timetable.ledger
  let stats := s.timetable.service.stats
  ⟨s.submitted, s.rejected, ledger.runCount, ledger.skipCount, ledger.matchedGroups,
    ledger.matchedTickets, stats.tickets, stats.active⟩

/-- A whole simulation (`run_simulation`), whose passes follow on one another. -/
def run (c : Config) (p : Plan) (naming : Naming) : Except SimulationFault Summary := do
  let s ← prepare c p naming
  let s ← s.start
  let s ← (Nat.repeat pass p.passes s).stop
  pure s.summary

/-- The settings of a simulation: those of all sources, and a log level that wins over them. -/
def settings (sources : Settings.Sources) (logLevel : Option String) :
    Except SimulationFault Settings :=
  match Settings.load sources with
  | .error f => .error (.settings f)
  | .ok s => .ok { s with logLevel := logLevel.getD s.logLevel }

end Simulation

end Matchmaking
