import Matchmaking.Json.Decode

/-!
# The ledger of passes

What is remembered about the passes that were attempted: when the last one ended, how it ended,
and totals over all of them. An attempt that finds another pass under way is counted as skipped
and leaves the rest alone.
-/

namespace Matchmaking

open Json

/-- How an attempt ended (`PassResult`). -/
inductive Outcome
  /-- The pass was completed. -/
  | success
  /-- The pass failed. -/
  | failed (message : String)
  /-- No pass was made. -/
  | skipped (reason : String)
  deriving DecidableEq, Repr

namespace Outcome

/-- The JSON form. -/
def form : Outcome → Json
  | .success => .text "Success"
  | .failed m => .record [("Failed", .text m)]
  | .skipped r => .record [("Skipped", .text r)]

/-- Reads an outcome. -/
def decode : Decoder Outcome :=
  oneOf [⟨"Success", .inl .success⟩,
    ⟨"Failed", .inr fun o j => (string o j).map .failed⟩,
    ⟨"Skipped", .inr fun o j => (string o j).map .skipped⟩]

end Outcome

/-- What started a pass (`PassTrigger`). -/
inductive Trigger
  /-- The clock. -/
  | scheduled
  /-- A caller. -/
  | manual
  deriving DecidableEq, Repr

namespace Trigger

/-- The word for a trigger in the log. -/
def word : Trigger → String
  | .scheduled => "scheduled"
  | .manual => "manual"

/-- The JSON form. -/
def form : Trigger → Json
  | .scheduled => .text "Scheduled"
  | .manual => .text "Manual"

/-- Reads a trigger. -/
def decode : Decoder Trigger := oneOf [⟨"Scheduled", .inl .scheduled⟩, ⟨"Manual", .inl .manual⟩]

end Trigger

/-- What is remembered about the passes (`PassRegistry`). -/
structure Ledger where
  /-- When the last pass ended. -/
  lastRun : Option Instant := none
  /-- How many milliseconds it took. -/
  lastDurationMs : Option Nat := none
  /-- How the last attempt ended. -/
  lastResult : Option Outcome := none
  /-- The number of passes that came to an end. -/
  runCount : Nat := 0
  /-- The number of passes that failed. -/
  errorCount : Nat := 0
  /-- The number of attempts that found another pass under way. -/
  skipCount : Nat := 0
  /-- The number of groups formed. -/
  matchedGroups : Nat := 0
  /-- The number of tickets in these groups. -/
  matchedTickets : Nat := 0
  /-- Whether a pass is under way. -/
  isRunning : Bool := false
  deriving DecidableEq, Repr, Inhabited

namespace Ledger

/-- A pass begins (`record_start`). -/
def start (l : Ledger) : Ledger := { l with isRunning := true }

/-- A pass ends (`record_complete`). Only a success adds to the groups and tickets. -/
def complete (l : Ledger) (now : Instant) (result : Outcome) (durationMs groups tickets : Nat) :
    Ledger :=
  let l := { l with
    isRunning := false
    lastRun := some now
    lastDurationMs := some durationMs
    lastResult := some result
    runCount := l.runCount + 1 }
  match result with
  | .success => { l with
    matchedGroups := l.matchedGroups + groups
    matchedTickets := l.matchedTickets + tickets }
  | .failed _ => { l with errorCount := l.errorCount + 1 }
  | .skipped _ => l

/-- An attempt found another pass under way (`record_skipped`). -/
def skip (l : Ledger) (reason : String) : Ledger :=
  { l with skipCount := l.skipCount + 1, lastResult := some (.skipped reason) }

/-- Whether every total has at most 64 bits. -/
def fits (l : Ledger) : Bool :=
  l.runCount < Nat.pow 2 64 && l.errorCount < Nat.pow 2 64 && l.skipCount < Nat.pow 2 64 &&
    l.matchedGroups < Nat.pow 2 64 && l.matchedTickets < Nat.pow 2 64

/-- The JSON form. -/
def form (l : Ledger) : Json :=
  .record [("last_run", option (fun t => .text (Calendar.write t)) l.lastRun),
    ("last_duration_ms", option nat l.lastDurationMs),
    ("last_result", option Outcome.form l.lastResult), ("run_count", nat l.runCount),
    ("error_count", nat l.errorCount), ("skip_count", nat l.skipCount),
    ("matched_groups", nat l.matchedGroups), ("matched_tickets", nat l.matchedTickets),
    ("is_running", .bool l.isRunning)]

/-- Reads a ledger; what is optional may be left out. -/
def decode : Decoder Ledger := fun o j => do
  let got ← fields "PassStatus" [.omissible "last_run" (optional date),
    .omissible "last_duration_ms" (optional word),
    .omissible "last_result" (optional Outcome.decode), .needed "run_count" word,
    .needed "error_count" word, .needed "skip_count" word, .needed "matched_groups" word,
    .needed "matched_tickets" word, .needed "is_running" boolean] o j
  pure {
    lastRun := ← get got o "last_run" (optional date) none
    lastDurationMs := ← get got o "last_duration_ms" (optional word) none
    lastResult := ← get got o "last_result" (optional Outcome.decode) none
    runCount := ← need got o "run_count" word
    errorCount := ← need got o "error_count" word
    skipCount := ← need got o "skip_count" word
    matchedGroups := ← need got o "matched_groups" word
    matchedTickets := ← need got o "matched_tickets" word
    isRunning := ← need got o "is_running" boolean }

end Ledger

/-- Where the timetable of passes is in its life (`SchedulerState`). -/
inductive Phase
  /-- It has not been started. -/
  | idle
  /-- It has been started. -/
  | running
  /-- It has been stopped for good. -/
  | stopped
  deriving DecidableEq, Repr, Inhabited

namespace Phase

/-- The JSON form. -/
def form : Phase → Json
  | .idle => .text "Idle"
  | .running => .text "Running"
  | .stopped => .text "Stopped"

/-- Reads a phase. -/
def decode : Decoder Phase :=
  oneOf [⟨"Idle", .inl .idle⟩, ⟨"Running", .inl .running⟩, ⟨"Stopped", .inl .stopped⟩]

end Phase

end Matchmaking
