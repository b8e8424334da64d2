/-!
# What can go wrong

The causes for which an operation is refused, and their wording. Each cause carries the detail
that its message names.
-/

namespace Matchmaking

/-- Why settings are refused (`SettingsError`). -/
inductive SettingsFault
  /-- The settings cannot be read. -/
  | unreadable (detail : String)
  /-- The settings can be read but break a rule. -/
  | invalid (detail : String)
  deriving DecidableEq, Repr, Inhabited

/-- The wording of a cause. -/
def SettingsFault.message : SettingsFault → String
  | .unreadable d => "Configuration error: " ++ d
  | .invalid d => "Invalid setting: " ++ d

/-- Why the index refuses an operation (`IndexError`). -/
inductive IndexFault
  /-- The search engine refuses it. -/
  | engine (detail : String)
  /-- A text is no query. -/
  | badQuery (detail : String)
  /-- A schema lacks a field. -/
  | schemaMismatch (detail : String)
  /-- Somebody else writes to the index. -/
  | locked (detail : String)
  /-- The search engine breaks down, and whoever asked with it. -/
  | broken
  deriving DecidableEq, Repr, Inhabited

/-- The wording of a cause. The first word of an engine's refusal is the engine's name. -/
def IndexFault.message : IndexFault → String
  | .engine d => "Tantivy error: " ++ d
  | .badQuery d => "Query parse error: " ++ d
  | .schemaMismatch d => "Schema mismatch: " ++ d
  | .locked d => "Index is locked: " ++ d
  | .broken => "broken"

/-- The wording of a cause, followed by the wordings of what lies behind it. -/
def IndexFault.chain (f : IndexFault) : List String :=
  match f with
  | .engine d | .badQuery d => [f.message, d]
  | f => [f.message]

/-- Why the matchmaker refuses an operation (`MatchmakerError`). -/
inductive ServiceFault
  /-- A query cannot be used. -/
  | badQuery (detail : String)
  /-- The bounds of a request contradict each other. -/
  | badCount (detail : String)
  /-- A request is malformed. -/
  | badRequest (detail : String)
  /-- There is no such ticket. -/
  | ticketNotFound (detail : String)
  /-- A session or a party has too many tickets. -/
  | tooManyTickets (detail : String)
  /-- The settings are refused. -/
  | settings (fault : SettingsFault)
  /-- The index refuses. -/
  | index (fault : IndexFault)
  /-- The selector of groups reported a failure. -/
  | selector (detail : String)
  /-- An earlier pass crashed and left the state unusable. -/
  | poisoned (detail : String)
  deriving DecidableEq, Repr, Inhabited

/-- The wording of a cause. -/
def ServiceFault.message : ServiceFault → String
  | .badQuery d => "Invalid query: " ++ d
  | .badCount d => "Invalid count: " ++ d
  | .badRequest d => "Invalid request: " ++ d
  | .ticketNotFound d => "Ticket not found: " ++ d
  | .tooManyTickets d => "Too many tickets: " ++ d
  | .settings f => "Configuration error: " ++ f.message
  | .index f => "Index error: " ++ f.message
  | .selector d => "Matchmaker override failed: " ++ d
  | .poisoned d => "Lock poisoned: " ++ d

/-- The wording of a cause, followed by the wordings of what lies behind it. -/
def ServiceFault.chain (f : ServiceFault) : List String :=
  match f with
  | .settings g => [f.message, g.message]
  | .index g => f.message :: g.chain
  | f => [f.message]

/-- Why the timetable of passes refuses an operation (`SchedulerError`). -/
inductive ScheduleFault
  /-- The timer refuses. -/
  | timer (detail : String)
  /-- The time between two passes is unusable. -/
  | badInterval (detail : String)
  /-- It has been started already. -/
  | alreadyRunning
  /-- It has not been started. -/
  | notRunning
  /-- It has been stopped for good. -/
  | stopped
  /-- Another pass is under way. -/
  | passInProgress
  /-- The pass reported a failure. -/
  | pass (fault : ServiceFault)
  /-- The pass crashed. -/
  | task (detail : String)
  deriving DecidableEq, Repr, Inhabited

/-- The wording of a cause. -/
def ScheduleFault.message : ScheduleFault → String
  | .timer d => "Scheduler error: " ++ d
  | .badInterval d => "Invalid interval: " ++ d
  | .alreadyRunning => "Scheduler is already running"
  | .notRunning => "Scheduler is not running"
  | .stopped => "Scheduler is stopped"
  | .passInProgress => "A pass is already in progress"
  | .pass f => "Pass failed: " ++ f.message
  | .task d => "Pass task failed: " ++ d

/-- The wording of a cause, followed by the wordings of what lies behind it. -/
def ScheduleFault.chain (f : ScheduleFault) : List String :=
  match f with
  | .pass g => f.message :: g.chain
  | f => [f.message]

end Matchmaking
