import Matchmaking.Assembly.Exhaustive
import Matchmaking.Assembly.Greedy

/-!
# The matchmaker

The matchmaker takes in tickets, keeps them in its roster and its catalog, and forms groups in
passes. Its clock moves on with every submission, so that a later ticket is always younger than an
earlier one of the same millisecond.
-/

namespace Matchmaking

/-! ## The clock -/

/-- What the clock shows. -/
structure Clock where
  /-- The millisecond. -/
  millis : Int
  /-- The number of times that it was set. -/
  ticks : Nat
  deriving DecidableEq, Repr, Inhabited

namespace Clock

/-- The clock before the first submission. -/
def initial : Clock := ⟨1700000000000, 0⟩

/-- Sets the clock to a millisecond, or to the next one. -/
def advance (c : Clock) (at? : Option Int) : Clock := ⟨at?.getD (c.millis + 1), c.ticks + 1⟩

/-- The moment that the clock shows; each setting lies a nanosecond later in its millisecond. -/
def now (c : Clock) : Instant := ⟨c.millis * Instant.perMilli + c.ticks⟩

end Clock

/-! ## The state -/

/-- How groups are formed (`AssemblyStrategy`). -/
inductive Strategy
  /-- Greedily. -/
  | greedy
  /-- By a selector among all combinations. -/
  | selected (selector : Selector)

/-- Whether, and how long, the tickets of a group have to suit one another. -/
def Config.precision (c : Config) : Precision :=
  Precision.ofThreshold c.mutualMatch c.mutualMatchThresholdMs

/-- How tickets and groups are named, by the order in which they are made. -/
structure Naming where
  /-- The name of a ticket. -/
  ticket : Nat → String
  /-- The name of a group. -/
  group : Nat → String

/-- The state of the matchmaker (`Matchmaker`). -/
structure Service where
  /-- The settings. -/
  config : Config
  /-- How groups are formed. -/
  strategy : Strategy
  /-- How tickets and groups are named. -/
  naming : Naming
  /-- The clock. -/
  clock : Clock
  /-- The number of tickets that were accepted. -/
  issued : Nat
  /-- The number of groups that were formed. -/
  formed : Nat
  /-- The number of times that the selector was asked. -/
  asked : Nat
  /-- The cards of the waiting tickets. -/
  catalog : Catalog
  /-- The waiting tickets. -/
  roster : Roster
  /-- In how many passes each ticket has been an outer ticket. -/
  intervals : Table Nat
  /-- Whether a pass broke down. -/
  poisoned : Bool

namespace Service

/-- A matchmaker without tickets. -/
def empty (config : Config) (strategy : Strategy) (naming : Naming) : Service where
  config := config
  strategy := strategy
  naming := naming
  clock := .initial
  issued := 0
  formed := 0
  asked := 0
  catalog := .empty
  roster := .empty
  intervals := .empty
  poisoned := false

/-- A new matchmaker (`Matchmaker::build`). The settings have to be valid, there has to be memory
for the catalog, and the query for requests without one has to be a query. -/
def create (config : Config) (strategy : Strategy) (naming : Naming) :
    Except ServiceFault Service :=
  match config.validate with
  | .error f => .error (.settings f)
  | .ok () => match Catalog.create config.writerMemoryMb with
    | .error f => .error (.index f)
    | .ok catalog => match ParsedQuery.read config.defaultQuery with
      | .error .broken => .error (.index .broken)
      | .error f => .error (.badQuery ("default query: " ++ f.message))
      | .ok _ => .ok { empty config strategy naming with catalog := catalog }

/-- The numbers of tickets (`MatchmakerStats`): all, those that are not active, and those that are.
-/
structure Stats where
  /-- All waiting tickets. -/
  tickets : Nat
  /-- Those that are not active. -/
  pool : Nat
  /-- Those that are active. -/
  active : Nat
  deriving DecidableEq, Repr, Inhabited

/-- The numbers of tickets. -/
def stats (s : Service) : Stats := ⟨s.roster.size, s.roster.poolSize, s.roster.activeSize⟩

/-- The waiting ticket of a name. -/
def ticket? (s : Service) (id : String) : Option Ticket := (s.roster.get? id).map Pooled.ticket

/-- Whether a ticket is active. -/
def isActive (s : Service) (id : String) : Bool := s.roster.isActive id

end Service

end Matchmaking
