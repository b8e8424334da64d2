import Matchmaking.Precision
import Matchmaking.Settings.Basic
import Matchmaking.TwoWay

/-!
# A round of matching

What one pass sees and what it has decided so far. It sees the committed cards and a snapshot of the
roster, which do not change while it lasts. It decides which tickets and sessions are used up, and
notes which tickets have come to their last interval. Nobody is put into two groups: a ticket is
available as long as neither it nor any of its sessions is used up. A search can break down, and the
pass with it.
-/

namespace Matchmaking

/-- Why a pass forms no groups. -/
inductive Setback
  /-- The selector cannot choose. -/
  | refused (message : String)
  /-- The selector or a search breaks down. -/
  | crashed (message : String)
  deriving DecidableEq, Repr

/-- The state of a pass (`PassContext`). -/
structure Round where
  /-- The committed cards. -/
  shelf : Shelf
  /-- The waiting tickets. -/
  tickets : Snapshot
  /-- The settings. -/
  config : Config
  /-- Whether the tickets of a group have to suit one another. -/
  precision : Precision
  /-- How often that was asked. -/
  asked : Nat
  /-- In how many passes each ticket has been an outer ticket. -/
  intervals : Table Nat
  /-- What was found for pairs. -/
  twoWay : TwoWay
  /-- The tickets that are used up. -/
  consumed : Names
  /-- The sessions that are used up. -/
  consumedSessions : Names
  /-- The tickets that have come to their last interval, in the order in which they were noted. -/
  promotions : List String
  /-- Names a group by its number. -/
  token : Nat → String
  /-- The number of the next group. -/
  serial : Nat
  /-- The words with which it broke down, if it did; whatever it does afterwards is lost. -/
  breakdown : Option String

namespace Round

/-- The beginning of a pass (`PassContext::new`). -/
def start (shelf : Shelf) (tickets : Snapshot) (config : Config) (precision : Precision)
    (intervals : Table Nat) (token : Nat → String) (serial : Nat) : Round where
  shelf := shelf
  tickets := tickets
  config := config
  precision := precision
  asked := 0
  intervals := intervals
  twoWay := .empty
  consumed := .empty
  consumedSessions := .empty
  promotions := []
  token := token
  serial := serial
  breakdown := none

/-- Breaks down, unless that has happened before. -/
def breakDown (r : Round) (message : String) : Round :=
  { r with breakdown := r.breakdown.or (some message) }

/-- In how many passes a ticket has been an outer ticket. -/
def interval (r : Round) (id : String) : Nat := (r.intervals.get? id).getD 0

/-- Whether a ticket is on its last interval: it is active, it has been an outer ticket often
enough, or it accepts one size only. -/
def isLast (r : Round) (outer : Pooled) (active : Bool) : Bool :=
  active || r.config.maxIntervals ≤ r.interval outer.id ||
    outer.ticket.minCount == outer.ticket.maxCount

/-- Counts one more interval of a ticket. -/
def countInterval (r : Round) (outer : Pooled) : Round :=
  { r with intervals := r.intervals.insert outer.id (r.interval outer.id + 1) }

/-- Begins an interval of an outer ticket (`begin_interval`); says whether it is the last one. A
ticket that comes to its last interval and is not active is noted. -/
def beginInterval (r : Round) (outer : Pooled) (active : Bool) : Bool × Round :=
  let r := r.countInterval outer
  let last := r.isLast outer active
  (last, if last && !active then { r with promotions := r.promotions ++ [outer.id] } else r)

/-- Whether a ticket can still be put into a group (`is_available`). -/
def isAvailable (r : Round) (p : Pooled) : Bool :=
  !r.consumed.contains p.id && p.ticket.sessions.all fun s => !r.consumedSessions.contains s

/-- Whether two tickets may be together as far as their queries are concerned
(`mutually_compatible`). -/
def compatible (r : Round) (a b : Pooled) : Bool × Round :=
  let insists := r.precision.isOpen r.asked
  let r := { r with asked := r.asked + 1 }
  if insists then
    let (answer, memory) := r.twoWay.check r.shelf a b
    (answer, { r with twoWay := memory })
  else (true, r)

/-- Whether a ticket may be together with all of some others; the first one that it may not be with
ends the questions. -/
def compatibleWithAll (p : Pooled) : List Pooled → Round → Bool × Round
  | [], r => (true, r)
  | m :: rest, r =>
    match r.compatible m p with
    | (true, r) => compatibleWithAll p rest r
    | (false, r) => (false, r)

/-- Those of some candidates that are available and suit the outer ticket. -/
def keepSuitable (outer : Pooled) : List Pooled → Round → List Pooled × Round
  | [], r => ([], r)
  | c :: rest, r =>
    if r.isAvailable c then
      match r.compatible outer c with
      | (true, r) =>
        let (kept, r) := keepSuitable outer rest r
        (c :: kept, r)
      | (false, r) => keepSuitable outer rest r
    else keepSuitable outer rest r

/-- The tickets that a search finds for an outer ticket, best first; none if the search fails or
breaks down. -/
def found (r : Round) (outer : Pooled) (limit : Nat) : List Pooled :=
  match r.shelf.search (Inquiry.ofTicket outer.ticket outer.query limit) with
  | .ok hits => hits.filterMap fun h => r.tickets.tickets.get? h.ticketId
  | .error _ => []

/-- The candidates of an outer ticket (`PassContext::candidates`), best first. If the search breaks
down so does the pass. -/
def candidates (r : Round) (outer : Pooled) (limit : Nat) : List Pooled × Round :=
  match r.shelf.search (Inquiry.ofTicket outer.ticket outer.query limit) with
  | .error .broken => ([], r.breakDown noHitsNotice)
  | _ => keepSuitable outer (r.found outer limit) r

/-- Uses up a ticket and its sessions. -/
def consume (r : Round) (p : Pooled) : Round :=
  { r with
    consumed := r.consumed.add p.id
    consumedSessions := p.ticket.sessions.foldl Names.add r.consumedSessions }

/-- Forms the group of some tickets and uses them up (`commit_group`). -/
def form (r : Round) (members : List Pooled) : Group × Round :=
  let r := members.foldl consume r
  (Group.ofTickets (r.token r.serial) (members.map Pooled.ticket),
    { r with serial := r.serial + 1 })

/-- The tickets in the order in which the pass processes them. -/
def order (r : Round) : List (Pooled × Bool) := r.tickets.processingOrder

end Round

end Matchmaking
