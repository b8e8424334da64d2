import Matchmaking.Catalog.Relevance
import Matchmaking.Query.Resolve

/-!
# Searching the catalog

A ticket looks for candidates: cards that its query matches, whose bounds leave a common size, and
that belong to other tickets, other parties and other sessions. The best ones by relevance are
found, among equally good ones those added first; they are listed by relevance, and equally
relevant ones by age.
-/

namespace Matchmaking

/-- What a ticket looks for (`CandidateQuery`). -/
structure Inquiry where
  /-- The ticket. -/
  ticketId : String
  /-- What the candidates have to match. -/
  query : Query
  /-- The least size of the group. -/
  minCount : Nat
  /-- The greatest size of the group. -/
  maxCount : Nat
  /-- The party of the ticket. -/
  party : Option String
  /-- The sessions of the ticket. -/
  sessions : List String
  /-- The number of candidates wanted. -/
  limit : Nat

namespace Inquiry

/-- What a ticket looks for with a query (`CandidateQuery::for_ticket`). -/
def ofTicket (t : Ticket) (q : Query) (limit : Nat) : Inquiry where
  ticketId := t.id
  query := q
  minCount := t.minCount
  maxCount := t.maxCount
  party := t.party
  sessions := t.sessions
  limit := limit

/-- Whether a card passes everything but the query. -/
def allows (i : Inquiry) (c : Card) : Bool :=
  i.minCount ≤ c.maxCount && c.minCount ≤ i.maxCount && c.ticketId != i.ticketId &&
    i.party.all (fun p => c.party != p) && i.sessions.all fun s => !c.sessions.contains s

end Inquiry

/-- A candidate that was found (`TicketHit`). -/
structure Hit where
  /-- The ticket. -/
  ticketId : String
  /-- How relevant it is: the order of scores is the order of these numbers. -/
  rank : Nat
  /-- The millisecond in which it was made. -/
  createdMillis : Int
  deriving DecidableEq, Repr

/-- What the engine says about a range of properties. -/
def propertyRangeNotice : String :=
  "An invalid argument was passed: 'RangeQuery on JSON is only supported for fast fields currently'"

/-- The words with which the engine breaks down if no hits are wanted. -/
def noHitsNotice : String := "Limit must be strictly greater than 0."

namespace Shelf

/-- The order key of a score, which is never below zero. -/
def rankOf (score : Float32) : Nat := score.toBits.toNat

/-- The score of a hit: that of the query, and one for each of the two bounds. -/
def hitScore (queryScore : Float32) : Float32 := queryScore + 1.0 + 1.0

/-- The hits of an inquiry in the order in which their cards were added. -/
def hits (s : Shelf) (i : Inquiry) : List Hit :=
  let weighed := Relevance.weighQuery s 1.0 i.query
  (s.cards.filter i.allows).filterMap fun c =>
    (Relevance.score c weighed).map fun x => ⟨c.ticketId, rankOf (hitScore x), c.createdMillis⟩

/-- More relevant, or as relevant and made no later. -/
def better (a b : Hit) : Bool :=
  b.rank < a.rank || (a.rank == b.rank && a.createdMillis ≤ b.createdMillis)

/-- The candidates of an inquiry (`TicketSnapshot::search`). The engine breaks down if none are
wanted. -/
def search (s : Shelf) (i : Inquiry) : Except IndexFault (List Hit) :=
  if i.limit = 0 then .error .broken
  else if i.query.runnable then
    let byRank := (s.hits i).mergeSort fun a b => b.rank ≤ a.rank
    .ok ((byRank.take i.limit).mergeSort better)
  else .error (.engine propertyRangeNotice)

/-- Whether the card of a ticket matches a query (`TicketSnapshot::matches`). -/
def probe (s : Shelf) (q : Query) (id : String) : Except IndexFault Bool :=
  if q.runnable then .ok (s.cards.any fun c => c.ticketId == id && q.matchesCard c)
  else .error (.engine propertyRangeNotice)

end Shelf

/-- Reads a text as a query; a text that is none is reported as the index reports it. -/
def ParsedQuery.read (text : String) : Except IndexFault ParsedQuery :=
  match ParsedQuery.parse text with
  | .ok q => .ok q
  | .error .bareAsterisk => .error .broken
  | .error f => .error (.badQuery f.message)

/-! ## Opening a catalog -/

/-- The least memory for writing, in bytes. -/
def leastWriterMemory : Nat := 15000000

/-- The memory for writing that one of the writers must not reach, in bytes. -/
def greatestWriterMemory : Nat := 4293967295

/-- The greatest number of writers. -/
def maxWriters : Nat := 8

/-- The memory of one writer, of those among which the whole is divided. -/
def memoryPerWriter (bytes : Nat) : Nat :=
  if leastWriterMemory ≤ bytes / maxWriters then bytes / maxWriters
  else bytes / max 1 (bytes / leastWriterMemory)

/-- The refusal of an amount of memory for each writer. -/
def memoryFault (rule : String) : IndexFault :=
  .engine ("An invalid argument was passed: 'The memory arena in bytes per thread " ++ rule ++ "'")

/-- A new catalog with some mebibytes for writing (`TicketIndex::create_in_ram`). -/
def Catalog.create (memoryMb : Nat) : Except IndexFault Catalog :=
  let bytes := memoryMb * 1048576
  if Nat.pow 2 64 ≤ bytes then .error .broken
  else if memoryPerWriter bytes < leastWriterMemory then
    .error (memoryFault ("needs to be at least " ++ toString leastWriterMemory ++ "."))
  else if greatestWriterMemory ≤ memoryPerWriter bytes then
    .error (memoryFault ("cannot exceed " ++ toString greatestWriterMemory))
  else .ok .empty

end Matchmaking
