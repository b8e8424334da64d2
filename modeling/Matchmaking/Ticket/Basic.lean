import Matchmaking.Instant
import Matchmaking.Table
import Matchmaking.Decimal.Number

/-!
# Tickets

A ticket asks to be put into a group, on behalf of one user or of a whole party. Each of its
presences becomes one entry of the group. The bounds and the multiple that a ticket states are
about the size of that group, counted in entries.
-/

namespace Matchmaking

/-- A user as connected by one session (`Presence`). -/
structure Presence where
  /-- The session by which the user is connected. -/
  session : String
  /-- The user. -/
  user : String
  /-- The name under which the user is shown. -/
  username : String
  deriving DecidableEq, Repr, Inhabited

/-- What a client asks for (`TicketRequest`). -/
structure Request where
  /-- Those who want to play together. -/
  presences : List Presence
  /-- The party to which they belong. -/
  party : Option String
  /-- What the other tickets of the group have to satisfy. -/
  query : String
  /-- The least size of the group. -/
  minCount : Nat
  /-- The greatest size of the group. -/
  maxCount : Nat
  /-- A number that has to divide the size of the group. -/
  multiple : Nat
  /-- The properties that are texts. -/
  texts : Table String
  /-- The properties that are numbers. -/
  numbers : Table Number
  deriving DecidableEq, Repr, Inhabited

namespace Request

/-- A request of a single user (`TicketRequest::solo`). -/
def solo (session user query : String) (minCount maxCount multiple : Nat) : Request where
  presences := [⟨session, user, ""⟩]
  party := none
  query := query
  minCount := minCount
  maxCount := maxCount
  multiple := multiple
  texts := .empty
  numbers := .empty

/-- A request of a party (`TicketRequest::party`). -/
def ofParty (party : String) (presences : List Presence) (query : String)
    (minCount maxCount multiple : Nat) : Request where
  presences := presences
  party := some party
  query := query
  minCount := minCount
  maxCount := maxCount
  multiple := multiple
  texts := .empty
  numbers := .empty

/-- The same request for a party. -/
def withParty (r : Request) (party : String) : Request := { r with party := some party }

/-- The request with one more property that is a text. -/
def withText (r : Request) (key value : String) : Request :=
  { r with texts := r.texts.insert key value }

/-- The request with one more property that is a number. -/
def withNumber (r : Request) (key : String) (value : Number) : Request :=
  { r with numbers := r.numbers.insert key value }

end Request

/-- A request that was accepted (`Ticket`). -/
structure Ticket where
  /-- The name of the ticket. -/
  id : String
  /-- Those who want to play together. -/
  presences : List Presence
  /-- The party to which they belong. -/
  party : Option String
  /-- What the other tickets of the group have to satisfy. -/
  query : String
  /-- The least size of the group. -/
  minCount : Nat
  /-- The greatest size of the group. -/
  maxCount : Nat
  /-- A number that has to divide the size of the group. -/
  multiple : Nat
  /-- The properties that are texts. -/
  texts : Table String
  /-- The properties that are numbers. -/
  numbers : Table Number
  /-- When the ticket was made. -/
  createdAt : Instant
  deriving DecidableEq, Repr, Inhabited

namespace Ticket

/-- The ticket of a request (`Ticket::new`). An empty party means no party. -/
def ofRequest (id : String) (createdAt : Instant) (r : Request) (query : String) : Ticket where
  id := id
  presences := r.presences
  party := r.party.filter fun p => !p.isEmpty
  query := query
  minCount := r.minCount
  maxCount := r.maxCount
  multiple := r.multiple
  texts := r.texts
  numbers := r.numbers
  createdAt := createdAt

/-- The number of entries that the ticket brings into a group. -/
def count (t : Ticket) : Nat := t.presences.length

/-- The sessions of its presences, in their order. -/
def sessions (t : Ticket) : List String := t.presences.map Presence.session

/-- Whether a presence of both tickets belongs to the same session (`shares_session`). -/
def sharesSession (t u : Ticket) : Bool := u.sessions.any fun s => t.sessions.contains s

/-- Whether two different tickets belong to the same party (`party_conflict`). -/
def partyConflict (t u : Ticket) : Bool :=
  t.id != u.id && t.party.isSome && t.party == u.party

/-- Whether the ticket can be in a group of a size (`accepts_size`). -/
def acceptsSize (t : Ticket) (size : Nat) : Bool :=
  t.minCount ≤ size && size ≤ t.maxCount && 0 < t.multiple && size % t.multiple == 0

/-- Whether the bounds of two tickets leave a common size (`counts_compatible`). -/
def countsCompatible (t u : Ticket) : Bool :=
  t.minCount ≤ u.maxCount && u.minCount ≤ t.maxCount

/-- The millisecond in which the ticket was made. -/
def createdMillis (t : Ticket) : Int := t.createdAt.millis

@[simp]
theorem length_sessions (t : Ticket) : t.sessions.length = t.count := by
  simp [sessions, count]

theorem sharesSession_iff {t u : Ticket} :
    t.sharesSession u = true ↔ ∃ s ∈ u.sessions, s ∈ t.sessions := by
  simp [sharesSession]

theorem sharesSession_comm (t u : Ticket) : t.sharesSession u = u.sharesSession t := by
  rw [Bool.eq_iff_iff, sharesSession_iff, sharesSession_iff]
  constructor <;> (rintro ⟨s, h, h'⟩; exact ⟨s, h', h⟩)

theorem acceptsSize_iff {t : Ticket} {size : Nat} : t.acceptsSize size = true ↔
    t.minCount ≤ size ∧ size ≤ t.maxCount ∧ 0 < t.multiple ∧ size % t.multiple = 0 := by
  simp [acceptsSize, and_assoc]

theorem countsCompatible_comm (t u : Ticket) : t.countsCompatible u = u.countsCompatible t := by
  simp [countsCompatible, Bool.and_comm]

/-- Two tickets that accept a common size have bounds that leave one. -/
theorem countsCompatible_of_acceptsSize {t u : Ticket} {size : Nat} (ht : t.acceptsSize size = true)
    (hu : u.acceptsSize size = true) : t.countsCompatible u = true := by
  simp [acceptsSize] at ht hu
  simp [countsCompatible]
  omega

end Ticket

/-- One presence of a ticket in a group (`MatchmakerEntry`). -/
structure Entry where
  /-- The ticket. -/
  ticketId : String
  /-- The presence. -/
  presence : Presence
  /-- The party of the ticket. -/
  party : Option String
  /-- The properties that are texts. -/
  texts : Table String
  /-- The properties that are numbers. -/
  numbers : Table Number
  /-- When the ticket was made. -/
  createdAt : Instant
  deriving DecidableEq, Repr, Inhabited

/-- The entries of a ticket (`to_entries`), one for each presence and in the same order. -/
def Ticket.entries (t : Ticket) : List Entry :=
  t.presences.map fun p =>
    { ticketId := t.id, presence := p, party := t.party, texts := t.texts, numbers := t.numbers,
      createdAt := t.createdAt }

@[simp]
theorem Ticket.length_entries (t : Ticket) : t.entries.length = t.count := by
  simp [entries, count]

/-- A group that was formed (`MatchedGroup`). -/
structure Group where
  /-- A name of its own. -/
  token : String
  /-- Its entries, ticket by ticket. -/
  entries : List Entry
  deriving DecidableEq, Repr, Inhabited

namespace Group

/-- The group of some tickets (`MatchedGroup::from_tickets`). -/
def ofTickets (token : String) (tickets : List Ticket) : Group :=
  ⟨token, tickets.flatMap Ticket.entries⟩

/-- The number of entries. -/
def size (g : Group) : Nat := g.entries.length

/-- The distinct tickets, in the order of their first entries. -/
def ticketIds (g : Group) : List String := (g.entries.map Entry.ticketId).eraseDups

/-- The sessions of the entries. -/
def sessions (g : Group) : List String := g.entries.map fun e => e.presence.session

end Group

end Matchmaking
