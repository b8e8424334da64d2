import Matchmaking.Fault

/-!
# The fields of a card

A card of the catalog has nine fields. The layout of a catalog lists them by name; a layout that
lacks one of them is of no use.
-/

namespace Matchmaking

/-- A field of a card. -/
inductive Field
  /-- The name of the ticket. -/
  | ticketId
  /-- The party. -/
  | party
  /-- The sessions. -/
  | session
  /-- The words of the query. -/
  | query
  /-- The properties. -/
  | properties
  /-- The least size of the group. -/
  | minCount
  /-- The greatest size of the group. -/
  | maxCount
  /-- The number of presences. -/
  | count
  /-- The millisecond in which the ticket was made. -/
  | createdAt
  deriving DecidableEq, Repr

namespace Field

/-- The name of a field in queries. -/
def name : Field → String
  | .ticketId => "ticket_id"
  | .party => "party_id"
  | .session => "session_id"
  | .query => "query"
  | .properties => "properties"
  | .minCount => "min_count"
  | .maxCount => "max_count"
  | .count => "count"
  | .createdAt => "created_at_ms"

/-- All fields, in the order of the layout. -/
def all : List Field :=
  [.ticketId, .party, .session, .query, .properties, .minCount, .maxCount, .count, .createdAt]

/-- The place of a field in the layout. -/
def place : Field → Nat
  | .ticketId => 0
  | .party => 1
  | .session => 2
  | .query => 3
  | .properties => 4
  | .minCount => 5
  | .maxCount => 6
  | .count => 7
  | .createdAt => 8

/-- The field of a name. -/
def ofName? (s : String) : Option Field := all.find? fun f => f.name == s

/-- Every field is found by its name. -/
theorem ofName?_name (f : Field) : ofName? f.name = some f := by
  cases f <;> decide

/-- What a field holds. -/
inductive Kind
  /-- One text as a whole. -/
  | whole
  /-- The words of a text. -/
  | words
  /-- A natural number. -/
  | natural
  /-- An integer. -/
  | integer
  /-- Values by name. -/
  | tree
  deriving DecidableEq, Repr

/-- What each field holds. -/
def kind : Field → Kind
  | .ticketId | .party | .session => .whole
  | .query => .words
  | .properties => .tree
  | .minCount | .maxCount | .count => .natural
  | .createdAt => .integer

end Field

/-- The fields of a catalog (`TicketSchema`), in their order. -/
structure Layout where
  /-- The names of all fields. -/
  names : List String
  deriving DecidableEq, Repr

namespace Layout

/-- The layout of the cards of tickets (`build_ticket_schema`). -/
def ofTickets : Layout := ⟨Field.all.map Field.name⟩

/-- Accepts a layout that has all fields of a card (`TicketSchema::from_schema`); the first missing
one is reported. -/
def check (l : Layout) : Except IndexFault Layout :=
  match Field.all.find? fun f => !l.names.contains f.name with
  | some f => .error (.schemaMismatch ("missing " ++ f.name ++ " field"))
  | none => .ok l

end Layout

end Matchmaking
