import Matchmaking.Catalog.Field
import Matchmaking.Text.Words
import Matchmaking.Ticket.Basic

/-!
# Cards

A card is what the catalog keeps of a ticket. Every field of a card holds a list of values with
their positions; a search asks for values at a place, that is, in a field and, among the
properties, under a name.
-/

namespace Matchmaking

/-- The value of a property. -/
inductive Property
  /-- A text. -/
  | text (s : String)
  /-- A number. -/
  | number (x : Number)
  deriving DecidableEq, Repr

/-- What the catalog keeps of a ticket. -/
structure Card where
  /-- The name of the ticket. -/
  ticketId : String
  /-- The party, empty if there is none. -/
  party : String
  /-- The session of each presence. -/
  sessions : List String
  /-- The query of the ticket. -/
  query : String
  /-- The properties. -/
  properties : Table Property
  /-- The least size of the group. -/
  minCount : Nat
  /-- The greatest size of the group. -/
  maxCount : Nat
  /-- The number of presences. -/
  count : Nat
  /-- The millisecond in which the ticket was made. -/
  createdMillis : Int
  deriving DecidableEq, Repr

/-- The properties of a ticket in one table; of a text and a number with the same name the number is
kept. -/
def Ticket.properties (t : Ticket) : Table Property :=
  t.numbers.entries.foldl (fun props e => props.insert e.1 (.number e.2)) (t.texts.map .text)

/-- The card of a ticket (`ticket_to_doc`). -/
def Card.ofTicket (t : Ticket) : Card where
  ticketId := t.id
  party := t.party.getD ""
  sessions := t.sessions
  query := t.query
  properties := t.properties
  minCount := t.minCount
  maxCount := t.maxCount
  count := t.count
  createdMillis := t.createdMillis

/-- A value that a search can ask for. -/
inductive Value
  /-- A text or a word. -/
  | text (s : String)
  /-- A natural number. -/
  | nat (n : Nat)
  /-- An integer. -/
  | int (i : Int)
  /-- A number. -/
  | number (x : Number)
  /-- A truth value. -/
  | flag (b : Bool)
  deriving DecidableEq, Repr

/-- Where a value is looked for. -/
structure Place where
  /-- The field. -/
  field : Field
  /-- The name of the property; empty elsewhere. -/
  key : String
  deriving DecidableEq, Repr

/-- A value at a position. -/
structure Posting where
  /-- The position. -/
  position : Nat
  /-- The value. -/
  value : Value
  deriving DecidableEq, Repr

/-- The words of a text as postings. -/
def wordPostings (s : String) : List Posting :=
  (Text.words s).map fun w => ⟨w.position, .text w.text⟩

/-- The postings of a property: the words of a text, or a number. -/
def Property.postings : Property → List Posting
  | .text s => wordPostings s
  | .number x => [⟨0, .number x⟩]

namespace Card

/-- What a card holds at a place. -/
def postings (c : Card) (p : Place) : List Posting :=
  match p.field with
  | .ticketId => [⟨0, .text c.ticketId⟩]
  | .party => [⟨0, .text c.party⟩]
  | .session => c.sessions.map fun s => ⟨0, .text s⟩
  | .query => wordPostings c.query
  | .properties => match c.properties.get? p.key with
    | some property => property.postings
    | none => []
  | .minCount => [⟨0, .nat c.minCount⟩]
  | .maxCount => [⟨0, .nat c.maxCount⟩]
  | .count => [⟨0, .nat c.count⟩]
  | .createdAt => [⟨0, .int c.createdMillis⟩]

/-- The values that a card holds at a place. -/
def values (c : Card) (p : Place) : List Value := (c.postings p).map Posting.value

/-- The number of values that a card holds in a field. -/
def fieldLength (c : Card) (f : Field) : Nat :=
  match f with
  | .properties => (c.properties.values.map fun p => p.postings.length).foldr (· + ·) 0
  | f => (c.postings ⟨f, ""⟩).length

end Card

end Matchmaking
