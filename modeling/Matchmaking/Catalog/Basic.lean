import Matchmaking.Catalog.Card

/-!
# The catalog

The catalog keeps one card for each waiting ticket. Changes are collected and take effect together
when they are committed. What was added by one commit stays together as a batch: a card that is
removed is only marked, and a batch disappears with its last card. The committed state is a value,
so whoever looks at it is not disturbed by later changes.
-/

namespace Matchmaking

/-- A card in a batch. -/
structure Filed where
  /-- The card. -/
  card : Card
  /-- Whether it has not been removed. -/
  live : Bool
  deriving DecidableEq, Repr

/-- The card marked as removed if it belongs to a ticket. -/
def Filed.strike (id : String) (f : Filed) : Filed :=
  if f.card.ticketId == id then { f with live := false } else f

/-- The committed state of a catalog (`TicketSnapshot`): its batches in the order of their commits.
-/
structure Shelf where
  /-- The batches. -/
  batches : List (List Filed)
  deriving DecidableEq, Repr, Inhabited

namespace Shelf

/-- The shelf without cards. -/
def empty : Shelf := ⟨[]⟩

/-- All cards on the shelf, removed ones included, in the order in which they were added. -/
def filed (s : Shelf) : List Filed := s.batches.flatten

/-- The cards that have not been removed, in the order in which they were added. -/
def cards (s : Shelf) : List Card := (s.filed.filter Filed.live).map Filed.card

/-- The number of cards that have not been removed. -/
def size (s : Shelf) : Nat := s.cards.length

end Shelf

/-- A change that has not been committed. -/
inductive Change
  /-- A new card. -/
  | add (c : Card)
  /-- The card of a ticket goes. -/
  | remove (id : String)
  deriving DecidableEq, Repr

/-- A catalog (`TicketIndexer`): what is committed, and what is not. -/
structure Catalog where
  /-- The committed state. -/
  shelf : Shelf
  /-- The changes since then, in their order. -/
  pending : List Change
  deriving DecidableEq, Repr, Inhabited

namespace Catalog

/-- The catalog without cards. -/
def empty : Catalog := ⟨.empty, []⟩

/-- Notes the card of a ticket (`upsert`), in place of an earlier card of the same ticket. -/
def put (c : Catalog) (t : Ticket) : Catalog :=
  { c with pending := c.pending ++ [.remove t.id, .add (Card.ofTicket t)] }

/-- Notes that the card of a ticket goes (`delete`). -/
def remove (c : Catalog) (id : String) : Catalog :=
  { c with pending := c.pending ++ [.remove id] }

/-- Notes that the cards of some tickets go (`delete_batch`). -/
def removeAll (c : Catalog) (ids : List String) : Catalog :=
  { c with pending := c.pending ++ ids.map .remove }

/-- Marks the cards of a ticket as removed. -/
def strike (id : String) (batch : List Filed) : List Filed := batch.map (Filed.strike id)

/-- Carries out a change on the older batches and on the one that is being added. -/
def apply (state : List (List Filed) × List Filed) : Change → List (List Filed) × List Filed
  | .add c => (state.1, state.2 ++ [⟨c, true⟩])
  | .remove id => (state.1.map (strike id), strike id state.2)

/-- The shelf after some changes. Batches without a card that is not removed disappear. -/
def carryOut (s : Shelf) (changes : List Change) : Shelf :=
  let (older, added) := changes.foldl apply (s.batches, [])
  ⟨(older ++ [added]).filter fun batch => batch.any Filed.live⟩

/-- Lets the changes take effect (`commit`). -/
def commit (c : Catalog) : Catalog := ⟨carryOut c.shelf c.pending, []⟩

end Catalog

end Matchmaking
