import Matchmaking.Query.Resolve

/-!
# The roster of waiting tickets

The roster holds every waiting ticket and knows which of them are active, that is, have waited long
enough to settle for less than they hoped for. Tickets of a party are looked up by the party, all
others by their sessions. A pass works on a snapshot of the roster, in an order of its own: active
tickets first, then older ones.
-/

namespace Matchmaking

/-- A waiting ticket with its query (`PooledTicket`). -/
structure Pooled where
  /-- The ticket. -/
  ticket : Ticket
  /-- What it looks for. -/
  query : Query

/-- The name of a waiting ticket. -/
def Pooled.id (p : Pooled) : String := p.ticket.id

/-! ## Indexes of names -/

/-- Sets of ticket names by some key. -/
abbrev Lookup := Table Names

namespace Lookup

/-- The names under a key. -/
def names (l : Lookup) (key : String) : Names := (l.get? key).getD .empty

/-- One more name under a key. -/
def attach (l : Lookup) (key id : String) : Lookup := l.insert key ((names l key).add id)

/-- One name less under a key (`detach`); a key without names is dropped. -/
def detach (l : Lookup) (key id : String) : Lookup :=
  match l.get? key with
  | none => l
  | some ids =>
    let rest := ids.erase id
    if rest.isEmpty then l.erase key else l.insert key rest

end Lookup

/-! ## Snapshots -/

/-- What a pass sees of the roster (`PassSnapshot`). -/
structure Snapshot where
  /-- The waiting tickets by name. -/
  tickets : Table Pooled
  /-- The names of the active ones. -/
  active : Names

namespace Snapshot

/-- The snapshot without tickets. -/
def empty : Snapshot := ⟨.empty, .empty⟩

/-- The number of tickets that are not active. -/
def poolSize (s : Snapshot) : Nat := s.tickets.size - s.active.size

/-- The number of active tickets. -/
def activeSize (s : Snapshot) : Nat := s.active.size

/-- Whether a ticket is active. -/
def isActive (s : Snapshot) (id : String) : Bool := s.active.contains id

/-- Whether one ticket is processed before another one or is the same: active ones first, then by
age, then by name. -/
def before (a b : Pooled × Bool) : Bool :=
  if a.2 != b.2 then a.2
  else if a.1.ticket.createdAt.nanos != b.1.ticket.createdAt.nanos then
    a.1.ticket.createdAt.nanos < b.1.ticket.createdAt.nanos
  else a.1.id ≤ b.1.id

/-- The tickets in the order in which a pass processes them (`processing_order`), each with whether
it is active. -/
def processingOrder (s : Snapshot) : List (Pooled × Bool) :=
  (s.tickets.values.map fun p => (p, s.isActive p.id)).mergeSort before

end Snapshot

/-! ## The roster -/

/-- The waiting tickets (`TicketRegistry`). -/
structure Roster where
  /-- The waiting tickets by name. -/
  tickets : Table Pooled
  /-- The names of the active ones. -/
  active : Names
  /-- The tickets without a party, by session. -/
  bySession : Lookup
  /-- The tickets of parties, by party. -/
  byParty : Lookup

namespace Roster

/-- The roster without tickets. -/
def empty : Roster := ⟨.empty, .empty, .empty, .empty⟩

/-- The roster with one more ticket. -/
def insert (r : Roster) (p : Pooled) : Roster :=
  let r := match p.ticket.party with
    | some party => { r with byParty := Lookup.attach r.byParty party p.id }
    | none => { r with
      bySession := p.ticket.sessions.foldl (fun l s => Lookup.attach l s p.id) r.bySession }
  { r with tickets := r.tickets.insert p.id p }

/-- The waiting ticket of a name. -/
def get? (r : Roster) (id : String) : Option Pooled := r.tickets.get? id

/-- The roster without a ticket. -/
def remove (r : Roster) (id : String) : Roster :=
  match r.get? id with
  | none => r
  | some p =>
    let r := { r with tickets := r.tickets.erase id, active := r.active.erase id }
    match p.ticket.party with
    | some party => { r with byParty := Lookup.detach r.byParty party id }
    | none => { r with
      bySession := p.ticket.sessions.foldl (fun l s => Lookup.detach l s id) r.bySession }

/-- The tickets without a party that have a presence of a session (`tickets_for_session`). -/
def ofSession (r : Roster) (session : String) : List String :=
  (Lookup.names r.bySession session).keys

/-- The tickets of a party (`tickets_for_party`). -/
def ofParty (r : Roster) (party : String) : List String := (Lookup.names r.byParty party).keys

/-- Whether a ticket is active. -/
def isActive (r : Roster) (id : String) : Bool := r.active.contains id

/-- Whether a ticket can be made active: it waits and is not active yet. -/
def promotable (r : Roster) (id : String) : Bool := r.tickets.contains id && !r.isActive id

/-- The roster with a ticket made active, if it waits. -/
def promote (r : Roster) (id : String) : Roster :=
  if r.promotable id then { r with active := r.active.add id } else r

/-- What a pass sees. -/
def snapshot (r : Roster) : Snapshot := ⟨r.tickets, r.active⟩

/-- The number of waiting tickets. -/
def size (r : Roster) : Nat := r.tickets.size

/-- The number of tickets that are not active. -/
def poolSize (r : Roster) : Nat := r.tickets.size - r.active.size

/-- The number of active tickets. -/
def activeSize (r : Roster) : Nat := r.active.size

end Roster

end Matchmaking
