import Matchmaking.Proofs.Contents
import Matchmaking.Proofs.Mirrors

/-!
# What a catalog was told

Whoever writes to a catalog puts tickets, removes them and commits. Told the same things, a plain
record keeps the last ticket that was put under each name, and at every commit a copy of all that it
has. However the changes of several commits interleave, the cards on the shelf are those of the
copy. Main statement: `mirrors_committed`.
-/

namespace Matchmaking

/-- A call that writes to a catalog. -/
inductive Writing
  /-- The card of a ticket comes, in place of an earlier one. -/
  | put (t : Ticket)
  /-- The card of a ticket goes. -/
  | remove (id : String)
  /-- The cards of some tickets go. -/
  | removeAll (ids : List String)
  /-- What was noted takes effect. -/
  | commit

/-- A catalog after one call. -/
def Catalog.write (c : Catalog) : Writing → Catalog
  | .put t => c.put t
  | .remove id => c.remove id
  | .removeAll ids => c.removeAll ids
  | .commit => c.commit

/-- A new catalog after some calls. -/
def Catalog.written (calls : List Writing) : Catalog := calls.foldl write empty

/-- The tickets that a catalog was told about: all of them, and those up to the last commit. -/
structure Record where
  /-- What would be committed now. -/
  noted : Table Ticket
  /-- What was committed last. -/
  committed : Table Ticket

namespace Record

/-- The record before the first call. -/
def empty : Record := ⟨.empty, .empty⟩

/-- The record after one call. -/
def write (r : Record) : Writing → Record
  | .put t => { r with noted := r.noted.insert t.id t }
  | .remove id => { r with noted := r.noted.erase id }
  | .removeAll ids => { r with noted := ids.foldl Table.erase r.noted }
  | .commit => { r with committed := r.noted }

/-- The record of some calls. -/
def written (calls : List Writing) : Record := calls.foldl write empty

end Record

/-! ## The cards of the record -/

/-- Some cards are those of the tickets of a table, one for each. Queries play no role, so any will
do. -/
def Shows (cards : List Card) (tickets : Table Ticket) : Prop :=
  Mirrors cards (tickets.map fun t => ⟨t, .atom .all⟩)

namespace Shows

variable {cards : List Card} {tickets : Table Ticket}

theorem insert (h : Shows cards tickets) (t : Ticket) :
    Shows ((cards.filter fun c => c.ticketId != t.id) ++ [Card.ofTicket t])
      (tickets.insert t.id t) := by
  unfold Shows
  rw [Table.map_insert]
  exact Mirrors.insert h ⟨t, .atom .all⟩

theorem erase (h : Shows cards tickets) (id : String) :
    Shows (cards.filter fun c => c.ticketId != id) (tickets.erase id) := by
  unfold Shows
  rw [Table.map_erase]
  exact Mirrors.erase h id

theorem nodup (h : Shows cards tickets) : (cards.map Card.ticketId).Nodup := Mirrors.nodup h

/-- The card of a name is that of the ticket of this name. -/
theorem mem_iff (h : Shows cards tickets) {c : Card} :
    c ∈ cards ↔ ∃ t, tickets.get? c.ticketId = some t ∧ Card.ofTicket t = c := by
  constructor
  · intro hc
    obtain ⟨p, hp, hpc⟩ := Mirrors.get?_of_mem h hc
    rw [Table.get?_map] at hp
    obtain ⟨t, ht, rfl⟩ := Option.map_eq_some_iff.1 hp
    exact ⟨t, ht, hpc⟩
  · rintro ⟨t, ht, hc⟩
    refine (Mirrors.mem_iff h c).2 ⟨c.ticketId, ⟨t, .atom .all⟩, ?_, hc⟩
    rw [Table.get?_map, ht]
    rfl

end Shows

/-! ## Replaying -/

theorem shows_removeAll {c : Catalog} {tickets : Table Ticket} (h : Shows c.contents tickets)
    (ids : List String) : Shows (c.removeAll ids).contents (ids.foldl Table.erase tickets) := by
  rw [Catalog.contents_removeAll]
  induction ids generalizing c tickets with
  | nil => exact h
  | cons id rest ih =>
    refine ih ?_
    rw [Catalog.contents_remove]
    exact h.erase id

/-- A catalog holds what its record says, noted and committed. -/
def Keeps (c : Catalog) (r : Record) : Prop :=
  Shows c.contents r.noted ∧ Shows c.shelf.cards r.committed

theorem Keeps.write {c : Catalog} {r : Record} (h : Keeps c r) (call : Writing) :
    Keeps (c.write call) (r.write call) := by
  obtain ⟨hnoted, hcommitted⟩ := h
  cases call with
  | put t =>
    refine ⟨?_, hcommitted⟩
    rw [Catalog.write, Catalog.contents_put]
    exact hnoted.insert t
  | remove id =>
    refine ⟨?_, hcommitted⟩
    rw [Catalog.write, Catalog.contents_remove]
    exact hnoted.erase id
  | removeAll ids => exact ⟨shows_removeAll hnoted ids, hcommitted⟩
  | commit =>
    refine ⟨?_, ?_⟩
    · rw [Catalog.write, Catalog.contents_commit]
      exact hnoted
    · rw [Catalog.write, Catalog.cards_commit]
      exact hnoted

theorem keeps_written (calls : List Writing) :
    Keeps (Catalog.written calls) (Record.written calls) := by
  -- the calls are carried out from the first one on, so the induction is over any beginning
  suffices h : ∀ (c : Catalog) (r : Record), Keeps c r →
      Keeps (calls.foldl Catalog.write c) (calls.foldl Record.write r) from
    h .empty .empty ⟨Mirrors.empty, Mirrors.empty⟩
  induction calls with
  | nil => exact fun c r h => h
  | cons call rest ih => exact fun c r h => ih _ _ (h.write call)

/-- The cards on the shelf are those of the tickets that were committed last, one for each. -/
theorem mirrors_committed (calls : List Writing) :
    Shows (Catalog.written calls).shelf.cards (Record.written calls).committed :=
  (keeps_written calls).2

end Matchmaking
