import Mathlib.Data.List.Nodup
import Matchmaking.Roster

/-!
# Cards that mirror tickets

Cards mirror tickets if they are the cards of these tickets, one for each. Taking a ticket and its
card away keeps this, and so does putting a ticket and its card in the place of earlier ones.
-/

namespace Matchmaking

/-- Some cards are those of some tickets, one for each. -/
structure Mirrors (cards : List Card) (tickets : Table Pooled) : Prop where
  /-- Tickets are stored under their own names. -/
  keyed : ∀ id p, tickets.get? id = some p → p.id = id
  /-- No ticket has two cards. -/
  nodup : (cards.map Card.ticketId).Nodup
  /-- The cards are the cards of the tickets. -/
  mem_iff : ∀ c, c ∈ cards ↔ ∃ id p, tickets.get? id = some p ∧ Card.ofTicket p.ticket = c

/-- No two cards are of the same ticket, and tickets are stored under their own names. -/
structure Clear (cards : List Card) (tickets : Table Pooled) : Prop where
  nodup : (cards.map Card.ticketId).Nodup
  keyed : ∀ id p, tickets.get? id = some p → p.id = id

/-- If tickets are stored under their own names, these are the keys. -/
theorem map_id_values {tickets : Table Pooled}
    (h : ∀ id p, tickets.get? id = some p → p.id = id) :
    tickets.values.map Pooled.id = tickets.keys := by
  rw [Table.values, Table.keys, List.map_map]
  exact List.map_congr_left fun e he => h e.1 e.2 (Table.get?_eq_some_iff.2 he)

theorem nodup_values {tickets : Table Pooled}
    (h : ∀ id p, tickets.get? id = some p → p.id = id) : tickets.values.Nodup := by
  refine List.Nodup.of_map Pooled.id ?_
  rw [map_id_values h]
  exact tickets.nodup_keys

namespace Mirrors

variable {cards : List Card} {tickets : Table Pooled}

theorem empty : Mirrors [] .empty := ⟨by simp, by simp, by simp⟩

theorem clear (h : Mirrors cards tickets) : Clear cards tickets := ⟨h.nodup, h.keyed⟩

theorem get?_of_mem (h : Mirrors cards tickets) {c : Card} (hc : c ∈ cards) :
    ∃ p, tickets.get? c.ticketId = some p ∧ Card.ofTicket p.ticket = c := by
  obtain ⟨id, p, hp, rfl⟩ := (h.mem_iff c).1 hc
  refine ⟨p, ?_, rfl⟩
  rw [show (Card.ofTicket p.ticket).ticketId = p.id from rfl, h.keyed id p hp]
  exact hp

theorem erase (h : Mirrors cards tickets) (id : String) :
    Mirrors (cards.filter fun c => c.ticketId != id) (tickets.erase id) where
  keyed := by
    intro id' p hp
    rw [Table.get?_erase] at hp
    split at hp
    · cases hp
    · exact h.keyed id' p hp
  nodup := h.nodup.sublist (List.filter_sublist.map _)
  mem_iff := by
    intro c
    rw [List.mem_filter, bne_iff_ne]
    constructor
    · rintro ⟨hc, hne⟩
      obtain ⟨p, hp, hpc⟩ := h.get?_of_mem hc
      exact ⟨c.ticketId, p, by rw [Table.get?_erase, if_neg hne, hp], hpc⟩
    · rintro ⟨id', p, hp, rfl⟩
      rw [Table.get?_erase] at hp
      split at hp
      · cases hp
      · rename_i hne
        refine ⟨(h.mem_iff _).2 ⟨id', p, hp, rfl⟩, ?_⟩
        rw [show (Card.ofTicket p.ticket).ticketId = p.id from rfl, h.keyed id' p hp]
        exact hne

/-- A card comes together with its ticket, in place of an earlier card of the same name. -/
theorem insert (h : Mirrors cards tickets) (p : Pooled) :
    Mirrors ((cards.filter fun c => c.ticketId != p.id) ++ [Card.ofTicket p.ticket])
      (tickets.insert p.id p) where
  keyed := by
    intro id q hq
    rw [Table.get?_insert] at hq
    split at hq
    · cases hq
      rename_i hid
      exact hid.symm
    · exact h.keyed id q hq
  nodup := by
    rw [List.map_append, List.nodup_append]
    refine ⟨(h.erase p.id).nodup, by simp, ?_⟩
    intro a ha b hb
    obtain ⟨c, hc, rfl⟩ := List.mem_map.1 ha
    have hne : c.ticketId ≠ p.id := by simpa using (List.mem_filter.1 hc).2
    rw [List.map_cons, List.map_nil, List.mem_singleton] at hb
    rw [hb]
    exact hne
  mem_iff := by
    intro c
    rw [List.mem_append, (h.erase p.id).mem_iff, List.mem_singleton]
    constructor
    · rintro (⟨id, q, hq, hqc⟩ | rfl)
      · rw [Table.get?_erase] at hq
        split at hq
        · cases hq
        · rename_i hid
          exact ⟨id, q, by rw [Table.get?_insert, if_neg hid, hq], hqc⟩
      · exact ⟨p.id, p, Table.get?_insert_self _ _ _, rfl⟩
    · rintro ⟨id, q, hq, hqc⟩
      rw [Table.get?_insert] at hq
      split at hq
      · cases hq
        exact Or.inr hqc.symm
      · rename_i hid
        exact Or.inl ⟨id, q, by rw [Table.get?_erase, if_neg hid, hq], hqc⟩

/-- The cards are, in some order, the cards of the tickets. -/
theorem perm (h : Mirrors cards tickets) :
    cards.Perm (tickets.values.map fun p => Card.ofTicket p.ticket) := by
  have hnames : (tickets.values.map fun p => Card.ofTicket p.ticket).map Card.ticketId =
      tickets.keys := by
    rw [List.map_map]
    exact map_id_values h.keyed
  have hvalues : (tickets.values.map fun p => Card.ofTicket p.ticket).Nodup := by
    refine List.Nodup.of_map Card.ticketId ?_
    rw [hnames]
    exact tickets.nodup_keys
  refine (List.perm_ext_iff_of_nodup (List.Nodup.of_map _ h.nodup) hvalues).2 fun c => ?_
  rw [h.mem_iff, List.mem_map]
  constructor
  · rintro ⟨id, p, hp, hpc⟩
    exact ⟨p, Table.mem_values_iff.2 ⟨id, hp⟩, hpc⟩
  · rintro ⟨p, hp, hpc⟩
    obtain ⟨id, hid⟩ := Table.mem_values_iff.1 hp
    exact ⟨id, p, hid, hpc⟩

theorem ticketId_perm (h : Mirrors cards tickets) :
    (cards.map Card.ticketId).Perm tickets.keys := by
  refine (h.perm.map Card.ticketId).trans ?_
  rw [List.map_map]
  exact List.Perm.of_eq (map_id_values h.keyed)

end Mirrors

end Matchmaking
