import Mathlib.Algebra.Ring.Nat
import Mathlib.Data.List.Nodup
import Matchmaking.Ticket.Basic

/-!
# The group of some tickets

A group consists of the entries of its tickets, so that its size, its sessions and the tickets found
in it are those of the tickets that it was formed of.
-/

namespace Matchmaking

theorem Ticket.ticketId_of_mem_entries {t : Ticket} {e : Entry} (h : e ∈ t.entries) :
    e.ticketId = t.id := by
  obtain ⟨p, -, rfl⟩ := List.mem_map.1 h
  rfl

namespace Group

variable {token : String} {ts : List Ticket}

theorem size_ofTickets (token : String) (ts : List Ticket) :
    (ofTickets token ts).size = (ts.map Ticket.count).sum := by
  rw [size, ofTickets, List.length_flatMap]
  simp only [Ticket.length_entries]

theorem sessions_ofTickets (token : String) (ts : List Ticket) :
    (ofTickets token ts).sessions = ts.flatMap Ticket.sessions := by
  rw [sessions, ofTickets, List.map_flatMap]
  simp only [Ticket.entries, List.map_map]
  rfl

theorem mem_sessions_ofTickets {x : String} :
    x ∈ (ofTickets token ts).sessions ↔ ∃ t ∈ ts, x ∈ t.sessions := by
  rw [sessions_ofTickets, List.mem_flatMap]

theorem mem_ticketIds {g : Group} {id : String} :
    id ∈ g.ticketIds ↔ ∃ e ∈ g.entries, e.ticketId = id := by
  rw [ticketIds, List.mem_eraseDups, List.mem_map]

/-- The tickets found in a group are among those that it was formed of. -/
theorem exists_of_mem_ticketIds {id : String} (h : id ∈ (ofTickets token ts).ticketIds) :
    ∃ t ∈ ts, t.id = id := by
  obtain ⟨e, he, rfl⟩ := mem_ticketIds.1 h
  obtain ⟨t, ht, het⟩ := List.mem_flatMap.1 he
  exact ⟨t, ht, (Ticket.ticketId_of_mem_entries het).symm⟩

/-- If all tickets have entries and none occurs twice, the tickets found in the group are exactly
those that it was formed of, in their order. -/
theorem ticketIds_ofTickets (hne : ∀ t ∈ ts, t.presences ≠ []) (hnodup : (ts.map Ticket.id).Nodup) :
    (ofTickets token ts).ticketIds = ts.map Ticket.id := by
  unfold ticketIds ofTickets
  simp only
  induction ts with
  | nil => rfl
  | cons t rest ih =>
    rw [List.map_cons, List.nodup_cons] at hnodup
    have hrest := ih (fun u hu => hne u (List.mem_cons_of_mem t hu)) hnodup.2
    -- the entries of the first ticket all bear its name, and no others do
    have hfirst : (t.entries.map Entry.ticketId).eraseDups = [t.id] := by
      cases hp : t.presences with
      | nil => exact absurd hp (hne t List.mem_cons_self)
      | cons p ps =>
        rw [Ticket.entries, hp, List.map_cons, List.map_cons, List.eraseDups_cons,
          List.filter_eq_nil_iff.2, List.eraseDups_nil]
        simp
    have hothers : ((rest.flatMap Ticket.entries).map Entry.ticketId).removeAll
        (t.entries.map Entry.ticketId) = (rest.flatMap Ticket.entries).map Entry.ticketId := by
      refine List.filter_eq_self.2 fun id hid => ?_
      rw [Bool.not_eq_true', ← Bool.not_eq_true, List.elem_iff]
      intro hmem
      obtain ⟨e, he, rfl⟩ := List.mem_map.1 hmem
      obtain ⟨e', he', heq⟩ := List.mem_map.1 hid
      obtain ⟨u, hu, heu⟩ := List.mem_flatMap.1 he'
      have hut : u.id = t.id := by
        rw [← Ticket.ticketId_of_mem_entries heu, heq, Ticket.ticketId_of_mem_entries he]
      exact hnodup.1 (List.mem_map.2 ⟨u, hu, hut⟩)
    rw [List.flatMap_cons, List.map_append, List.eraseDups_append, hothers, hfirst, hrest]
    rfl

theorem filter_entries_eq_nil {id : String} (h : id ∉ ts.map Ticket.id) :
    (ofTickets token ts).entries.filter (fun e => e.ticketId == id) = [] := by
  refine List.filter_eq_nil_iff.2 fun e he heq => ?_
  obtain ⟨u, hu, heu⟩ := List.mem_flatMap.1 he
  rw [Ticket.ticketId_of_mem_entries heu, beq_iff_eq] at heq
  exact h (List.mem_map.2 ⟨u, hu, heq⟩)

/-- If no ticket occurs twice, what a group holds of one of its tickets are all entries of that
ticket. -/
theorem filter_entries_ofTickets (hnodup : (ts.map Ticket.id).Nodup) {t : Ticket} (ht : t ∈ ts) :
    (ofTickets token ts).entries.filter (fun e => e.ticketId == t.id) = t.entries := by
  induction ts with
  | nil => simp at ht
  | cons u rest ih =>
    rw [List.map_cons, List.nodup_cons] at hnodup
    have hentries : (ofTickets token (u :: rest)).entries =
        u.entries ++ (ofTickets token rest).entries := List.flatMap_cons
    rw [hentries, List.filter_append]
    rcases List.mem_cons.1 ht with rfl | ht
    · have hself : t.entries.filter (fun e => e.ticketId == t.id) = t.entries :=
        List.filter_eq_self.2 fun e he => beq_iff_eq.2 (Ticket.ticketId_of_mem_entries he)
      rw [hself, filter_entries_eq_nil hnodup.1, List.append_nil]
    · have hnone : u.entries.filter (fun e => e.ticketId == t.id) = [] := by
        refine List.filter_eq_nil_iff.2 fun e he heq => ?_
        rw [Ticket.ticketId_of_mem_entries he, beq_iff_eq] at heq
        exact hnodup.1 (List.mem_map.2 ⟨t, ht, heq.symm⟩)
      rw [hnone, List.nil_append, ih hnodup.2 ht]

end Group

end Matchmaking
