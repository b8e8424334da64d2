import Mathlib.Data.List.Perm.Subperm
import Matchmaking.Assembly.Greedy
import Matchmaking.Proofs.Deliberation
import Matchmaking.Proofs.Mirrors
import Matchmaking.Proofs.Rankings

/-!
# Candidates

What a search finds are cards that the inquiry allows, each at most once. If the cards mirror the
waiting tickets, the candidates of a ticket are therefore distinct waiting tickets, other than the
ticket itself, of other sessions and of another party.
-/

namespace Matchmaking

namespace Shelf

variable {s : Shelf} {i : Inquiry} {found : List Hit}

theorem mem_hits {x : Hit} (h : x ∈ s.hits i) :
    ∃ c ∈ s.cards, i.allows c = true ∧ x.ticketId = c.ticketId := by
  unfold hits at h
  obtain ⟨c, hc, hx⟩ := List.mem_filterMap.1 h
  obtain ⟨hcard, hallow⟩ := List.mem_filter.1 hc
  obtain ⟨score, -, rfl⟩ := Option.map_eq_some_iff.1 hx
  exact ⟨c, hcard, hallow, rfl⟩

theorem ticketId_hits_sublist (s : Shelf) (i : Inquiry) :
    ((s.hits i).map Hit.ticketId).Sublist (s.cards.map Card.ticketId) := by
  have hdated := (dated_hits_sublist s i).map Prod.fst
  rwa [List.map_map, List.map_map] at hdated

/-- A search returns some of the hits, in another order. -/
theorem search_subperm (h : s.search i = .ok found) : found.Subperm (s.hits i) := by
  have hfirst := (List.take_sublist i.limit (s.ranking i)).subperm
  exact (perm_take_ranking h).subperm.trans (hfirst.trans (ranking_perm s i).subperm)

theorem mem_search {x : Hit} (h : s.search i = .ok found) (hx : x ∈ found) :
    ∃ c ∈ s.cards, i.allows c = true ∧ x.ticketId = c.ticketId :=
  mem_hits ((search_subperm h).subset hx)

theorem nodup_search (h : s.search i = .ok found) (hs : (s.cards.map Card.ticketId).Nodup) :
    (found.map Hit.ticketId).Nodup := by
  have hhits : ((s.hits i).map Hit.ticketId).Nodup := hs.sublist (ticketId_hits_sublist s i)
  obtain ⟨some, hperm, hsub⟩ := search_subperm h
  exact (hperm.map Hit.ticketId).nodup_iff.1 (hhits.sublist (hsub.map Hit.ticketId))

end Shelf

namespace Inquiry

/-- A card that is allowed belongs to another ticket, of other sessions and of another party. -/
theorem allows_ofTicket {t u : Ticket} {q : Query} {limit : Nat}
    (h : (ofTicket t q limit).allows (Card.ofTicket u) = true) :
    u.id ≠ t.id ∧ t.sharesSession u = false ∧ t.partyConflict u = false := by
  simp only [allows, ofTicket, Card.ofTicket, Bool.and_eq_true] at h
  obtain ⟨⟨⟨-, hid⟩, hparty⟩, hsessions⟩ := h
  refine ⟨bne_iff_ne.1 hid, ?_, ?_⟩
  · cases hshare : t.sharesSession u with
    | false => rfl
    | true =>
      obtain ⟨x, hxu, hxt⟩ := Ticket.sharesSession_iff.1 hshare
      have := List.all_eq_true.1 hsessions x hxt
      simp [hxu] at this
  · unfold Ticket.partyConflict
    cases ht : t.party with
    | none => simp
    | some p =>
      rw [ht] at hparty
      cases hu : u.party with
      | none => simp
      | some q =>
        have hne : q ≠ p := by simpa [hu] using hparty
        simp [Ne.symm hne]

end Inquiry

namespace Round

open Greedy (clash)

variable {r : Round}

/-- What is found for an outer ticket are waiting tickets that do not clash with it. -/
theorem mem_found (hr : Mirrors r.shelf.cards r.tickets.tickets) {outer p : Pooled} {limit : Nat}
    (h : p ∈ r.found outer limit) :
    r.tickets.tickets.get? p.id = some p ∧ p.id ≠ outer.id ∧ clash outer p = false := by
  unfold found at h
  cases hs : r.shelf.search (Inquiry.ofTicket outer.ticket outer.query limit) with
  | error f =>
    rw [hs] at h
    cases h
  | ok hits =>
    rw [hs] at h
    obtain ⟨x, hx, hget⟩ := List.mem_filterMap.1 h
    obtain ⟨c, hc, hallow, hid⟩ := Shelf.mem_search hs hx
    obtain ⟨q, hq, rfl⟩ := hr.get?_of_mem hc
    rw [hid, hq] at hget
    cases hget
    have hpid : (Card.ofTicket p.ticket).ticketId = p.id := rfl
    rw [hpid] at hq
    obtain ⟨hne, hsession, hparty⟩ := Inquiry.allows_ofTicket hallow
    exact ⟨hq, hne, by rw [clash, hsession, hparty]; rfl⟩

theorem nodup_found (hr : Clear r.shelf.cards r.tickets.tickets) (outer : Pooled) (limit : Nat) :
    ((r.found outer limit).map Pooled.id).Nodup := by
  unfold found
  cases hs : r.shelf.search (Inquiry.ofTicket outer.ticket outer.query limit) with
  | error f => exact .nil
  | ok hits =>
    refine (Shelf.nodup_search hs hr.nodup).sublist ?_
    clear hs
    simp only
    induction hits with
    | nil => exact .slnil
    | cons x rest ih =>
      rw [List.filterMap_cons]
      cases hget : r.tickets.tickets.get? x.ticketId with
      | none => exact ih.cons x.ticketId
      | some p =>
        rw [List.map_cons, List.map_cons, hr.keyed _ p hget]
        exact ih.cons_cons x.ticketId

theorem found_of_hits_eq_singleton {outer : Pooled} {limit : Nat} {x : Hit}
    (hquery : outer.query.runnable = true) (hlimit : limit ≠ 0)
    (hhits : r.shelf.hits (Inquiry.ofTicket outer.ticket outer.query limit) = [x]) :
    r.found outer limit = [x].filterMap fun h => r.tickets.tickets.get? h.ticketId := by
  have hsearch : r.shelf.search (Inquiry.ofTicket outer.ticket outer.query limit) = .ok [x] := by
    obtain ⟨n, rfl⟩ := Nat.exists_eq_succ_of_ne_zero hlimit
    have hrunnable : (Inquiry.ofTicket outer.ticket outer.query (n + 1)).query.runnable = true :=
      hquery
    rw [Shelf.search, if_pos hrunnable, hhits]
    simp [Inquiry.ofTicket]
  rw [found, hsearch]

/-- Candidates are waiting tickets that do not clash with the outer ticket. -/
theorem mem_candidates (hr : Mirrors r.shelf.cards r.tickets.tickets) {outer p : Pooled}
    {limit : Nat} (h : p ∈ (r.candidates outer limit).1) :
    r.tickets.tickets.get? p.id = some p ∧ p.id ≠ outer.id ∧ clash outer p = false :=
  mem_found hr ((candidates_sublist r outer limit).subset h)

theorem nodup_candidates (hr : Clear r.shelf.cards r.tickets.tickets) (outer : Pooled)
    (limit : Nat) : ((r.candidates outer limit).1.map Pooled.id).Nodup :=
  (nodup_found hr outer limit).sublist ((candidates_sublist r outer limit).map Pooled.id)

end Round

end Matchmaking
