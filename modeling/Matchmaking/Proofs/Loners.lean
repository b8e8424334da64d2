import Matchmaking.Proofs.Candidates
import Matchmaking.Proofs.Roster
import Matchmaking.Ticket.Form

/-!
# Tickets of an empty party

A request that names an empty party becomes a ticket without a party. A ticket that is read from its
JSON form keeps the empty party, and everything but its card then takes it for the name of a party:
two such tickets are in conflict, each looks for candidates of parties only, and they are looked up
under the empty party and not under their sessions (`Ticket.of_party_eq_empty`).
-/

namespace Matchmaking

open Inquiry (ofTicket)

/-- The same ticket without a party. -/
def Ticket.alone (t : Ticket) : Ticket := { t with party := none }

section Alone

variable {t : Ticket}

theorem Ticket.ofRequest_party_ne_empty (id : String) (createdAt : Instant) (r : Request)
    (query : String) : (ofRequest id createdAt r query).party ≠ some "" := by
  intro h
  obtain ⟨-, hkept⟩ := Option.filter_eq_some_iff.1 h
  cases hkept

theorem Card.ofTicket_alone (h : t.party = some "") : Card.ofTicket t.alone = Card.ofTicket t := by
  unfold Card.ofTicket
  rw [h]
  rfl

theorem Ticket.partyConflict_alone (t u : Ticket) :
    t.alone.partyConflict u = false ∧ u.partyConflict t.alone = false := by
  constructor
  · simp [partyConflict, alone]
  · unfold partyConflict alone
    cases u.party <;> simp

theorem Ticket.partyConflict_iff (t u : Ticket) : t.partyConflict u = true ↔
    t.id ≠ u.id ∧ ∃ party, t.party = some party ∧ u.party = some party := by
  unfold partyConflict
  rw [Bool.and_eq_true, Bool.and_eq_true, bne_iff_ne, beq_iff_eq, Option.isSome_iff_exists,
    and_assoc]
  refine and_congr_right fun _ => ⟨?_, ?_⟩
  · rintro ⟨⟨party, hparty⟩, heq⟩
    exact ⟨party, hparty, by rw [← heq, hparty]⟩
  · rintro ⟨party, hparty, heq⟩
    exact ⟨⟨party, hparty⟩, by rw [heq, hparty]⟩

theorem Ticket.partyConflict_of_party_eq_empty (h : t.party = some "") (u : Ticket) :
    (t.partyConflict u = true ↔ t.id ≠ u.id ∧ u.party = some "") ∧
      (u.partyConflict t = true ↔ t.id ≠ u.id ∧ u.party = some "") := by
  rw [partyConflict_iff, partyConflict_iff, h]
  refine ⟨and_congr_right fun _ => ⟨?_, ?_⟩, and_congr ne_comm ⟨?_, ?_⟩⟩
  · rintro ⟨party, hmine, hother⟩
    rw [hother, ← hmine]
  · exact fun hother => ⟨"", rfl, hother⟩
  · rintro ⟨party, hother, hmine⟩
    rw [hother, ← hmine]
  · exact fun hother => ⟨"", hother, rfl⟩

/-- Whoever looks for the candidates of an empty party leaves out the cards without a party. -/
theorem Inquiry.allows_of_party_eq_empty (h : t.party = some "") (q : Query) (limit : Nat)
    (c : Card) : (ofTicket t q limit).allows c =
      ((ofTicket t.alone q limit).allows c && c.party != "") := by
  unfold allows ofTicket Ticket.alone
  rw [h, Option.all_some, Option.all_none, Bool.and_true]
  exact Bool.and_right_comm _ _ _

theorem Shelf.party_ne_empty_of_search (h : t.party = some "") {s : Shelf} {q : Query} {limit : Nat}
    {found : List Hit} (hfound : s.search (ofTicket t q limit) = .ok found) {x : Hit}
    (hx : x ∈ found) : ∃ c ∈ s.cards, c.ticketId = x.ticketId ∧ c.party ≠ "" := by
  obtain ⟨c, hc, hallows, hid⟩ := mem_search hfound hx
  rw [Inquiry.allows_of_party_eq_empty h, Bool.and_eq_true, bne_iff_ne] at hallows
  exact ⟨c, hc, hid.symm, hallows.2⟩

theorem Roster.lookup_insert {r : Roster} (hr : r.Indexed) {p : Pooled}
    (hnew : r.get? p.id = none) (x : String) :
    (p.id ∈ (r.insert p).ofSession x ↔ p.ticket.party = none ∧ x ∈ p.ticket.sessions) ∧
      (p.id ∈ (r.insert p).ofParty x ↔ p.ticket.party = some x) := by
  have hindexed := hr.insert hnew
  have hget : (r.insert p).get? p.id = some p := by
    rw [get?_insert, if_pos rfl]
  rw [hindexed.mem_ofSession, hindexed.mem_ofParty, hget]
  simp

/-- What a ticket of an empty party has in common with the same ticket without a party, and where
the two differ. Only tickets that come of no request are concerned. -/
theorem Ticket.of_party_eq_empty (t : Ticket) (h : t.party = some "") :
    (∀ id createdAt r query, ofRequest id createdAt r query ≠ t) ∧
      Card.ofTicket t = Card.ofTicket t.alone ∧
      (∀ u, (t.partyConflict u = true ↔ t.id ≠ u.id ∧ u.party = some "") ∧
        (u.partyConflict t = true ↔ t.id ≠ u.id ∧ u.party = some "") ∧
        t.alone.partyConflict u = false ∧ u.partyConflict t.alone = false) ∧
      (∀ q limit, (∀ c, (ofTicket t q limit).allows c =
          ((ofTicket t.alone q limit).allows c && c.party != "")) ∧
        ∀ (s : Shelf) found, s.search (ofTicket t q limit) = .ok found →
          ∀ x ∈ found, ∃ c ∈ s.cards, c.ticketId = x.ticketId ∧ c.party ≠ "") ∧
      ∀ (r : Roster) q, r.Indexed → r.get? t.id = none → ∀ x,
        (t.id ∉ (r.insert ⟨t, q⟩).ofSession x) ∧
        (t.id ∈ (r.insert ⟨t, q⟩).ofParty x ↔ x = "") ∧
        (t.id ∈ (r.insert ⟨t.alone, q⟩).ofSession x ↔ x ∈ t.sessions) ∧
        (t.id ∉ (r.insert ⟨t.alone, q⟩).ofParty x) := by
  refine ⟨?request, (Card.ofTicket_alone h).symm, ?conflict, ?search, ?lookup⟩
  case request =>
    rintro id createdAt r query rfl
    exact ofRequest_party_ne_empty id createdAt r query h
  case conflict =>
    intro u
    obtain ⟨hmine, hother⟩ := partyConflict_of_party_eq_empty h u
    exact ⟨hmine, hother, partyConflict_alone t u⟩
  case search =>
    intro q limit
    refine ⟨Inquiry.allows_of_party_eq_empty h q limit, fun s found hfound x hx => ?_⟩
    exact Shelf.party_ne_empty_of_search h hfound hx
  case lookup =>
    intro r q hr hnew x
    have hkept := Roster.lookup_insert hr (p := ⟨t, q⟩) hnew x
    have halone := Roster.lookup_insert hr (p := ⟨t.alone, q⟩) hnew x
    have hid : Pooled.id ⟨t.alone, q⟩ = t.id := rfl
    have hid' : Pooled.id ⟨t, q⟩ = t.id := rfl
    rw [hid'] at hkept
    rw [hid] at halone
    refine ⟨?_, ?_, ?_, ?_⟩
    · rw [hkept.1, h]
      rintro ⟨hparty, -⟩
      cases hparty
    · rw [hkept.2, h, Option.some.injEq, eq_comm]
    · rw [halone.1]
      exact and_iff_right rfl
    · rw [halone.2]
      intro hparty
      cases hparty

/-- A ticket of an empty party, as it can be read from a JSON form. -/
def ofNobody (id session : String) : Ticket where
  id := id
  presences := [⟨session, "u", ""⟩]
  party := some ""
  query := "*"
  minCount := 2
  maxCount := 2
  multiple := 1
  texts := .empty
  numbers := .empty
  createdAt := ⟨0⟩

theorem lookup_ofNobody : (ofNobody "a" "s").party = some "" ∧
    "a" ∈ (Roster.empty.insert ⟨ofNobody "a" "s", .atom .all⟩).ofParty "" ∧
    "a" ∉ (Roster.empty.insert ⟨ofNobody "a" "s", .atom .all⟩).ofSession "s" := by
  have hnew : Roster.empty.get? (ofNobody "a" "s").id = none := rfl
  obtain ⟨-, -, -, -, hlookup⟩ := Ticket.of_party_eq_empty (ofNobody "a" "s") rfl
  have hindexed := Roster.indexed_empty
  exact ⟨rfl, (hlookup _ (.atom .all) hindexed hnew "").2.1.2 rfl,
    (hlookup _ (.atom .all) hindexed hnew "s").1⟩

/-- Two tickets of an empty party are in conflict, though neither has a party. -/
theorem partyConflict_ofNobody :
    Ticket.decode .text (ofNobody "a" "s").form = .ok (ofNobody "a" "s") ∧
      Ticket.decode .text (ofNobody "b" "s2").form = .ok (ofNobody "b" "s2") ∧
      (ofNobody "a" "s").partyConflict (ofNobody "b" "s2") = true ∧
      (ofNobody "a" "s").alone.partyConflict (ofNobody "b" "s2").alone = false :=
  ⟨rfl, rfl, rfl, rfl⟩

end Alone

end Matchmaking
