import Matchmaking.Proofs.Answers
import Matchmaking.Proofs.Replays

/-!
# What an inquiry asks for

An inquiry speaks of cards, and the rules by which tickets are put together speak of tickets. A card
passes an inquiry exactly if its ticket is another one whose bounds leave a common size, that shares
no session with the one who asks and is not of the same party. So a search that may find all cards
finds exactly the committed tickets that match the query and pass these rules. Main statement:
`search_written`.
-/

namespace Matchmaking

namespace Inquiry

variable {t u : Ticket} {q : Query} {limit : Nat}

/-- A card has the empty text for a party if its ticket is of none, so a party without a name would
keep out the tickets without a party. -/
theorem all_party_iff (hparty : t.party ≠ some "") (hid : u.id ≠ t.id) :
    t.party.all (fun p => (Card.ofTicket u).party != p) = true ↔ t.partyConflict u = false := by
  have hother : (t.id != u.id) = true := bne_iff_ne.2 fun heq => hid heq.symm
  unfold Ticket.partyConflict Card.ofTicket
  rw [hother, Bool.true_and]
  cases ht : t.party with
  | none => simp
  | some p =>
    cases hu : u.party with
    | none =>
      have hp : "" ≠ p := by
        intro heq
        rw [← heq] at ht
        exact hparty ht
      simp [hp]
    | some x =>
      have hsymm : x = p ↔ p = x := ⟨Eq.symm, Eq.symm⟩
      simp [hsymm]

theorem all_sessions_iff :
    (t.sessions.all fun s => !(Card.ofTicket u).sessions.contains s) = true ↔
      t.sharesSession u = false := by
  rw [← Bool.not_eq_true (t.sharesSession u), Ticket.sharesSession_iff, List.all_eq_true]
  constructor
  · rintro hall ⟨s, hu, ht⟩
    have hs := hall s ht
    rw [Bool.not_eq_true', ← Bool.not_eq_true, List.contains_iff_mem] at hs
    exact hs hu
  · intro hnone s ht
    rw [Bool.not_eq_true', ← Bool.not_eq_true, List.contains_iff_mem]
    intro hu
    exact hnone ⟨s, hu, ht⟩

/-- An inquiry allows the card of a ticket exactly if the two tickets may be put together. -/
theorem allows_ofTicket_iff (hparty : t.party ≠ some "") :
    (ofTicket t q limit).allows (Card.ofTicket u) = true ↔
      u.id ≠ t.id ∧ t.countsCompatible u = true ∧ t.sharesSession u = false ∧
        t.partyConflict u = false := by
  unfold allows ofTicket
  simp only [Bool.and_eq_true, and_assoc, all_sessions_iff]
  rw [show ((Card.ofTicket u).ticketId != t.id) = true ↔ u.id ≠ t.id from bne_iff_ne]
  unfold Ticket.countsCompatible
  rw [Bool.and_eq_true]
  constructor
  · rintro ⟨hlow, hhigh, hid, hparties, hsessions⟩
    exact ⟨hid, ⟨hlow, hhigh⟩, hsessions, (all_party_iff hparty hid).1 hparties⟩
  · rintro ⟨hid, ⟨hlow, hhigh⟩, hsessions, hparties⟩
    exact ⟨hlow, hhigh, hid, (all_party_iff hparty hid).2 hparties, hsessions⟩

end Inquiry

namespace Shelf

variable {s : Shelf} {i : Inquiry} {found : List Hit}

/-- Cards of all names are found that are allowed and match. -/
theorem mem_map_hits_iff {id : String} :
    id ∈ (s.hits i).map Hit.ticketId ↔
      ∃ c ∈ s.cards, c.ticketId = id ∧ i.allows c = true ∧ i.query.matchesCard c = true := by
  unfold hits
  simp only [List.mem_map, List.mem_filterMap, List.mem_filter, Option.map_eq_some_iff]
  constructor
  · rintro ⟨x, ⟨c, ⟨hc, hallowed⟩, score, hscore, rfl⟩, rfl⟩
    refine ⟨c, hc, rfl, hallowed, ?_⟩
    rw [← Relevance.isSome_score c s 1.0 i.query, hscore]
    rfl
  · rintro ⟨c, hc, rfl, hallowed, hmatches⟩
    rw [← Relevance.isSome_score c s 1.0 i.query] at hmatches
    obtain ⟨score, hscore⟩ := Option.isSome_iff_exists.1 hmatches
    exact ⟨_, ⟨c, ⟨hc, hallowed⟩, score, hscore, rfl⟩, rfl⟩

/-- A search that may find as many as there are cards leaves no hit out. -/
theorem search_perm (h : s.search i = .ok found) (hlimit : s.size ≤ i.limit) :
    found.Perm (s.hits i) := by
  have hall : (s.ranking i).length ≤ i.limit := by
    have hfew := (ticketId_hits_sublist s i).length_le
    rw [List.length_map, List.length_map] at hfew
    rw [(ranking_perm s i).length_eq]
    exact Nat.le_trans hfew hlimit
  have hperm := perm_take_ranking h
  rw [List.take_of_length_le hall] at hperm
  exact hperm.trans (ranking_perm s i)

theorem probe_eq_true_iff {q : Query} {id : String} :
    s.probe q id = .ok true ↔
      q.runnable = true ∧ ∃ c ∈ s.cards, c.ticketId = id ∧ q.matchesCard c = true := by
  have hany : (s.cards.any fun c => c.ticketId == id && q.matchesCard c) = true ↔
      ∃ c ∈ s.cards, c.ticketId = id ∧ q.matchesCard c = true := by
    simp only [List.any_eq_true, Bool.and_eq_true, beq_iff_eq]
  unfold probe
  rw [← hany]
  cases q.runnable <;> simp

end Shelf

open Catalog (written)

/-- A search finds the committed tickets that match the query and may be put together with the one
who asks, each of them once, if it may find as many as there are cards. -/
theorem search_written (calls : List Writing) (t : Ticket) (q : Query) (limit : Nat)
    (hparty : t.party ≠ some "") (hlimit : (written calls).shelf.size ≤ limit) {found : List Hit}
    (hsearch : (written calls).shelf.search (.ofTicket t q limit) = .ok found) :
    (found.map Hit.ticketId).Nodup ∧
      ∀ id, id ∈ found.map Hit.ticketId ↔
        ∃ u, (Record.written calls).committed.get? id = some u ∧ u.id = id ∧
          (written calls).shelf.probe q id = .ok true ∧
          u.id ≠ t.id ∧ t.countsCompatible u = true ∧ t.sharesSession u = false ∧
          t.partyConflict u = false := by
  have hshows := mirrors_committed calls
  have hperm := Shelf.search_perm hsearch hlimit
  refine ⟨Shelf.nodup_search hsearch hshows.nodup, ?_⟩
  intro id
  rw [(hperm.map Hit.ticketId).mem_iff, Shelf.mem_map_hits_iff, Shelf.probe_eq_true_iff]
  constructor
  · rintro ⟨c, hc, rfl, hallowed, hmatches⟩
    obtain ⟨u, hu, rfl⟩ := hshows.mem_iff.1 hc
    refine ⟨u, hu, rfl, ⟨?_, _, hc, rfl, hmatches⟩, (Inquiry.allows_ofTicket_iff hparty).1 hallowed⟩
    exact Shelf.runnable_of_search hsearch
  · rintro ⟨u, hu, rfl, ⟨-, c, hc, hid, hmatches⟩, hrules⟩
    -- the card that was probed is that of the same ticket
    obtain ⟨v, hv, rfl⟩ := hshows.mem_iff.1 hc
    rw [hid, hu, Option.some.injEq] at hv
    subst hv
    exact ⟨Card.ofTicket u, hc, rfl, (Inquiry.allows_ofTicket_iff hparty).2 hrules, hmatches⟩

/-- The ticket of a user who asks for one other user, whoever it is. -/
def ticketOf (id session : String) : Ticket :=
  .ofRequest id ⟨0⟩ (.solo session session "*" 2 2 1) "*"

/-- Four tickets come, two of them of the same session, and one goes before it was committed;
another one comes too late. -/
def busyCalls : List Writing :=
  [.put (ticketOf "a" "s"), .put (ticketOf "b" "t"), .put (ticketOf "c" "s"),
    .put (ticketOf "d" "v"), .remove "d", .commit, .put (ticketOf "e" "w")]

/-- Of the others, the first ticket finds only the second. -/
theorem search_busyCalls :
    ∃ found, (written busyCalls).shelf.search (.ofTicket (ticketOf "a" "s") (.atom .all) 3) =
        .ok found ∧ (found.map Hit.ticketId).Nodup ∧
          ∀ id, id ∈ found.map Hit.ticketId ↔ id = "b" := by
  have hkeys : (Record.written busyCalls).committed.keys = ["a", "b", "c"] := by decide +kernel
  have hsearch := @Shelf.search_eq_ranking (written busyCalls).shelf
    (.ofTicket (ticketOf "a" "s") (.atom .all) 3) (by decide) rfl
  obtain ⟨hnodup, hmem⟩ := search_written busyCalls (ticketOf "a" "s") (.atom .all) 3
    (by decide +kernel) (by decide +kernel) hsearch
  refine ⟨_, hsearch, hnodup, fun id => ?_⟩
  rw [hmem]
  constructor
  · rintro ⟨u, hu, rfl, -, hne, -, hsession, -⟩
    have hid := Table.contains_iff_mem_keys.1 (Table.contains_iff.2 ⟨u, hu⟩)
    rw [hkeys] at hid
    simp only [List.mem_cons, List.not_mem_nil, or_false] at hid
    rcases hid with hid | hid | hid
    · exact absurd hid hne
    · exact hid
    · rw [hid] at hu
      have hc : (Record.written busyCalls).committed.get? "c" = some (ticketOf "c" "s") := by
        decide +kernel
      rw [hc, Option.some.injEq] at hu
      rw [← hu] at hsession
      exact absurd hsession (by decide +kernel)
  · rintro rfl
    refine ⟨ticketOf "b" "t", ?_, ?_, ?_, ?_, ?_, ?_, ?_⟩ <;> decide +kernel

end Matchmaking
