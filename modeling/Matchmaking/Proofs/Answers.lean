import Matchmaking.Proofs.Acts
import Matchmaking.Proofs.Candidates

/-!
# Answers

A card has a score for a query exactly if it matches the query, so whatever a search finds for a
ticket matches the query of that ticket. A single card is probed with the same result: `suits` holds
of a ticket and of everything that is found for it.
-/

namespace Matchmaking

open Query (Occur)

namespace Relevance

variable {c : Card}

/-! ## Clauses -/

/-- Some clauses are met together, each of them matching or not. -/
def Met (clauses : List (Occur × Bool)) : Prop :=
  (.must, false) ∉ clauses ∧ (.mustNot, true) ∉ clauses ∧
    ((.must, true) ∈ clauses ∨ (.should, true) ∈ clauses)

theorem isSome_joinScores (parts : List (Occur × Option Float32)) :
    (joinScores parts).isSome = true ↔ Met (parts.map fun p => (p.1, p.2.isSome)) := by
  have hmissing : (parts.any fun p => p.1 == .must && p.2.isNone) = true ↔
      (.must, false) ∈ parts.map fun p => (p.1, p.2.isSome) := by
    simp [List.any_eq_true]
  have hbarred : (parts.any fun p => p.1 == .mustNot && p.2.isSome) = true ↔
      (.mustNot, true) ∈ parts.map fun p => (p.1, p.2.isSome) := by
    simp [List.any_eq_true]
  have hcounted : (parts.filterMap fun p => if p.1 == .mustNot then none else p.2) ≠ [] ↔
      (.must, true) ∈ (parts.map fun p => (p.1, p.2.isSome)) ∨
        (.should, true) ∈ parts.map fun p => (p.1, p.2.isSome) := by
    induction parts with
    | nil => simp
    | cons p rest ih =>
      obtain ⟨o, x⟩ := p
      cases o <;> cases x <;> simp_all
  unfold joinScores Met
  simp only [← hmissing, ← hbarred, ← hcounted]
  split
  · rename_i h
    simp only [Bool.or_eq_true, List.isEmpty_iff] at h
    simp only [Option.isSome_none, Bool.false_eq_true, false_iff]
    rintro ⟨hm, hb, hc⟩
    rcases h with (h | h) | h
    · exact hm h
    · exact hb h
    · exact hc h
  · rename_i h
    simp only [Bool.or_eq_true, List.isEmpty_iff, not_or] at h
    exact ⟨fun _ => ⟨h.1.1, h.1.2, h.2⟩, fun _ => rfl⟩

theorem matchesCard_clauses (c : Card) (parts : List (Occur × Query)) :
    (Query.clauses parts).matchesCard c = true ↔
      Met (parts.map fun p => (p.1, p.2.matchesCard c)) := by
  have hneeded : Query.needed c parts = true ↔
      (.must, false) ∉ parts.map fun p => (p.1, p.2.matchesCard c) := by
    induction parts with
    | nil => simp [Query.needed]
    | cons p rest ih =>
      obtain ⟨o, q⟩ := p
      cases o <;> simp [Query.needed, ih]
  have hexcluded : Query.excluded c parts = true ↔
      (.mustNot, true) ∈ parts.map fun p => (p.1, p.2.matchesCard c) := by
    clear hneeded
    induction parts with
    | nil => simp [Query.excluded]
    | cons p rest ih =>
      obtain ⟨o, q⟩ := p
      cases o <;> simp [Query.excluded, ih]
  have hoptional : Query.optional c parts = true ↔
      (.should, true) ∈ parts.map fun p => (p.1, p.2.matchesCard c) := by
    clear hneeded hexcluded
    induction parts with
    | nil => simp [Query.optional]
    | cons p rest ih =>
      obtain ⟨o, q⟩ := p
      cases o <;> simp [Query.optional, ih]
  have hrequires : Query.requires parts = true ↔
      ∃ b, (.must, b) ∈ parts.map fun p => (p.1, p.2.matchesCard c) := by
    clear hneeded hexcluded hoptional
    induction parts with
    | nil => simp [Query.requires]
    | cons p rest ih =>
      obtain ⟨o, q⟩ := p
      cases o <;> simp [Query.requires, ih]
  unfold Met
  rw [← hneeded, ← hexcluded, ← hoptional, Query.matchesCard]
  simp only [Bool.and_eq_true, Bool.not_eq_true', Bool.or_eq_true, ← Bool.not_eq_true]
  constructor
  · rintro ⟨⟨hn, he⟩, h⟩
    refine ⟨hn, he, h.imp_left fun hr => ?_⟩
    -- a clause that has to match is there, and all of these do
    obtain ⟨b, hb⟩ := hrequires.1 hr
    cases b with
    | true => exact hb
    | false => exact absurd hb (hneeded.1 hn)
  · rintro ⟨hn, he, h⟩
    exact ⟨⟨hn, he⟩, h.imp_left fun hm => hrequires.2 ⟨true, hm⟩⟩

/-! ## Scores -/

mutual

/-- A card has a score exactly if it matches. -/
theorem isSome_score (c : Card) (s : Shelf) (factor : Float32) :
    ∀ q, (score c (weighQuery s factor q)).isSome = q.matchesCard c
  | .atom a => by
    rw [weighQuery, score, Query.matchesCard]
    cases a.matchesCard c <;> rfl
  | .boosted q x => by
    rw [weighQuery, Query.matchesCard]
    exact isSome_score c s _ q
  | .clauses parts => by
    rw [weighQuery, score, Bool.eq_iff_iff, isSome_joinScores, matchesCard_clauses,
      isSome_scoreParts c s factor parts]

theorem isSome_scoreParts (c : Card) (s : Shelf) (factor : Float32) :
    ∀ parts, (scoreParts c (weighParts s factor parts)).map (fun p => (p.1, p.2.isSome)) =
      parts.map fun p => (p.1, p.2.matchesCard c)
  | [] => by rw [weighParts, scoreParts]; rfl
  | (o, q) :: rest => by
    rw [weighParts, scoreParts, List.map_cons, List.map_cons, isSome_score c s factor q,
      isSome_scoreParts c s factor rest]

end

end Relevance

/-! ## What a search finds -/

namespace Shelf

variable {s : Shelf} {i : Inquiry} {found : List Hit}

theorem matchesCard_of_mem_hits {x : Hit} (h : x ∈ s.hits i) :
    ∃ c ∈ s.cards, c.ticketId = x.ticketId ∧ i.query.matchesCard c = true := by
  unfold hits at h
  obtain ⟨c, hc, hx⟩ := List.mem_filterMap.1 h
  obtain ⟨score, hscore, rfl⟩ := Option.map_eq_some_iff.1 hx
  refine ⟨c, (List.mem_filter.1 hc).1, rfl, ?_⟩
  rw [← Relevance.isSome_score c s 1.0 i.query, hscore]
  rfl

/-- What a search finds is confirmed by a probe. -/
theorem probe_of_mem_search {x : Hit} (h : s.search i = .ok found) (hx : x ∈ found) :
    s.probe i.query x.ticketId = .ok true := by
  obtain ⟨c, hc, hid, hmatches⟩ := matchesCard_of_mem_hits ((search_subperm h).subset hx)
  have hany : (s.cards.any fun c => c.ticketId == x.ticketId && i.query.matchesCard c) = true := by
    refine List.any_eq_true.2 ⟨c, hc, ?_⟩
    rw [hid, hmatches, Bool.and_true, beq_iff_eq]
  rw [probe, if_pos (runnable_of_search h), hany]

end Shelf

theorem suits_iff {s : Shelf} {a b : Pooled} :
    suits s a b = true ↔ s.probe a.query b.id = .ok true := by
  unfold suits
  cases s.probe a.query b.id <;> simp

theorem suitEachOther_iff {s : Shelf} {a b : Pooled} :
    suitEachOther s a b = true ↔ suits s a b = true ∧ suits s b a = true :=
  Bool.and_eq_true_iff

namespace Round

variable {r : Round} {outer p : Pooled} {limit : Nat}

/-- What is found for an outer ticket are other tickets that the pass sees, whose cards match its
query. -/
theorem spec_of_mem_found (hr : Clear r.shelf.cards r.tickets.tickets)
    (h : p ∈ r.found outer limit) :
    r.Sees p ∧ p.id ≠ outer.id ∧ suits r.shelf outer p = true := by
  unfold found at h
  cases hs : r.shelf.search (Inquiry.ofTicket outer.ticket outer.query limit) with
  | error f =>
    rw [hs] at h
    cases h
  | ok hits =>
    rw [hs] at h
    obtain ⟨x, hx, hget⟩ := List.mem_filterMap.1 h
    have hid := hr.keyed x.ticketId p hget
    obtain ⟨c, -, hallow, hxc⟩ := Shelf.mem_search hs hx
    have hprobe := Shelf.probe_of_mem_search hs hx
    refine ⟨?_, ?_, suits_iff.2 ?_⟩
    · rw [Sees, hid]
      exact hget
    · rw [hid, hxc]
      simp only [Inquiry.allows, Inquiry.ofTicket, Bool.and_eq_true, bne_iff_ne] at hallow
      exact hallow.1.1.2
    · rw [hid]
      exact hprobe

/-! ## Candidates -/

variable {insists : Bool}

theorem asks_candidates_of_pos (hr : Clear r.shelf.cards r.tickets.tickets) (ho : r.Sees outer)
    (hlimit : 0 < limit) : Asks r (r.candidates outer limit).2 := by
  rw [candidates_of_pos hlimit]
  exact asks_keepSuitable ho fun _ hc => (spec_of_mem_found hr hc).1

/-- Outer tickets ask for as many hits as the settings say. -/
theorem asks_candidates (hr : Clear r.shelf.cards r.tickets.tickets) (ho : r.Sees outer) :
    Asks r (r.candidates outer r.config.batchSize).2 := by
  rcases Nat.eq_zero_or_pos r.config.batchSize with hlimit | hlimit
  · rw [hlimit]
    exact .single (.breakDown (Or.inl hlimit) noHitsNotice)
  · exact asks_candidates_of_pos hr ho hlimit

/-- Whatever is asked for, a search changes nothing of what the pass sees. -/
theorem later_candidates (hr : Clear r.shelf.cards r.tickets.tickets) (ho : r.Sees outer)
    (limit : Nat) : Later r (r.candidates outer limit).2 := by
  rcases Nat.eq_zero_or_pos limit with rfl | hpos
  · exact ⟨rfl, rfl, rfl, rfl, Nat.le_refl _⟩
  · exact (asks_candidates_of_pos hr ho hpos).acts.later

theorem recalls_candidates (hr : UnderWay r) (ho : r.Sees outer) (limit : Nat) :
    (r.candidates outer limit).2.Recalls := by
  rcases Nat.eq_zero_or_pos limit with rfl | hpos
  · exact hr.recalls
  · exact (asks_candidates_of_pos hr.clear ho hpos).acts.recalls hr.recalls

/-- Candidates are those who were found, are available and may be together with the outer ticket. -/
theorem candidates_eq (hr : UnderWay r) (ho : r.Sees outer)
    (hreads : Reads insists r (r.candidates outer limit).2) :
    (r.candidates outer limit).1 =
      (r.found outer limit).filter fun c => r.isAvailable c && agree insists r.shelf outer c := by
  rcases Nat.eq_zero_or_pos limit with rfl | hlimit
  · rfl
  · rw [candidates_of_pos hlimit] at hreads ⊢
    exact keepSuitable_eq hr.recalls ho (fun _ hc => (spec_of_mem_found hr.clear hc).1) hreads

theorem spec_of_mem_candidates (hr : Clear r.shelf.cards r.tickets.tickets)
    (h : p ∈ (r.candidates outer limit).1) :
    r.Sees p ∧ p.id ≠ outer.id ∧ suits r.shelf outer p = true :=
  spec_of_mem_found hr ((candidates_sublist r outer limit).subset h)

theorem agree_of_mem_candidates (hr : UnderWay r) (ho : r.Sees outer)
    (hreads : Reads insists r (r.candidates outer limit).2)
    (h : p ∈ (r.candidates outer limit).1) : agree insists r.shelf outer p = true := by
  rw [candidates_eq hr ho hreads, List.mem_filter, Bool.and_eq_true] at h
  exact h.2.2

end Round

end Matchmaking
