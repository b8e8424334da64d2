import Matchmaking.Proofs.Acts
import Matchmaking.Proofs.Agreement
import Matchmaking.Proofs.Fitting
import Matchmaking.Proofs.Passes

/-!
# Groups that are formed

A group that a pass forms is right for all of its members at once: they were waiting when the pass
began, they are distinct, they share no session and no party, and the size of the group is one that
each of them accepts.
-/

namespace Matchmaking

/-- A group is formed of some tickets of a roster and is right for all of them. -/
structure Group.FormedOf (g : Group) (roster : Roster) (members : List Ticket) : Prop where
  /-- Its entries are theirs. -/
  entries : g.entries = members.flatMap Ticket.entries
  /-- They are on the roster. -/
  registered : ∀ t ∈ members, ∃ p, roster.get? t.id = some p ∧ p.ticket = t
  /-- No ticket occurs twice. -/
  distinct : (members.map Ticket.id).Nodup
  /-- The group consists of at least two tickets. -/
  two_le : 2 ≤ members.length
  /-- Its tickets are those that it was formed of. -/
  ticketIds : g.ticketIds = members.map Ticket.id
  /-- Its size is the number of their presences. -/
  size : g.size = (members.map Ticket.count).sum
  /-- All of them accept its size. -/
  bounds : ∀ t ∈ members, t.minCount ≤ g.size ∧ g.size ≤ t.maxCount ∧ g.size % t.multiple = 0
  /-- No session occurs twice. -/
  sessions : g.sessions.Nodup
  /-- No two of them have a session or a party in common. -/
  apart : members.Pairwise fun t u =>
    t.sessions.Disjoint u.sessions ∧ ∀ party, t.party = some party → u.party ≠ some party

namespace Ticket

/-- Tickets of different names that do not clash have no session and no party in common. -/
theorem apart_of_clash {m n : Pooled} (hne : m.id ≠ n.id) (h : Greedy.clash m n = false) :
    m.ticket.sessions.Disjoint n.ticket.sessions ∧
      ∀ party, m.ticket.party = some party → n.ticket.party ≠ some party := by
  rw [Greedy.clash, Bool.or_eq_false_iff] at h
  refine ⟨fun x hxm hxn => ?_, fun party hm hn => ?_⟩
  · have hshare := sharesSession_iff.2 ⟨x, hxn, hxm⟩
    rw [h.1] at hshare
    cases hshare
  · have hids : (m.ticket.id != n.ticket.id) = true := bne_iff_ne.2 hne
    have hconflict : m.ticket.partyConflict n.ticket = true := by
      rw [partyConflict, hm, hn, hids]
      simp
    rw [h.2] at hconflict
    cases hconflict

end Ticket

theorem Fits.formedOf {roster : Roster} {members : List Pooled}
    (h : Fits roster.tickets members)
    (hadmitted : ∀ id p, roster.get? id = some p → p.ticket.Admitted) (token : String) :
    (Group.ofTickets token (members.map Pooled.ticket)).FormedOf roster
      (members.map Pooled.ticket) := by
  have hids : (members.map Pooled.ticket).map Ticket.id = members.map Pooled.id := List.map_map
  have hadm : ∀ t ∈ members.map Pooled.ticket, t.Admitted := by
    intro t ht
    obtain ⟨m, hm, rfl⟩ := List.mem_map.1 ht
    exact hadmitted m.id m (h.waiting m hm)
  have hsize : (Group.ofTickets token (members.map Pooled.ticket)).size =
      Greedy.entryCount members := by
    rw [Group.size_ofTickets, List.map_map]
    rfl
  have hapart : (members.map Pooled.ticket).Pairwise fun t u =>
      t.sessions.Disjoint u.sessions ∧ ∀ party, t.party = some party → u.party ≠ some party := by
    refine List.pairwise_map.2 ?_
    refine ((List.pairwise_map.1 h.distinct).and h.apart).imp fun hpair => ?_
    exact Ticket.apart_of_clash hpair.1 hpair.2
  refine ⟨rfl, fun t ht => ?_, ?_, ?_, ?_, Group.size_ofTickets _ _, fun t ht => ?_, ?_, hapart⟩
  · obtain ⟨m, hm, rfl⟩ := List.mem_map.1 ht
    exact ⟨m, h.waiting m hm, rfl⟩
  · rw [hids]
    exact h.distinct
  · rw [List.length_map]
    exact h.two_le
  · refine Group.ticketIds_ofTickets (fun t ht => (hadm t ht).presences_ne) ?_
    rw [hids]
    exact h.distinct
  · obtain ⟨m, hm, rfl⟩ := List.mem_map.1 ht
    rw [hsize]
    obtain ⟨hmin, hmax, -, hmultiple⟩ := Ticket.acceptsSize_iff.1 (h.accepted m hm)
    exact ⟨hmin, hmax, hmultiple⟩
  · rw [Group.sessions_ofTickets]
    exact List.nodup_flatMap.2
      ⟨fun t ht => (hadm t ht).sessions_nodup, hapart.imp fun hpair => hpair.1⟩

namespace Service

variable {s : Service}

/-- A pass begins with what it sees. -/
theorem Sound.underWay_round (h : s.Sound) (precision : Precision) :
    (s.prepare.round precision).UnderWay :=
  .start (h.round_mirrors precision).clear _ _ _ _ _

/-- What a pass forms is formed of tickets that were on the roster when it began. -/
theorem Sound.formedOf_of_mem_groupsOfPass (h : s.Sound) {precision : Precision} {g : Group}
    (hg : g ∈ s.groupsOfPass precision) : ∃ members, g.FormedOf s.roster members := by
  obtain ⟨-, hgroups⟩ := s.strategy.course_bookings s.asked (s.prepare.round precision)
  rw [groupsOfPass, hgroups] at hg
  obtain ⟨b, hb, rfl⟩ := List.mem_map.1 hg
  have hfits := s.strategy.fits_of_mem_bookings s.asked (h.round_mirrors precision) b hb
  exact ⟨_, @Fits.formedOf s.roster b.members hfits h.admitted _⟩

/-- Every group that a pass of a matchmaker reports or hands over, whatever its strategy, its
settings and the readings of its precision, is right for all of its members: they are at least two
distinct tickets that were waiting when the pass began, with no session and no party in common, and
all of them accept its size. -/
theorem formedOf_of_process (h : Reachable s) (precision : Precision) (inForming : List Intake)
    (inSettling : List (List Intake)) :
    (∀ report, (s.process precision inForming inSettling).1.outcome = .ok report →
      ∀ g ∈ report.matched, ∃ members, g.FormedOf s.roster members) ∧
    ∀ x ∈ (s.process precision inForming inSettling).1.dispatched,
      ∃ members, x.group.FormedOf s.roster members :=
  ⟨fun report hreport _ hg =>
    h.sound.formedOf_of_mem_groupsOfPass (mem_groupsOfPass (.inl ⟨report, hreport, hg⟩)),
   fun x hx => h.sound.formedOf_of_mem_groupsOfPass (mem_groupsOfPass (.inr ⟨x, hx, rfl⟩))⟩

/-! ## The pair is put together -/

/-- What a pass sees that begins when the two users wait. -/
def pairRound : Round := pairWaiting.prepare.round .off

theorem values_pairRound_ne_nil : pairRound.tickets.tickets.values ≠ [] := by
  have hempty : pairRound.tickets.tickets.values.isEmpty = false := by decide +kernel
  simpa using hempty

/-- The ticket of the first of the two. -/
def firstOfPair : Pooled := pairRound.tickets.tickets.values.head values_pairRound_ne_nil

/-- The ticket of the second. -/
def secondOfPair : Pooled := pairRound.tickets.tickets.values.getLast values_pairRound_ne_nil

theorem order_pairRound : pairRound.order = [(firstOfPair, false), (secondOfPair, false)] := by
  have hvalues : pairRound.tickets.tickets.values = [firstOfPair, secondOfPair] := by
    have hlength : pairRound.tickets.tickets.values.length = 2 := by decide +kernel
    obtain ⟨a, b, hab⟩ := List.length_eq_two.1 hlength
    simp [firstOfPair, secondOfPair, hab]
  have hfirst : pairRound.tickets.isActive firstOfPair.id = false := by decide +kernel
  have hsecond : pairRound.tickets.isActive secondOfPair.id = false := by decide +kernel
  have hbefore : Snapshot.before (firstOfPair, false) (secondOfPair, false) = true := by
    decide +kernel
  rw [Round.order, Snapshot.processingOrder, hvalues, List.map_cons, List.map_cons, List.map_nil,
    hfirst, hsecond]
  exact List.mergeSort_of_pairwise (by simp [hbefore])

/-- Whether the pass insists or not, the first of the two forms a group. -/
theorem isSome_turn_firstOfPair {precision : Precision}
    (h : precision = .off ∨ precision = .throughout) :
    (Greedy.turn firstOfPair false (pairWaiting.prepare.round precision)).1.isSome = true := by
  have havail : (pairWaiting.prepare.round precision).isAvailable firstOfPair = true := by
    rcases h with rfl | rfl <;> decide +kernel
  have hquery : firstOfPair.query.runnable = true := by decide +kernel
  have hlimit : pairRound.config.batchSize ≠ 0 := by decide +kernel
  have hcount : (pairRound.shelf.hits (Inquiry.ofTicket firstOfPair.ticket firstOfPair.query
      pairRound.config.batchSize)).length = 1 := by decide +kernel
  obtain ⟨x, hhits⟩ := List.length_eq_one_iff.1 hcount
  have hfound := @Round.found_of_hits_eq_singleton (pairWaiting.prepare.round precision) _ _ _
    hquery hlimit hhits
  rw [← hhits] at hfound
  have hbegin := Round.deliberates_beginInterval (pairWaiting.prepare.round precision)
    firstOfPair false
  have hconfig : pairRound.config =
      ((pairWaiting.prepare.round precision).beginInterval firstOfPair false).2.config :=
    hbegin.config.symm
  rw [hconfig, ← hbegin.found] at hfound
  unfold Greedy.turn
  rw [if_pos havail]
  simp only [Round.candidates, hfound]
  rcases h with rfl | rfl <;> decide +kernel

theorem exists_mem_groupsOfPass_of_pair {precision : Precision}
    (h : precision = .off ∨ precision = .throughout) :
    ∃ g, g ∈ pairWaiting.groupsOfPass precision := by
  obtain ⟨g, hg⟩ := Option.isSome_iff_exists.1 (isSome_turn_firstOfPair h)
  have hunbroken := Greedy.unbroken_turns (r := pairWaiting.prepare.round precision) rfl
    reachable_pairWaiting.limits.inRange
  have hgroups : pairWaiting.groupsOfPass precision =
      (Greedy.turns pairRound.order (pairWaiting.prepare.round precision)).1 :=
    groups_of_ok (congrArg Prod.fst (Greedy.assemble_of_unbroken hunbroken))
  refine ⟨g, ?_⟩
  rw [hgroups, order_pairRound, Greedy.turns]
  simp [hg]

theorem exists_mem_groupsOfPass_pairWaiting : ∃ g, g ∈ pairWaiting.groupsOfPass .off :=
  exists_mem_groupsOfPass_of_pair (.inl rfl)

/-- A pass puts the two users together. -/
theorem formedOf_pairWaiting :
    ∃ report g members, (pairWaiting.process .off [] []).1.outcome = .ok report ∧
      g ∈ report.matched ∧ g.FormedOf pairWaiting.roster members := by
  have hready : pairWaiting.poisoned = false := by decide +kernel
  have hgreedy : pairWaiting.strategy = .greedy := rfl
  obtain ⟨g, hg⟩ := exists_mem_groupsOfPass_pairWaiting
  obtain ⟨report, hreport, hmatched⟩ := exists_matched_of_greedy hgreedy hready
    reachable_pairWaiting.limits.inRange .off [] []
  rw [← hmatched] at hg
  obtain ⟨members, hmembers⟩ :=
    (formedOf_of_process reachable_pairWaiting .off [] []).1 report hreport g hg
  exact ⟨report, g, members, hreport, hg, hmembers⟩

end Service

end Matchmaking
