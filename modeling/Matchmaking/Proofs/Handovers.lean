import Matchmaking.Proofs.Departures
import Matchmaking.Proofs.Offers
import Matchmaking.Proofs.Formation

/-!
# What is left when groups are handed over

A pass takes the tickets of all its groups off the roster and out of the catalog before it hands
over the first of them. Clients may submit and withdraw then, but the names of these tickets are not
given again, and nothing is committed until the next pass. So at every hand-over nothing is left of
any ticket of any of the groups. Main statement: `handsOver_of_process`.
-/

namespace Matchmaking

namespace Service

variable {s : Service} {id : String} {ids : List String}

/-! ## Tickets that are gone -/

theorem Sound.isActive_eq_false (h : s.Sound) (hgone : s.roster.get? id = none) :
    s.isActive id = false :=
  Roster.OnlyWaitingActive.isActive_eq_false h.active hgone

theorem Sound.notMem_contents (h : s.Sound) (hgone : s.roster.get? id = none) :
    id ∉ s.catalog.contents.map Card.ticketId := by
  intro hid
  obtain ⟨c, hc, rfl⟩ := List.mem_map.1 hid
  obtain ⟨p, hp, -⟩ := h.mirrors.get?_of_mem hc
  exact Option.some_ne_none p (hp.symm.trans hgone)

/-- Nothing is left of a ticket: it does not wait, is not active, counts for no session and for no
party, and has no card on the shelf. -/
structure Gone (s : Service) (id : String) : Prop where
  ticket : s.ticket? id = none
  inactive : s.isActive id = false
  session : ∀ x, id ∉ s.roster.ofSession x
  party : ∀ x, id ∉ s.roster.ofParty x
  card : id ∉ s.catalog.shelf.cards.map Card.ticketId

theorem Sound.gone (h : s.Sound) (hfiled : s.Filed) (hgone : s.roster.get? id = none)
    (hcard : id ∉ s.catalog.shelf.cards.map Card.ticketId) : s.Gone id := by
  refine ⟨Option.map_eq_none_iff.2 hgone, h.isActive_eq_false hgone, fun x hx => ?_,
    fun x hx => ?_, hcard⟩
  · obtain ⟨p, hp, -⟩ := hfiled.indexed.mem_ofSession.1 hx
    exact Option.some_ne_none p (hp.symm.trans hgone)
  · obtain ⟨p, hp, -⟩ := hfiled.indexed.mem_ofParty.1 hx
    exact Option.some_ne_none p (hp.symm.trans hgone)

/-! ## Retiring -/

theorem get?_retire (s : Service) (hid : id ∈ ids) : (retire ids s).roster.get? id = none := by
  rw [retire_eq]
  show (ids.foldl Roster.remove s.roster).get? id = none
  rw [Roster.get?_foldl_remove, if_pos hid]

/-- What is retired is committed at once. -/
theorem cards_retire (hne : ids ≠ []) (s : Service) :
    (retire ids s).catalog.shelf.cards = (retire ids s).catalog.contents := by
  have hcatalog : (retire ids s).catalog = (s.catalog.removeAll ids).commit := by
    rw [retire, List.isEmpty_eq_false_iff.2 hne, if_neg Bool.false_ne_true]
  rw [hcatalog, Catalog.contents_commit, Catalog.cards_commit]

theorem Sound.notMem_cards_retire (h : s.Sound) (hid : id ∈ ids) :
    id ∉ (retire ids s).catalog.shelf.cards.map Card.ticketId := by
  have hsound : (retire ids s).Sound := (moves_retire ids s).keep Move.sound h
  rw [cards_retire (List.ne_nil_of_mem hid) s]
  exact hsound.notMem_contents (get?_retire s hid)

/-! ## Handing over -/

/-- What outlasts the calls of clients holds at every hand-over. -/
theorem Lasting.seen {P : Service → Prop} (h : Lasting P) {groups : List Group}
    {calls : List (List Intake)} {x : Handover} (hs : P s)
    (hx : x ∈ (Service.handOver groups calls s).1.1) : P x.seen := by
  induction groups generalizing calls s with
  | nil => cases hx
  | cons g rest ih =>
    have hcalls := h.performAll (calls.headD []) hs
    rcases List.mem_cons.1 hx with rfl | hx
    · exact hcalls
    · exact ih hcalls hx

/-- Clients do not commit. -/
theorem shelf_seen {groups : List Group} {calls : List (List Intake)} {x : Handover}
    (hx : x ∈ (handOver groups calls s).1.1) : x.seen.catalog.shelf = s.catalog.shelf := by
  have hlasting : Lasting fun s' => s'.catalog.shelf = s.catalog.shelf :=
    ⟨fun _ hs => hs, fun _ hs => hs, fun _ hs => hs⟩
  exact hlasting.seen rfl hx

/-- Clients do not commit before the first hand-over either. -/
theorem shelf_settled (groups : List Group) (promotions : List String) (calls : List Intake)
    (s : Service) : (s.settled groups promotions calls).catalog.shelf =
      (retire (matchedIds groups) s).catalog.shelf := by
  have hlasting : Lasting fun s' =>
      s'.catalog.shelf = (retire (matchedIds groups) s).catalog.shelf :=
    ⟨fun _ hs => hs, fun _ hs => hs, fun _ hs => hs⟩
  rw [settled, promoteAll_snd]
  exact hlasting.performAll calls rfl

variable {precision : Precision} {inForming : List Intake} {inSettling : List (List Intake)}
  {x : Handover} {g : Group}

/-- Tickets are handed over whose names were given out before the pass began. -/
theorem Reachable.named_of_mem_groupsOfPass (h : Reachable s) (hfresh : s.FreshNames)
    (hg : g ∈ s.groupsOfPass precision) (hid : id ∈ g.ticketIds) : s.Named id := by
  obtain ⟨members, hmembers⟩ := h.sound.formedOf_of_mem_groupsOfPass hg
  rw [hmembers.ticketIds] at hid
  obtain ⟨t, ht, rfl⟩ := List.mem_map.1 hid
  obtain ⟨p, hp, -⟩ := hmembers.registered t ht
  exact ((Unlocked.idle h).filed hfresh).named t.id p hp

/-- While a pass hands over its groups, nothing is left of any of their tickets. -/
theorem Reachable.gone_seen (h : Reachable s)
    (hfresh : (s.process precision inForming inSettling).2.FreshNames)
    (hx : x ∈ (s.process precision inForming inSettling).1.dispatched)
    (hg : g ∈ s.groupsOfPass precision) (hid : id ∈ g.ticketIds) : x.seen.Gone id := by
  have hstart : s.FreshNames := hfresh.of_moves (moves_process s precision inForming inSettling).1
  have hnamed : s.Named id := h.named_of_mem_groupsOfPass hstart hg hid
  have hunlocked : Unlocked x.seen := .handingOver h hx []
  have hends := ends_process s precision inForming inSettling
  generalize s.process precision inForming inSettling = result at hends hfresh hx
  cases hends with
  | poisoned hpoisoned => cases hx
  | idle hready hempty => cases hx
  | @formed hready hsome a s₁ ha groups hgroups =>
    rw [groupsOfPass_of_ok ha hgroups] at hg
    have hmatched : id ∈ matchedIds groups := mem_matchedIds.2 ⟨g, hg, hid⟩
    have hresumed : Moves s (s₁.resume a) := moves_resume ha
    rw [dispatched_conclude] at hx
    rw [conclude_snd] at hfresh
    have hfresh' : x.seen.FreshNames := hfresh.of_moves (moves_of_mem_handOver hx)
    refine hunlocked.sound.gone (hunlocked.filed hfresh') ?_ ?_
    · -- no ticket that was accepted since then has this name
      have hretired := hresumed.trans (moves_retire (matchedIds groups) (s₁.resume a))
      have hseen : Moves (retire (matchedIds groups) (s₁.resume a)) x.seen :=
        ((moves_performAll (inSettling.headD []) _).trans
          (moves_promoteAll (a.promoted groups) _)).trans ((moves_handOver groups _ _).2 x hx)
      exact hseen.get?_eq_none hfresh' (hnamed.of_moves hretired) (get?_retire _ hmatched)
    · have hsound : (s₁.resume a).Sound := hresumed.keep Move.sound h.sound
      rw [shelf_seen hx, shelf_settled]
      exact hsound.notMem_cards_retire hmatched
  | refused hready hsome ha hgroups => cases hx
  | crashed hready hsome ha hgroups => cases hx

/-! ## Whole passes -/

/-- How a pass hands over the groups that it reports. -/
structure HandsOver (pass : Pass) (report : Report) : Prop where
  /-- Each of them is handed over once, in their order. -/
  inOrder : pass.dispatched.map Handover.group = report.matched
  /-- Whenever one of them is handed over, nothing is left of any ticket of any of them. -/
  gone : ∀ x ∈ pass.dispatched, ∀ g ∈ report.matched, ∀ id ∈ g.ticketIds, x.seen.Gone id

/-- A pass that comes to a report hands over the groups of the report, when nothing is left any more
of their tickets, whatever clients do while it hands over others; a pass that is refused or breaks
down hands over nothing. -/
theorem handsOver_of_process (h : Reachable s) (precision : Precision) (inForming : List Intake)
    (inSettling : List (List Intake))
    (hfresh : (s.process precision inForming inSettling).2.FreshNames) :
    (∀ report, (s.process precision inForming inSettling).1.outcome = .ok report →
      HandsOver (s.process precision inForming inSettling).1 report) ∧
    ∀ failure, (s.process precision inForming inSettling).1.outcome = .error failure →
      (s.process precision inForming inSettling).1.dispatched = [] := by
  obtain ⟨hreported, hfailed⟩ := dispatched_process s precision inForming inSettling
  refine ⟨fun report hreport => ⟨hreported report hreport, fun x hx g hg id hid => ?_⟩, hfailed⟩
  exact h.gone_seen hfresh hx (mem_groupsOfPass (.inl ⟨report, hreport, hg⟩)) hid

/-- As soon as the two users are put together one of them asks for another pair, and the other one
leaves. -/
def onceMore : List Intake :=
  [.submit none (.solo "s" "u" "*" 2 2 1), .removeSessionAll "t"]

/-- They call as soon as their tickets are retired. -/
def afterRetiring : List (List Intake) := [onceMore]

/-- Nothing is left of the tickets of the two when they are handed over. -/
theorem handsOver_pairWaiting :
    ∃ report, (pairWaiting.process .off [] afterRetiring).1.outcome = .ok report ∧
      report.matched ≠ [] ∧ HandsOver (pairWaiting.process .off [] afterRetiring).1 report := by
  have hready : pairWaiting.poisoned = false := by decide +kernel
  have hfresh : (pairWaiting.process .off [] afterRetiring).2.FreshNames :=
    freshNames_of_moves strokes_injective (moves_process pairWaiting .off [] afterRetiring).1
  obtain ⟨report, hreport, hmatched⟩ := @exists_matched_of_greedy pairWaiting rfl hready
    reachable_pairWaiting.limits.inRange .off [] afterRetiring
  obtain ⟨g, hg⟩ := exists_mem_groupsOfPass_pairWaiting
  refine ⟨report, hreport, ?_, ?_⟩
  · rw [hmatched]
    exact List.ne_nil_of_mem hg
  · exact (handsOver_of_process reachable_pairWaiting .off [] afterRetiring hfresh).1 report hreport

end Service

end Matchmaking
