import Matchmaking.Proofs.Choices
import Matchmaking.Proofs.Offers
import Matchmaking.Proofs.Exchange

/-!
# Passes whose selector chooses

A pass forms the groups of the honoured choices, and nothing else hangs on what its selector
answers. So a selector can neither make up a group nor change one, and choices that are not honoured
change nothing at all. Main statement: `process_of_choices`.
-/

namespace Matchmaking

open Exhaustive

namespace Service

variable {s : Service} {selector : Selector} {precision : Precision} {inForming : List Intake}
  {inSettling : List (List Intake)} {offers choices : List Proposal}

theorem Sound.legible_propose (h : s.Sound) (precision : Precision) :
    (propose (s.prepare.round precision)).1.Legible :=
  Exhaustive.legible_propose (h.round_mirrors precision) fun id p hp =>
    (h.admitted id p hp).presences_ne

theorem Sound.of_mem_offers (h : s.Sound) {p : Proposal}
    (hp : p ∈ (propose (s.prepare.round precision)).1.offers) :
    ∃ outer others, p.Of s.roster (s.prepare.round precision) outer others := by
  obtain ⟨c, hc, rfl⟩ := Found.Legible.mem_offers.1 hp
  have hfits := allFit_propose (h.round_mirrors precision) c hc
  obtain ⟨o, ho, r₁, hacts, hmem⟩ := proposed_propose (h.underWay_round precision) c hc
  have hlisted := hmem
  unfold proposals at hlisted
  obtain ⟨others, hmembers, -⟩ := enumerate_spec hlisted
  have hwaiting := hfits.waiting
  have hdistinct := hfits.distinct
  rw [hmembers] at hmem hwaiting hdistinct
  refine ⟨o.1, others, ?_, hwaiting, hdistinct, o.2, r₁, ho, hacts, hmem⟩
  rw [offer, hmembers]

/-- A pass whose selector chooses forms the groups of the honoured choices. -/
theorem Sound.assemble_of_choices (h : s.Sound)
    (hunbroken : (propose (s.prepare.round precision)).2.breakdown = none)
    (hfound : (propose (s.prepare.round precision)).1.isEmpty = false)
    (hchoices : selector s.asked (propose (s.prepare.round precision)).1.offers = .ok choices) :
    Exhaustive.assemble selector s.asked (s.prepare.round precision) =
      (.ok (formHonoured (propose (s.prepare.round precision)).1 choices
          (propose (s.prepare.round precision)).2).1,
        (formHonoured (propose (s.prepare.round precision)).1 choices
          (propose (s.prepare.round precision)).2).2) := by
  have hdel := deliberates_propose (s.prepare.round precision)
  have hunused : Uses (propose (s.prepare.round precision)).2 [] := by
    refine ⟨fun id => ?_, fun x => ?_⟩
    · rw [hdel.consumed]
      simp [round, Round.start]
    · rw [hdel.consumedSessions]
      simp [round, Round.start]
  rw [assemble_of_unbroken hunbroken, settle_of_ok hfound hchoices,
    formChosen_eq (h.legible_propose precision) choices hunused]
  rfl

/-- Whatever a selector answers, its choices are read one after the other, and a choice is honoured
exactly if its tickets are those of a proposal that has no ticket and no session in common with
those honoured before. The groups that are formed and handed over have the entries of the honoured
proposals, which are all entries of registered tickets. An answer of which the same proposals are
honoured leads to the same pass and to the same state, and one such answer are the honoured
proposals themselves. -/
theorem process_of_choices (h : Reachable s) (hselected : s.strategy = .selected selector)
    (hoffered : (s.process precision inForming inSettling).1.offered = some offers)
    (hchoices : selector s.asked offers = .ok choices) :
    (∃ report, (s.process precision inForming inSettling).1.outcome = .ok report ∧
      report.matched.map Group.entries = (honoured offers [] choices).map Proposal.entries ∧
      (s.process precision inForming inSettling).1.dispatched.map Handover.group =
        report.matched) ∧
    (offers.map Proposal.ticketKey).Nodup ∧
    (∀ p ∈ offers, ∃ outer others, p.Of s.roster (s.prepare.round precision) outer others) ∧
    (∀ (selector' : Selector) (choices' : List Proposal),
      selector' s.asked offers = .ok choices' →
      honoured offers [] choices' = honoured offers [] choices →
      (s.withStrategy (.selected selector')).process precision inForming inSettling =
        ((s.process precision inForming inSettling).1.withStrategy (.selected selector'),
          (s.process precision inForming inSettling).2.withStrategy (.selected selector'))) ∧
    honoured offers [] (honoured offers [] choices) = honoured offers [] choices := by
  have hsound := h.sound
  have hprepared : s.prepare.strategy = .selected selector := hselected
  obtain ⟨-, hunbroken, hfound, rfl⟩ := (offered_process_iff hselected).1 hoffered
  have hlegible := hsound.legible_propose precision
  have hassembled := hsound.assemble_of_choices hunbroken hfound hchoices
  refine ⟨?_, hlegible.nodup_offers, fun p hp => hsound.of_mem_offers hp, ?_,
    honoured_honoured hlegible.nodup_offers choices []⟩
  · have hgroups : ∀ {a s₁}, s.prepare.assemble precision inForming = (a, s₁) → a.groups =
        .ok (formHonoured (propose (s.prepare.round precision)).1 choices
          (propose (s.prepare.round precision)).2).1 := by
      intro a s₁ ha
      have hall := (assemble_outcome s.prepare precision inForming).1
      rw [ha, hprepared] at hall
      exact hall.trans (congrArg Prod.fst hassembled)
    have hends := ends_process s precision inForming inSettling
    generalize s.process precision inForming inSettling = result at hends hoffered ⊢
    cases hends with
    | poisoned hpoisoned => cases hoffered
    | idle hready hempty => cases hoffered
    | formed hready hsome ha hformed =>
      rw [hgroups ha] at hformed
      rw [← Except.ok.inj hformed]
      exact ⟨_, rfl, entries_formHonoured hlegible choices _, map_group_handOver _ _ _⟩
    | refused hready hsome ha hrefused =>
      rw [hgroups ha] at hrefused
      cases hrefused
    | crashed hready hsome ha hcrashed =>
      rw [hgroups ha] at hcrashed
      cases hcrashed
  · intro selector' choices' hchoices' hsame
    refine process_withStrategy hselected precision ?_ inForming inSettling
    rw [hassembled, hsound.assemble_of_choices hunbroken hfound hchoices', formHonoured_congr hsame]

/-! ## Two users and a selector -/

theorem run_withStrategy (calls : List Intake) (s : Service) (t : Strategy) :
    (s.withStrategy t).run (calls.map .call) = (s.run (calls.map .call)).withStrategy t := by
  induction calls generalizing s with
  | nil => rfl
  | cons call rest ih =>
    have hcall : (s.withStrategy t).step (.call call) = (s.step (.call call)).withStrategy t :=
      congrArg Prod.snd (perform_withStrategy s call)
    simp only [run, List.map_cons, List.foldl_cons] at ih ⊢
    rw [hcall, ih]

theorem reachable_pairWaiting_withStrategy (t : Strategy) :
    Reachable (pairWaiting.withStrategy t) := by
  rw [pairWaiting, ← run_withStrategy]
  exact (Reachable.created (create_standard t strokes)).run _

theorem proposals_insistingPair_ne_nil : proposals insistingPair (firstOfPair, false) ≠ [] := by
  have hquery : firstOfPair.query.runnable = true := by decide +kernel
  have hlimit : insistingPair.config.batchSize ≠ 0 := by decide +kernel
  have hcount : (insistingPair.shelf.hits
      (Inquiry.ofTicket firstOfPair.ticket firstOfPair.query 128)).length = 1 := by decide +kernel
  obtain ⟨x, hhits⟩ := List.length_eq_one_iff.1 hcount
  -- one hit is found whatever the limit, so that the candidates are known
  have hfound : insistingPair.found firstOfPair insistingPair.config.batchSize =
      insistingPair.found firstOfPair 128 := by
    rw [Round.found_of_hits_eq_singleton hquery hlimit hhits,
      Round.found_of_hits_eq_singleton hquery (by decide) hhits]
  have hsuitable := @Round.candidates_eq insistingPair firstOfPair 128 true underWay_insistingPair
    sees_firstOfPair (Round.reads_of_forall (fun _ => rfl) _)
  rw [candidates_insistingPair] at hsuitable
  intro hnil
  have hlength : (proposals insistingPair (firstOfPair, false)).length = 1 := by
    rw [@proposals_eq true insistingPair _ underWay_insistingPair (fun _ => rfl) sees_firstOfPair,
      hfound, ← hsuitable]
    decide +kernel
  rw [hnil] at hlength
  cases hlength

theorem isEmpty_propose_insistingPair : (propose insistingPair).1.isEmpty = false := by
  obtain ⟨members, rest, hproposals⟩ := List.exists_cons_of_ne_nil proposals_insistingPair_ne_nil
  have horder : (firstOfPair, false) ∈ insistingPair.order := by
    rw [show insistingPair.order = pairRound.order from rfl, order_pairRound]
    exact List.mem_cons_self
  have hmem : members ∈ proposals insistingPair (firstOfPair, false) := by
    rw [hproposals]
    exact List.mem_cons_self
  exact Found.isEmpty_of_isSome_members?
    ((isSome_members?_propose underWay_insistingPair fun _ => rfl).2 ⟨_, horder, _, hmem, rfl⟩)

theorem unbroken_insistingPair : (propose insistingPair).2.breakdown = none :=
  unbroken_propose rfl reachable_pairWaiting.limits.inRange

/-- Whatever its selector is, a pass that insists offers something when the two wait. -/
theorem offered_pairWaiting (selector : Selector) :
    ((pairWaiting.withStrategy (.selected selector)).process .throughout [] []).1.offered =
      some (propose insistingPair).1.offers := by
  have hready : pairWaiting.poisoned = false := by decide +kernel
  exact (@offered_process_iff (pairWaiting.withStrategy (.selected selector)) selector .throughout
    [] rfl [] _).2 ⟨hready, unbroken_insistingPair, isEmpty_propose_insistingPair, rfl⟩

/-- A matchmaker at which the two wait and whose selector takes all that it is offered. -/
def takingAll : Service := pairWaiting.withStrategy (.selected fun _ ps => .ok ps)

/-- The first group that it is offered is formed. -/
theorem process_takingAll : ∃ offers report,
    (takingAll.process .throughout [] []).1.offered = some offers ∧
    (takingAll.process .throughout [] []).1.outcome = .ok report ∧
    (report.matched.map Group.entries).head? = offers.head?.map Proposal.entries ∧
    report.matched ≠ [] := by
  obtain ⟨⟨report, hreport, hmatched, -⟩, hkeys, -⟩ := process_of_choices
    (reachable_pairWaiting_withStrategy (.selected fun _ ps => .ok ps)) rfl
    (offered_pairWaiting fun _ ps => .ok ps) rfl
  refine ⟨_, report, offered_pairWaiting fun _ ps => .ok ps, hreport, ?_⟩
  obtain ⟨q, hq⟩ := Found.isEmpty_eq_false_iff.1 isEmpty_propose_insistingPair
  cases hoffers : (propose insistingPair).1.offers with
  | nil =>
    rw [hoffers] at hq
    cases hq
  | cons p rest =>
    rw [hoffers] at hmatched hkeys
    have hfirst := @find?_eq_of_mem p [] (p :: rest) hkeys List.mem_cons_self
    rw [honoured, hfirst] at hmatched
    have hmatched : report.matched.map Group.entries =
      p.entries :: (honoured (p :: rest) [p] rest).map Proposal.entries := hmatched
    refine ⟨?_, ?_⟩
    · rw [hmatched]
      rfl
    · intro hnil
      rw [hnil] at hmatched
      cases hmatched

end Service

end Matchmaking
