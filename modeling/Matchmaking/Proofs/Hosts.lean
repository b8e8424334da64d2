import Matchmaking.Proofs.Choices
import Matchmaking.Proofs.Inquiries
import Matchmaking.Proofs.Suiting

/-!
# A host and its guest

Two tickets wait. One of them, the host, asks for anybody and accepts one size only, namely that of
the group of both; the other one, the guest, accepts this size and may ask for what it likes. A pass
that does not insist puts them together: if the guest does not find the host at its turn, the host
finds the guest. Main statements: `bookings_ne_nil` for filling greedily, `isEmpty_propose` for
trying all combinations.
-/

namespace Matchmaking

open Round (Acts Deliberates Later UnderWay)

/-- If any number of entries is a multiple and none of them may go, nobody is sent away. -/
theorem Surplus.plans_of_exact (members : List Member) {size : Nat} (h : size ≠ 0) :
    plans members size 1 size = [⟨0, []⟩] := by
  have hsteps : min size 1 = 1 := by omega
  have hexcesses : excesses size 1 size = [0] := by
    simp [excesses, Nat.mod_one, hsteps]
  rw [plans, hexcesses, if_neg (by simpa using h)]
  rfl

/-- The host asks for anybody and accepts only the number of entries that the two of them have; the
guest accepts it. -/
structure Hosts (host guest : Pooled) : Prop where
  names : guest.id ≠ host.id
  sessions : host.ticket.sharesSession guest.ticket = false
  alone : host.ticket.party = none
  anybody : host.query = .atom .all
  minCount : host.ticket.minCount = Greedy.entryCount [host, guest]
  maxCount : host.ticket.maxCount = Greedy.entryCount [host, guest]
  multiple : host.ticket.multiple = 1
  present : 0 < guest.ticket.count
  accepted : guest.ticket.acceptsSize (Greedy.entryCount [host, guest]) = true

/-- What a pass sees that does not insist are a host and its guest. -/
structure Hosted (r : Round) (host guest : Pooled) : Prop extends Hosts host guest where
  waiting : ∀ id p, r.tickets.tickets.get? id = some p ↔ (p = host ∨ p = guest) ∧ p.id = id
  mirrors : Mirrors r.shelf.cards r.tickets.tickets
  batch : r.config.batchSize ≠ 0
  closed : ∀ i, r.precision.isOpen i = false

namespace Hosts

variable {host guest : Pooled}

theorem acceptsSize (h : Hosts host guest) :
    host.ticket.acceptsSize (Greedy.entryCount [host, guest]) = true := by
  refine Ticket.acceptsSize_iff.2 ⟨Nat.le_of_eq h.minCount, Nat.le_of_eq h.maxCount.symm, ?_, ?_⟩
  · rw [h.multiple]
    exact Nat.one_pos
  · rw [h.multiple, Nat.mod_one]

/-- The two fit together as they are, so that nobody is sent away. -/
theorem finalize_eq (h : Hosts host guest) :
    Greedy.finalize host [guest] = some [host, guest] := by
  have hpresent := h.present
  have hsize : host.ticket.count + Greedy.entryCount [guest] =
      Greedy.entryCount [host, guest] := (Greedy.entryCount_cons host [guest]).symm
  have hpos : Greedy.entryCount [host, guest] ≠ 0 := by
    rw [← hsize, Greedy.entryCount_cons]
    omega
  have hplans := Surplus.plans_of_exact (Greedy.members [guest]) hpos
  have hkept : Greedy.kept ⟨0, []⟩ [guest] = [guest] := rfl
  have hsettle : Greedy.settle? host [guest] (Greedy.entryCount [host, guest]) ⟨0, []⟩ =
      some [host, guest] := by
    unfold Greedy.settle?
    simp only [hkept, Nat.sub_zero, h.acceptsSize, List.all_cons, h.accepted, List.all_nil,
      List.isEmpty_cons, Bool.not_false, Bool.and_self, if_true]
  unfold Greedy.finalize
  simp only [hsize, h.multiple, h.minCount, hplans, List.findSome?_cons, hsettle]

theorem assembleFor_eq (h : Hosts host guest) (r : Round) :
    (Greedy.assembleFor host [guest] true r).1 = some [host, guest] := by
  have hadmissible : Greedy.admissible host guest = true := by
    have hroom : host.ticket.count + guest.ticket.count ≤ host.ticket.maxCount := by
      rw [h.maxCount, Greedy.entryCount_cons, Greedy.entryCount_cons, Greedy.entryCount_nil]
      exact Nat.le_refl _
    rw [Greedy.admissible, decide_eq_true hroom, Ticket.partyConflict, h.alone]
    simp
  have hcomplete : Greedy.complete host true [] [guest] = true := by
    have hfull : host.ticket.count + Greedy.entryCount [guest] = host.ticket.maxCount := by
      rw [h.maxCount, ← Greedy.entryCount_cons]
    unfold Greedy.complete
    simp only [hfull, beq_self_eq_true, Bool.true_or]
  unfold Greedy.assembleFor Greedy.fill
  simp only [hadmissible, if_true, Greedy.place, hcomplete, h.finalize_eq]

end Hosts

namespace Hosted

variable {r r' : Round} {host guest : Pooled}

theorem later (h : Hosted r host guest) (hlater : Later r r') : Hosted r' host guest := by
  obtain ⟨hhosts, hwaiting, hmirrors, hbatch, hclosed⟩ := h
  refine ⟨hhosts, ?_, ?_, ?_, ?_⟩
  · rwa [hlater.tickets]
  · rwa [hlater.shelf, hlater.tickets]
  · rwa [hlater.config]
  · rwa [hlater.precision]

theorem sees_host (h : Hosted r host guest) : r.Sees host :=
  (h.waiting host.id host).2 ⟨Or.inl rfl, rfl⟩

theorem sees_guest (h : Hosted r host guest) : r.Sees guest :=
  (h.waiting guest.id guest).2 ⟨Or.inr rfl, rfl⟩

theorem mem_order (h : Hosted r host guest) : ∃ active, (host, active) ∈ r.order :=
  ⟨r.tickets.isActive host.id,
    Round.mem_order_iff.2 ⟨Table.mem_values_iff.2 ⟨host.id, h.sees_host⟩, rfl⟩⟩

/-! ## The host finds its guest -/

/-- A search for the host hits the card of the guest and no other one. -/
theorem exists_hits_eq (h : Hosted r host guest) (limit : Nat) :
    ∃ x, r.shelf.hits (Inquiry.ofTicket host.ticket host.query limit) = [x] ∧
      x.ticketId = guest.id := by
  have hparty : host.ticket.party ≠ some "" := by
    rw [h.alone]
    exact nofun
  have hcard : Card.ofTicket guest.ticket ∈ r.shelf.cards :=
    (h.mirrors.mem_iff _).2 ⟨guest.id, guest, h.sees_guest, rfl⟩
  have hcounts : host.ticket.countsCompatible guest.ticket = true :=
    Ticket.countsCompatible_of_acceptsSize h.acceptsSize h.accepted
  have hconflict : host.ticket.partyConflict guest.ticket = false := by
    rw [Ticket.partyConflict, h.alone]
    simp
  have hfound : guest.id ∈
      (r.shelf.hits (Inquiry.ofTicket host.ticket host.query limit)).map Hit.ticketId := by
    refine Shelf.mem_map_hits_iff.2 ⟨_, hcard, rfl, ?_, ?_⟩
    · exact (Inquiry.allows_ofTicket_iff hparty).2 ⟨h.names, hcounts, h.sessions, hconflict⟩
    · have hquery : (Inquiry.ofTicket host.ticket host.query limit).query = .atom .all := h.anybody
      rw [hquery]
      rfl
  have honly : ∀ id ∈
      (r.shelf.hits (Inquiry.ofTicket host.ticket host.query limit)).map Hit.ticketId,
      id = guest.id := by
    intro id hid
    obtain ⟨c, hc, rfl, hallowed, -⟩ := Shelf.mem_map_hits_iff.1 hid
    obtain ⟨p, hp, rfl⟩ := h.mirrors.get?_of_mem hc
    obtain ⟨hone, hname⟩ := (h.waiting _ p).1 hp
    rcases hone with rfl | rfl
    · exact absurd rfl ((Inquiry.allows_ofTicket_iff hparty).1 hallowed).1
    · rfl
  have hnodup : ((r.shelf.hits (Inquiry.ofTicket host.ticket host.query limit)).map
      Hit.ticketId).Nodup :=
    h.mirrors.nodup.sublist (Shelf.ticketId_hits_sublist _ _)
  have hids : (r.shelf.hits (Inquiry.ofTicket host.ticket host.query limit)).map Hit.ticketId =
      [guest.id] := by
    refine List.perm_singleton.1 ((List.perm_ext_iff_of_nodup hnodup
      (List.nodup_singleton _)).2 fun id => ?_)
    rw [List.mem_singleton]
    exact ⟨honly id, fun hid => hid ▸ hfound⟩
  obtain ⟨x, hhits, hx⟩ := List.map_eq_singleton_iff.1 hids
  exact ⟨x, hhits, hx⟩

theorem found_eq (h : Hosted r host guest) : r.found host r.config.batchSize = [guest] := by
  have hrunnable : host.query.runnable = true := by
    rw [h.anybody]
    rfl
  obtain ⟨x, hhits, hx⟩ := h.exists_hits_eq r.config.batchSize
  have hback : r.tickets.tickets.get? x.ticketId = some guest := by
    rw [hx]
    exact h.sees_guest
  rw [Round.found_of_hits_eq_singleton hrunnable h.batch hhits, List.filterMap_cons, hback]
  rfl

/-- As long as nobody is used up, the guest is the only candidate of its host. -/
theorem candidates_eq (h : Hosted r host guest) (hr : UnderWay r)
    (havail : r.isAvailable guest = true) :
    (r.candidates host r.config.batchSize).1 = [guest] := by
  rw [Round.candidates_eq hr h.sees_host (Round.reads_of_forall h.closed _), h.found_eq,
    List.filter_cons_of_pos (by rw [havail, agree_false]; rfl), List.filter_nil]

/-- Every interval of a host is the last one. -/
theorem isLast (h : Hosted r host guest) (active : Bool) :
    (r.beginInterval host active).1 = true := by
  have hbounds : host.ticket.minCount = host.ticket.maxCount := h.minCount.trans h.maxCount.symm
  show (r.countInterval host).isLast host active = true
  rw [Round.isLast_countInterval, hbounds, beq_self_eq_true, Bool.or_true]

/-! ## Filling greedily -/

/-- At its turn the host puts itself and its guest together, if both are left. -/
theorem choose_eq (h : Hosted r host guest) (hr : UnderWay r) (active : Bool)
    (hhost : r.isAvailable host = true) (hguest : r.isAvailable guest = true) :
    (Greedy.choose host active r).1 = some [host, guest] := by
  have hlast := h.isLast active
  have hbegin := Round.acts_beginInterval r host active
  have hdel := Round.deliberates_beginInterval r host active
  unfold Greedy.choose
  rw [if_pos hhost]
  generalize r.beginInterval host active = begun at hlast hbegin hdel ⊢
  obtain ⟨last, r₁⟩ := begun
  simp only at hlast hbegin hdel ⊢
  have hcandidates := (h.later hbegin.later).candidates_eq (hr.acts hbegin)
    ((hdel.isAvailable guest).trans hguest)
  rw [hcandidates, hlast]
  exact h.toHosts.assembleFor_eq _

end Hosted

/-- If some turns form no group, each of them was one in which the outer ticket put nobody together,
and nobody was used up before. -/
theorem Greedy.exists_choose_eq_none {order : List (Pooled × Bool)} {r : Round} (hr : UnderWay r)
    (hsees : ∀ o ∈ order, r.Sees o.1) (hnone : bookings order r = []) {o : Pooled × Bool}
    (ho : o ∈ order) :
    ∃ r', Acts r r' ∧ Deliberates r r' ∧ (choose o.1 o.2 r').1 = none := by
  induction order generalizing r with
  | nil => cases ho
  | cons first rest ih =>
    obtain ⟨outer, active⟩ := first
    have hacts := (led_of_choose hr (hsees _ List.mem_cons_self) active).1
    have hdel := (choose_spec outer active r).1
    have hchoose : (choose outer active r).1 = none := by
      unfold bookings at hnone
      generalize choose outer active r = chosen at hnone ⊢
      obtain ⟨_ | members, r₁⟩ := chosen
      · rfl
      · cases hnone
    rcases List.mem_cons.1 ho with rfl | hmem
    · exact ⟨r, .refl, .refl r, hchoose⟩
    · have hlater : bookings rest (choose outer active r).2 = [] := by
        unfold bookings at hnone
        generalize choose outer active r = chosen at hnone hchoose ⊢
        obtain ⟨choice, r₁⟩ := chosen
        simp only at hchoose
        rwa [hchoose] at hnone
      obtain ⟨r', hacts', hdel', hnone'⟩ := ih (hr.acts hacts)
        (fun o ho => hacts.sees.2 (hsees o (List.mem_cons_of_mem _ ho))) hlater hmem
      exact ⟨r', hacts.trans hacts', hdel.trans hdel', hnone'⟩

namespace Hosted

variable {r : Round} {host guest : Pooled}

/-- A pass that fills groups greedily forms a group of a host and its guest, at the turn of one of
them. -/
theorem bookings_ne_nil (h : Hosted r host guest) (hr : UnderWay r)
    (hall : ∀ p, r.isAvailable p = true) : Greedy.bookings r.order r ≠ [] := by
  intro hnone
  obtain ⟨active, hmem⟩ := h.mem_order
  obtain ⟨r', hacts, hdel, hchoose⟩ := Greedy.exists_choose_eq_none hr
    (Round.sees_of_mem_order hr.clear) hnone hmem
  have hformed := (h.later hacts.later).choose_eq (hr.acts hacts) active
    ((hdel.isAvailable host).trans (hall host)) ((hdel.isAvailable guest).trans (hall guest))
  rw [hformed] at hchoose
  cases hchoose

/-! ## Trying all combinations -/

open Exhaustive (enumerate propose proposals)

/-- The host proposes the two of them, if any candidate is considered at all. -/
theorem mem_proposals (h : Hosted r host guest) (hr : UnderWay r) (active : Bool)
    (hguest : r.isAvailable guest = true) (hconsidered : 0 < r.config.maxCustomCandidates) :
    [host, guest] ∈ proposals r (host, active) := by
  have hlast := h.isLast active
  have hbegin := Round.acts_beginInterval r host active
  have hdel := Round.deliberates_beginInterval r host active
  unfold proposals
  generalize r.beginInterval host active = begun at hlast hbegin hdel ⊢
  obtain ⟨last, r₁⟩ := begun
  simp only at hlast hbegin hdel ⊢
  have hhosted := h.later hbegin.later
  have hr₁ := hr.acts hbegin
  have hasked := Round.asks_candidates hr₁.clear hhosted.sees_host
  have hcandidates := hhosted.candidates_eq hr₁ ((hdel.isAvailable guest).trans hguest)
  generalize r₁.candidates host r₁.config.batchSize = searched at hasked hcandidates ⊢
  obtain ⟨candidates, asked⟩ := searched
  simp only at hasked hcandidates ⊢
  have hlater := hasked.acts.later
  have hbest : candidates.take asked.config.maxCustomCandidates = [guest] := by
    rw [hcandidates, List.take_of_length_le]
    rw [hlater.config, hbegin.later.config]
    exact hconsidered
  have hclosed : ∀ i, asked.precision.isOpen i = false := (hhosted.later hlater).closed
  have hsees : ∀ c ∈ [guest], asked.Sees c := by
    intro c hc
    rw [List.mem_singleton.1 hc]
    exact (hhosted.later hlater).sees_guest
  rw [hbest, hlast]
  refine (Exhaustive.mem_enumerate_iff (hr₁.acts hasked.acts).recalls hsees
    (Round.reads_of_forall hclosed _)).2 ⟨[guest], ?_, rfl⟩
  refine ⟨List.cons_ne_nil _ _, .refl _, List.pairwise_singleton _ _,
    List.pairwise_singleton _ _, fun _ => List.pairwise_singleton _ _, ?_, nofun⟩
  intro m hm
  rcases List.mem_cons.1 hm with rfl | hm
  · exact h.acceptsSize
  · rw [List.mem_singleton.1 hm]
    exact h.accepted

/-- A pass that tries all combinations finds something if a host and its guest wait. -/
theorem isEmpty_propose (h : Hosted r host guest) (hr : UnderWay r)
    (hguest : r.isAvailable guest = true) (hconsidered : 0 < r.config.maxCustomCandidates) :
    (propose r).1.isEmpty = false := by
  obtain ⟨active, hmem⟩ := h.mem_order
  exact Exhaustive.Found.isEmpty_of_isSome_members? ((Exhaustive.isSome_members?_propose hr
    h.closed).2 ⟨_, hmem, _, h.mem_proposals hr active hguest hconsidered, rfl⟩)

end Hosted

namespace Exhaustive

/-- If no candidates are considered, nothing is proposed. -/
theorem proposals_eq_nil {r : Round} (h : r.config.maxCustomCandidates = 0)
    (o : Pooled × Bool) : proposals r o = [] := by
  have hbegin := Round.deliberates_beginInterval r o.1 o.2
  unfold proposals
  generalize r.beginInterval o.1 o.2 = begun at hbegin ⊢
  obtain ⟨last, r₁⟩ := begun
  simp only at hbegin ⊢
  have hasked := Round.deliberates_candidates r₁ o.1
  rw [hasked.config, hbegin.config, h, List.take_zero, enumerate_nil]

theorem turns_eq_none {order : List (Pooled × Bool)} {r : Round}
    (h : r.config.maxCustomCandidates = 0) : (turns order .none r).1 = .none := by
  induction order generalizing r with
  | nil => rfl
  | cons o rest ih =>
    have hdel := deliberates_turn o.1 o.2 .none r
    have hnothing : (turn o.1 o.2 .none r).1 = .none := by
      rw [turn_fst, proposals_eq_nil h]
      rfl
    unfold turns
    simp only
    rw [hnothing]
    refine ih ?_
    rw [hdel.config]
    exact h

/-- If no candidates are considered, nothing is found. -/
theorem isEmpty_propose_of_no_candidates {r : Round} (h : r.config.maxCustomCandidates = 0) :
    (propose r).1.isEmpty = true := by
  rw [propose, turns_eq_none h]
  rfl

end Exhaustive

end Matchmaking
