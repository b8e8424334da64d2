import Mathlib.Data.List.Nodup
import Matchmaking.Proofs.Enumeration
import Matchmaking.Proofs.Formation
import Matchmaking.Proofs.Lists

/-!
# What is proposed

What an outer ticket proposes depends on nothing but what the pass sees, who is available and the
number of its intervals, all of which are the same at its turn as at the beginning of the pass, as
long as the pass reads the same all the time. The selector is offered what the outer tickets propose
one after the other, without those proposals whose tickets were proposed together before.
-/

namespace Matchmaking

namespace Round

variable {r : Round} {outer : Pooled} {id : String}

theorem isLast_countInterval (r : Round) (outer : Pooled) (active : Bool) :
    (r.countInterval outer).isLast outer active =
      (active || r.config.maxIntervals ≤ r.interval outer.id + 1 ||
        outer.ticket.minCount == outer.ticket.maxCount) := by
  have hcounted : (r.countInterval outer).interval outer.id = r.interval outer.id + 1 := by
    rw [interval, countInterval, Table.get?_insert_self, Option.getD_some]
  rw [isLast, hcounted]
  rfl

theorem interval_beginInterval (hid : id ≠ outer.id) (active : Bool) :
    (r.beginInterval outer active).2.interval id = r.interval id := by
  have hintervals : (r.beginInterval outer active).2.intervals =
      r.intervals.insert outer.id (r.interval outer.id + 1) := by
    unfold beginInterval
    simp only
    split <;> rfl
  rw [interval, hintervals, Table.get?_insert, if_neg hid]
  rfl

end Round

namespace Exhaustive

open Round (Acts Asks Deliberates UnderWay)

variable {insists : Bool} {r r' : Round} {o : Pooled × Bool}

/-! ## What an outer ticket proposes -/

/-- The combinations that an outer ticket proposes if its turn comes in a state of the pass. -/
def proposals (r : Round) (o : Pooled × Bool) : List (List Pooled) :=
  let (last, r) := r.beginInterval o.1 o.2
  let (candidates, r) := r.candidates o.1 r.config.batchSize
  (enumerate o.1 (candidates.take r.config.maxCustomCandidates) last r).1

theorem enumerate_nil (outer : Pooled) (last : Bool) (r : Round) :
    (enumerate outer [] last r).1 = [] := by
  simp [enumerate, rows, picks, fits, Pick.none]

theorem turn_fst (outer : Pooled) (active : Bool) (known : Found) (r : Round) :
    (turn outer active known r).1 = (proposals r (outer, active)).foldl Found.add known := by
  unfold turn proposals
  simp only
  split
  · rename_i hempty
    rw [List.isEmpty_iff.1 hempty, enumerate_nil]
    rfl
  · rfl

/-- In its turn an outer ticket begins an interval and asks questions. -/
theorem asks_turn (hr : UnderWay r) {outer : Pooled} (ho : r.Sees outer) (active : Bool)
    (known : Found) : Asks (r.beginInterval outer active).2 (turn outer active known r).2 := by
  have hbegin := Round.acts_beginInterval r outer active
  have hclear := (hr.acts hbegin).clear
  have ho₁ := hbegin.sees.2 ho
  unfold turn
  generalize r.beginInterval outer active = begun at hbegin hclear ho₁ ⊢
  obtain ⟨last, r₁⟩ := begun
  simp only at hbegin hclear ho₁ ⊢
  have hasked := Round.asks_candidates hclear ho₁
  split
  · exact hasked
  · refine hasked.trans (asks_enumerate (fun c hc => hasked.acts.sees.2 ?_)
      (List.length_take_le _ _) outer last)
    exact (Round.spec_of_mem_candidates hclear (List.mem_of_mem_take hc)).1

theorem interval_turn (hr : UnderWay r) {outer : Pooled} (ho : r.Sees outer) (active : Bool)
    (known : Found) {id : String} (hid : id ≠ outer.id) :
    (turn outer active known r).2.interval id = r.interval id := by
  have hbegin := @Round.interval_beginInterval r outer id hid active
  rw [← hbegin, Round.interval, Round.interval, (asks_turn hr ho active known).intervals]

/-- What an outer ticket proposes, said without what the pass has asked before. -/
theorem proposals_eq (hr : UnderWay r) (hgate : ∀ i, r.precision.isOpen i = insists)
    (ho : r.Sees o.1) :
    proposals r o =
      ((picks (o.1.ticket.maxCount - o.1.ticket.count) (chart (together insists r.shelf)
        (((r.found o.1 r.config.batchSize).filter fun c =>
          r.isAvailable c && agree insists r.shelf o.1 c).take
            r.config.maxCustomCandidates))).filter fun p =>
        fits o.1 ((r.countInterval o.1).isLast o.1 o.2) p.members p.count).map
          fun p => o.1 :: p.members := by
  have hlast : (r.beginInterval o.1 o.2).1 = (r.countInterval o.1).isLast o.1 o.2 := rfl
  have hbegin := Round.acts_beginInterval r o.1 o.2
  have hdel := Round.deliberates_beginInterval r o.1 o.2
  have hr₁ := hr.acts hbegin
  have ho₁ := hbegin.sees.2 ho
  unfold proposals
  rw [← hlast]
  generalize r.beginInterval o.1 o.2 = begun at hbegin hdel hr₁ ho₁ ⊢
  obtain ⟨last, r₁⟩ := begun
  simp only at hbegin hdel hr₁ ho₁ ⊢
  have hgate₁ : ∀ i, r₁.precision.isOpen i = insists := by rwa [hdel.precision]
  have hasked := Round.asks_candidates hr₁.clear ho₁
  have hsees : ∀ c ∈ (r₁.candidates o.1 r₁.config.batchSize).1.take r₁.config.maxCustomCandidates,
      (r₁.candidates o.1 r₁.config.batchSize).2.Sees c := fun c hc =>
    hasked.acts.sees.2 (Round.spec_of_mem_candidates hr₁.clear (List.mem_of_mem_take hc)).1
  rw [hasked.deliberates.config, enumerate_eq (hr₁.acts hasked.acts).recalls hsees
      (Round.reads_of_forall (by rwa [hasked.deliberates.precision]) _),
    Round.candidates_eq hr₁ ho₁ (Round.reads_of_forall hgate₁ _), hasked.deliberates.shelf,
    hdel.found, hdel.config, hdel.shelf]
  simp only [hdel.isAvailable]

/-- At its turn an outer ticket proposes what it would have proposed before. -/
theorem proposals_congr (hr : UnderWay r) (hr' : UnderWay r')
    (hgate : ∀ i, r.precision.isOpen i = insists) (ho : r.Sees o.1) (hdel : Deliberates r r')
    (hinterval : r'.interval o.1.id = r.interval o.1.id) : proposals r' o = proposals r o := by
  have ho' : r'.Sees o.1 := by
    unfold Round.Sees
    rw [hdel.tickets]
    exact ho
  have hgate' : ∀ i, r'.precision.isOpen i = insists := by rwa [hdel.precision]
  rw [proposals_eq hr hgate ho, proposals_eq hr' hgate' ho', Round.isLast_countInterval,
    Round.isLast_countInterval, hinterval, hdel.shelf, hdel.config, hdel.found]
  simp only [hdel.isAvailable]

/-- The turns of some outer tickets add what these propose. -/
theorem turns_fst {order : List (Pooled × Bool)} {known : Found} (hr : UnderWay r)
    (hr' : UnderWay r') (hgate : ∀ i, r.precision.isOpen i = insists) (hdel : Deliberates r r')
    (horder : ∀ o ∈ order, r.Sees o.1) (hnodup : (order.map fun o => o.1.id).Nodup)
    (hintervals : ∀ o ∈ order, r'.interval o.1.id = r.interval o.1.id) :
    (turns order known r').1 = (order.flatMap (proposals r)).foldl Found.add known := by
  induction order generalizing known r' with
  | nil => rfl
  | cons o rest ih =>
    obtain ⟨outer, active⟩ := o
    obtain ⟨hfresh, hnodup⟩ := List.nodup_cons.1 hnodup
    have hrest : ∀ o ∈ rest, r.Sees o.1 := fun o ho => horder o (List.mem_cons_of_mem _ ho)
    have ho : r.Sees outer := horder _ List.mem_cons_self
    have ho' : r'.Sees outer := by
      unfold Round.Sees
      rw [hdel.tickets]
      exact ho
    have hturn := asks_turn hr' ho' active known
    have hacts : Acts r' (turn outer active known r').2 :=
      (Round.acts_beginInterval r' outer active).trans hturn.acts
    have hdel' : Deliberates r (turn outer active known r').2 :=
      hdel.trans (deliberates_turn outer active known r')
    -- the turn counts an interval of this outer ticket, but of none of those to come
    have hintervals' : ∀ o ∈ rest,
        (turn outer active known r').2.interval o.1.id = r.interval o.1.id := by
      intro o' hmem
      have hne : o'.1.id ≠ outer.id := by
        intro heq
        exact hfresh (List.mem_map.2 ⟨o', hmem, heq⟩)
      rw [interval_turn hr' ho' active known hne]
      exact hintervals o' (List.mem_cons_of_mem _ hmem)
    have hsame := proposals_congr hr hr' hgate ho hdel (hintervals _ List.mem_cons_self)
    unfold turns
    simp only
    rw [ih (hr'.acts hacts) hdel' hrest hnodup hintervals', turn_fst, List.flatMap_cons,
      List.foldl_append, hsame]

/-! ## Combinations of the same tickets -/

/-- Whether two combinations consist of the same tickets. -/
def sameTickets (a b : List Pooled) : Bool :=
  decide ((∀ m ∈ a, m.id ∈ b.map Pooled.id) ∧ ∀ m ∈ b, m.id ∈ a.map Pooled.id)

theorem pairwise_keyOf (a : List Pooled) : (keyOf a).Pairwise (· ≤ ·) := by
  have htrans : ∀ x y z : String, decide (x ≤ y) = true → decide (y ≤ z) = true →
      decide (x ≤ z) = true := by
    intro x y z hxy hyz
    rw [decide_eq_true_eq] at hxy hyz ⊢
    exact String.le_trans hxy hyz
  have htotal : ∀ x y : String, (decide (x ≤ y) || decide (y ≤ x)) = true := by
    intro x y
    rw [Bool.or_eq_true, decide_eq_true_eq, decide_eq_true_eq]
    exact String.le_total x y
  exact (List.pairwise_mergeSort htrans htotal (a.map Pooled.id)).imp of_decide_eq_true

/-- Combinations without repeated tickets have the same names exactly if they consist of the same
tickets. -/
theorem keyOf_eq_iff {a b : List Pooled} (ha : (a.map Pooled.id).Nodup)
    (hb : (b.map Pooled.id).Nodup) : keyOf a = keyOf b ↔ sameTickets a b = true := by
  have hpa : (keyOf a).Perm (a.map Pooled.id) := List.mergeSort_perm _ _
  have hpb : (keyOf b).Perm (b.map Pooled.id) := List.mergeSort_perm _ _
  rw [sameTickets, decide_eq_true_eq]
  constructor
  · intro h
    rw [h] at hpa
    have hperm := hpa.symm.trans hpb
    exact ⟨fun m hm => hperm.subset (List.mem_map_of_mem hm),
      fun m hm => hperm.symm.subset (List.mem_map_of_mem hm)⟩
  · rintro ⟨hab, hba⟩
    have hperm : (a.map Pooled.id).Perm (b.map Pooled.id) := by
      refine (List.perm_ext_iff_of_nodup ha hb).2 fun id => ⟨fun h => ?_, fun h => ?_⟩
      · obtain ⟨m, hm, rfl⟩ := List.mem_map.1 h
        exact hab m hm
      · obtain ⟨m, hm, rfl⟩ := List.mem_map.1 h
        exact hba m hm
    exact List.Perm.eq_of_pairwise (fun x y _ _ hxy hyx => String.le_antisymm hxy hyx)
      (pairwise_keyOf a) (pairwise_keyOf b) ((hpa.trans hperm).trans hpb.symm)

namespace Found

variable {f : Found} {members : List Pooled}

theorem members?_add (hnew : f.members? (keyOf members) = Option.none) (key : List String) :
    (f.add members).members? key =
      if key = keyOf members then some members else f.members? key := by
  rw [add, if_neg (by simp [hnew]), members?, Std.HashMap.getElem?_insert]
  by_cases h : key = keyOf members
  · rw [if_pos h, h]
    simp
  · rw [if_neg h, if_neg (by simpa using Ne.symm h)]
    rfl

theorem toList_add (hnew : f.members? (keyOf members) = Option.none) :
    (f.add members).toList = f.toList ++ [(keyOf members, members)] := by
  rw [add, if_neg (by simp [hnew]), toList, toList, List.reverse_cons]

theorem add_of_isSome (hknown : (f.members? (keyOf members)).isSome = true) :
    f.add members = f := by
  rw [add, if_pos hknown]

/-- Of what is added, the first combination of each set of tickets is kept, unless these tickets
were together before. -/
theorem toList_foldl_add (added : List (List Pooled)) (f : Found) :
    ((added.foldl add f).toList.map Prod.snd) = f.toList.map Prod.snd ++
      (added.filter fun m => (f.members? (keyOf m)).isNone).eraseDupsBy
        fun a b => keyOf a == keyOf b := by
  induction added generalizing f with
  | nil => simp
  | cons members rest ih =>
    rw [List.foldl_cons, ih, List.filter_cons]
    cases hmembers : f.members? (keyOf members) with
    | some known =>
      rw [add_of_isSome (by rw [hmembers]; rfl)]
      simp
    | none =>
      -- from now on the names of these tickets are known as well
      have hlater : (rest.filter fun m => ((f.add members).members? (keyOf m)).isNone) =
          (rest.filter fun m => (f.members? (keyOf m)).isNone).filter fun m =>
            decide ((keyOf m == keyOf members) = false) := by
        rw [List.filter_filter]
        refine List.filter_congr fun m _ => ?_
        rw [members?_add hmembers]
        by_cases h : keyOf m = keyOf members
        · simp [h]
        · simp [h]
      rw [toList_add hmembers, hlater, Option.isNone_none, if_pos rfl, List.eraseDupsBy_cons,
        List.map_append, List.append_assoc]
      rfl

end Found

theorem nodup_of_mem_proposals (hr : UnderWay r) (hgate : ∀ i, r.precision.isOpen i = insists)
    (ho : r.Sees o.1) {members : List Pooled} (h : members ∈ proposals r o) :
    (members.map Pooled.id).Nodup := by
  rw [proposals_eq hr hgate ho] at h
  obtain ⟨p, hp, rfl⟩ := List.mem_map.1 h
  have hpicked := (mem_picks_iff.1 (List.mem_filter.1 hp).1).1
  have hsub := (hpicked.sublist.trans (List.take_sublist _ _)).trans List.filter_sublist
  rw [List.map_cons, List.nodup_cons]
  refine ⟨fun hmem => ?_,
    (Round.nodup_found hr.clear o.1 r.config.batchSize).sublist (hsub.map Pooled.id)⟩
  obtain ⟨m, hm, hid⟩ := List.mem_map.1 hmem
  exact (Round.spec_of_mem_found hr.clear (hsub.subset hm)).2.1 hid

theorem offers_propose (hr : UnderWay r) (hgate : ∀ i, r.precision.isOpen i = insists) :
    (propose r).1.offers =
      ((r.order.flatMap (proposals r)).eraseDupsBy sameTickets).map fun members =>
        ⟨members.flatMap fun m => m.ticket.entries⟩ := by
  have hsees := Round.sees_of_mem_order hr.clear
  have hfound : (propose r).1 = (r.order.flatMap (proposals r)).foldl Found.add .none :=
    turns_fst hr hr hgate (.refl r) hsees (Round.nodup_order hr.clear) fun _ _ => rfl
  have hdistinct : ∀ members ∈ r.order.flatMap (proposals r), (members.map Pooled.id).Nodup := by
    intro members hmembers
    obtain ⟨o, ho, hmem⟩ := List.mem_flatMap.1 hmembers
    exact nodup_of_mem_proposals hr hgate (hsees o ho) hmem
  have hsame : (r.order.flatMap (proposals r)).eraseDupsBy (fun a b => keyOf a == keyOf b) =
      (r.order.flatMap (proposals r)).eraseDupsBy sameTickets := by
    refine eraseDupsBy_congr fun a ha b hb => ?_
    rw [Bool.eq_iff_iff, beq_iff_eq, keyOf_eq_iff (hdistinct a ha) (hdistinct b hb)]
  have hlist := Found.toList_foldl_add (r.order.flatMap (proposals r)) .none
  have hall : ((r.order.flatMap (proposals r)).filter fun m =>
      (Found.none.members? (keyOf m)).isNone) = r.order.flatMap (proposals r) := by
    refine List.filter_eq_self.2 fun m _ => ?_
    simp [Found.members?, Found.none]
  rw [← hfound, hall, hsame] at hlist
  unfold Found.offers
  have hoffer : offer = (fun members : List Pooled =>
      (⟨members.flatMap fun m => m.ticket.entries⟩ : Proposal)) ∘ Prod.snd := rfl
  rw [hoffer, ← List.map_map, hlist]
  rfl

/-- As long as a pass reads the same all the time, whether it insists or not, exactly the right
combinations are enumerated for every outer ticket and its candidates, each of them once, however
many of these are considered (though if they are too many the pass breaks down); and the selector is
offered what the outer tickets propose, in their order, the first combination of each set of tickets
only. -/
theorem enumerate_complete (hr : UnderWay r) (hgate : ∀ i, r.precision.isOpen i = insists) :
    (∀ outer, r.Sees outer → ∀ limit cap last candidates asked,
      r.candidates outer limit = (candidates, asked) →
      let listed := (enumerate outer (candidates.take cap) last asked).1
      listed.Nodup ∧ ∀ group, group ∈ listed ↔
        ∃ others, Combines insists last r.shelf outer (candidates.take cap) others ∧
          group = outer :: others) ∧
    (propose r).1.offers =
      ((r.order.flatMap (proposals r)).eraseDupsBy sameTickets).map fun members =>
        ⟨members.flatMap fun m => m.ticket.entries⟩ := by
  refine ⟨fun outer ho limit cap last candidates asked heq => ?_, offers_propose hr hgate⟩
  have hlater := Round.later_candidates hr.clear ho limit
  have hrecalls := Round.recalls_candidates hr ho limit
  have hfound := fun c => @Round.spec_of_mem_candidates r outer c limit hr.clear
  have hdistinct := Round.nodup_candidates hr.clear outer limit
  rw [heq] at hlater hrecalls hfound hdistinct
  have hsees : ∀ c ∈ candidates.take cap, asked.Sees c := fun c hc =>
    hlater.sees.2 (hfound c (List.mem_of_mem_take hc)).1
  have hnodup : (candidates.take cap).Nodup :=
    (List.Nodup.of_map _ hdistinct).sublist (List.take_sublist _ _)
  have hgate' : ∀ i, asked.precision.isOpen i = insists := by rwa [hlater.precision]
  have hreads := Round.reads_of_forall hgate'
  refine ⟨nodup_enumerate hrecalls hsees hnodup (hreads _), fun group => ?_⟩
  rw [mem_enumerate_iff hrecalls hsees (hreads _), hlater.shelf]

end Exhaustive

namespace Service

open Exhaustive

/-- What a pass that insists sees when the two users wait who ask for a pair. -/
def insistingPair : Round := pairWaiting.prepare.round .throughout

theorem underWay_insistingPair : insistingPair.UnderWay :=
  reachable_pairWaiting.sound.underWay_round .throughout

theorem sees_firstOfPair : insistingPair.Sees firstOfPair := by
  refine Round.sees_of_mem_order underWay_insistingPair.clear (firstOfPair, false) ?_
  have horder : insistingPair.order = pairRound.order := rfl
  rw [horder, order_pairRound]
  exact List.mem_cons_self

theorem candidates_insistingPair :
    (insistingPair.candidates firstOfPair 128).1 = [secondOfPair] := by
  have hquery : firstOfPair.query.runnable = true := by decide +kernel
  have hcount : (insistingPair.shelf.hits
      (Inquiry.ofTicket firstOfPair.ticket firstOfPair.query 128)).length = 1 := by decide +kernel
  obtain ⟨x, hhits⟩ := List.length_eq_one_iff.1 hcount
  have hfound := Round.found_of_hits_eq_singleton hquery (by decide) hhits
  rw [← hhits] at hfound
  have hlength : (insistingPair.candidates firstOfPair 128).1.length = 1 := by
    rw [Round.candidates_of_pos (by decide), hfound]
    decide +kernel
  obtain ⟨c, hc⟩ := List.length_eq_one_iff.1 hlength
  -- the only other ticket that the pass sees is that of the second user
  have hmem : c ∈ (insistingPair.candidates firstOfPair 128).1 := by
    rw [hc]
    exact List.mem_singleton_self c
  obtain ⟨hsees, hne, -⟩ := Round.spec_of_mem_candidates underWay_insistingPair.clear hmem
  have hturn : (c, pairRound.tickets.isActive c.id) ∈ pairRound.order :=
    Round.mem_order_iff.2 ⟨Table.mem_values_iff.2 ⟨c.id, hsees⟩, rfl⟩
  rw [order_pairRound, List.mem_cons, List.mem_singleton] at hturn
  rcases hturn with hfirst | hsecond
  · rw [(Prod.mk.inj hfirst).1] at hne
    exact absurd rfl hne
  · rw [hc, (Prod.mk.inj hsecond).1]

/-- The two of them are the only group that is enumerated for the first one. -/
theorem enumerate_insistingPair :
    (enumerate firstOfPair ((insistingPair.candidates firstOfPair 128).1.take 24) true
      (insistingPair.candidates firstOfPair 128).2).1 = [[firstOfPair, secondOfPair]] := by
  obtain ⟨hlisted, -⟩ := enumerate_complete underWay_insistingPair fun _ => rfl
  obtain ⟨hnodup, hmem⟩ := hlisted firstOfPair sees_firstOfPair 128 24 true
    (insistingPair.candidates firstOfPair 128).1 (insistingPair.candidates firstOfPair 128).2 rfl
  have hsize : ∀ m ∈ [firstOfPair, secondOfPair],
      m.ticket.acceptsSize (Greedy.entryCount [firstOfPair, secondOfPair]) = true := by
    have hboth : firstOfPair.ticket.acceptsSize 2 = true ∧
        secondOfPair.ticket.acceptsSize 2 = true := by decide +kernel
    have hcount : Greedy.entryCount [firstOfPair, secondOfPair] = 2 := by decide +kernel
    rw [hcount]
    simpa using hboth
  refine List.perm_singleton.1 ((List.perm_ext_iff_of_nodup hnodup
    (List.nodup_singleton _)).2 fun group => ?_)
  rw [hmem group, candidates_insistingPair, List.mem_singleton]
  constructor
  · rintro ⟨others, h, rfl⟩
    rw [List.sublist_singleton.1 h.sublist |>.resolve_left h.ne]
  · rintro rfl
    exact ⟨[secondOfPair], ⟨by simp, .refl _, List.pairwise_singleton _ _,
      List.pairwise_singleton _ _, fun _ => List.pairwise_singleton _ _, hsize, by simp⟩, rfl⟩

end Service

end Matchmaking
