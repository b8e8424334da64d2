import Mathlib.Data.List.Pairwise
import Matchmaking.Proofs.Refinement

/-!
# Members that suit each other

The first member of a group is the outer ticket that put it together, and its query matches the
cards of all other members, since a search has found them. If all that a pass reads while it forms
its groups insists, any two members suit each other: the outer ticket and the others because these
are its candidates, the others because the pass was answered so when they came into one buffer or
into one combination.
-/

namespace Matchmaking

open Round (Acts Asks Later Reads UnderWay)

/-- A group is led by its first member, whose query matches the cards of all others; and if all that
the pass has read between two of its states insists, all members suit each other. -/
structure Led (r r' : Round) (members : List Pooled) : Prop where
  first : ∃ outer others, members = outer :: others ∧ ∀ m ∈ others, suits r.shelf outer m = true
  mutually : Reads true r r' → members.Pairwise fun m n => suitEachOther r.shelf m n = true

variable {r r' r₁ r₂ asked : Round} {outer : Pooled} {candidates members others : List Pooled}

/-- What holds over a while holds over a longer one. -/
theorem Led.widen (h : Led r₁ r₂ members) (hbefore : Later r r₁) (hafter : Later r₂ r') :
    Led r r' members := by
  obtain ⟨hfirst, hmutually⟩ := h
  rw [hbefore.shelf] at hfirst hmutually
  exact ⟨hfirst, fun hreads => hmutually ((hreads.right hbefore).left hafter)⟩

/-- An outer ticket leads some of its candidates, provided these suit one another. -/
theorem led_of_candidates (hr : UnderWay r) (ho : r.Sees outer) {limit : Nat}
    (heq : r.candidates outer limit = (candidates, asked)) (hsub : others.Sublist candidates)
    (hlater : Later asked r') (hothers : Reads true asked r' →
      others.Pairwise fun m n => suitEachOther r.shelf m n = true) :
    Led r r' (outer :: others) := by
  have hasked := Round.later_candidates hr.clear ho limit
  have hfound := fun m => @Round.spec_of_mem_candidates r outer m limit hr.clear
  have hagree := fun m => @Round.agree_of_mem_candidates r outer m limit true hr ho
  rw [heq] at hasked hfound hagree
  refine ⟨⟨outer, others, rfl, fun m hm => (hfound m (hsub.subset hm)).2.2⟩, fun hreads => ?_⟩
  refine List.pairwise_cons.2 ⟨fun m hm => ?_, hothers (hreads.right hasked)⟩
  exact hagree m (hreads.left hlater) (hsub.subset hm)

/-! ## Filling greedily -/

namespace Greedy

theorem led_of_choose (hr : UnderWay r) (ho : r.Sees outer) (active : Bool) :
    Acts r (choose outer active r).2 ∧ ∀ members, (choose outer active r).1 = some members →
      Led r (choose outer active r).2 members := by
  unfold choose
  split
  · have hbegin := Round.acts_beginInterval r outer active
    have hr₁ := hr.acts hbegin
    have ho₁ := hbegin.sees.2 ho
    simp only
    generalize r.beginInterval outer active = begun at hbegin hr₁ ho₁ ⊢
    obtain ⟨last, r₁⟩ := begun
    simp only at hbegin hr₁ ho₁ ⊢
    have hasked := Round.asks_candidates hr₁.clear ho₁
    have hfound := fun m => @Round.spec_of_mem_candidates r₁ outer m r₁.config.batchSize hr₁.clear
    cases heq : r₁.candidates outer r₁.config.batchSize with
    | mk candidates asked =>
      rw [heq] at hasked hfound
      have hsees : ∀ c ∈ candidates, asked.Sees c := fun c hc =>
        hasked.acts.sees.2 (hfound c hc).1
      simp only
      split
      · refine ⟨hbegin.trans hasked.acts, fun members h => ?_⟩
        cases h
      · obtain ⟨hassembled, hgroup⟩ := @assembleFor_agreeing true candidates asked
          (hr₁.acts hasked.acts).recalls hsees outer last
        refine ⟨(hbegin.trans hasked.acts).trans hassembled.acts, fun members h => ?_⟩
        obtain ⟨b, hb, hfin, hagree⟩ := hgroup members h
        obtain ⟨others, rfl, -, hsub, -⟩ := finalize_spec hfin
        refine (led_of_candidates hr₁ ho₁ heq (hsub.trans hb.sub) hassembled.acts.later
          fun hreads => ?_).widen hbegin.later (.refl _)
        rw [← hasked.deliberates.shelf]
        exact (hagree hreads).sublist hsub
  · refine ⟨.refl, fun members h => ?_⟩
    cases h

/-- Over some turns, every group is led by an outer ticket. -/
theorem led_of_mem_bookings {order : List (Pooled × Bool)} (hr : UnderWay r)
    (horder : ∀ o ∈ order, r.Sees o.1) :
    Acts r (turns order r).2 ∧ ∀ b ∈ bookings order r, Led r (turns order r).2 b.members := by
  induction order generalizing r with
  | nil => exact ⟨.refl, by simp [bookings]⟩
  | cons o rest ih =>
    obtain ⟨outer, active⟩ := o
    obtain ⟨hacts, hled⟩ := led_of_choose hr (horder _ List.mem_cons_self) active
    have hrest : ∀ o ∈ rest, r.Sees o.1 := fun o ho => horder o (List.mem_cons_of_mem _ ho)
    unfold turns bookings
    rw [turn_eq]
    generalize choose outer active r = chosen at hacts hled ⊢
    obtain ⟨_ | members, r₁⟩ := chosen
    · obtain ⟨hnext, hbookings⟩ := ih (hr.acts hacts) fun o ho => hacts.sees.2 (hrest o ho)
      exact ⟨hacts.trans hnext, fun b hb => (hbookings b hb).widen hacts.later (.refl _)⟩
    · have hform : Acts r (Booking.after ⟨r₁, members⟩) := hacts.tail (.form members)
      have hafter : Later r₁ (Booking.after ⟨r₁, members⟩) := (Round.Act.form members).later
      obtain ⟨hnext, hbookings⟩ := ih (hr.acts hform) fun o ho => hform.sees.2 (hrest o ho)
      refine ⟨hform.trans hnext, fun b hb => ?_⟩
      rcases List.mem_cons.1 hb with rfl | hb
      · exact (hled members rfl).widen (.refl r) (hafter.trans hnext.later)
      · exact (hbookings b hb).widen hform.later (.refl _)

end Greedy

/-! ## Trying all combinations -/

namespace Exhaustive

/-- All combinations that were found are led by an outer ticket. -/
def AllLed (r r' : Round) (f : Found) : Prop := ∀ c ∈ f.latestFirst, Led r r' c.2

theorem led_of_mem_enumerate (hr : UnderWay r) (ho : r.Sees outer) {limit cap : Nat} {last : Bool}
    (heq : r.candidates outer limit = (candidates, asked)) {group : List Pooled}
    (h : group ∈ (enumerate outer (candidates.take cap) last asked).1) :
    Led r (enumerate outer (candidates.take cap) last asked).2 group := by
  have hlater := Round.later_candidates hr.clear ho limit
  have hrecalls := Round.recalls_candidates hr ho limit
  have hfound := fun m => @Round.spec_of_mem_candidates r outer m limit hr.clear
  rw [heq] at hlater hrecalls hfound
  have hsees : ∀ c ∈ candidates.take cap, asked.Sees c := fun c hc =>
    hlater.sees.2 (hfound c (List.mem_of_mem_take hc)).1
  obtain ⟨others, rfl, -, hsub, -, -⟩ := enumerate_spec h
  refine led_of_candidates hr ho heq (hsub.trans (List.take_sublist _ _))
    (later_enumerate hsees outer last) fun hreads => ?_
  obtain ⟨others', hcombines, heq'⟩ := (mem_enumerate_iff hrecalls hsees hreads).1 h
  rw [(List.cons.inj heq').2, ← hlater.shelf]
  exact hcombines.suited rfl

theorem allLed_turn (hr : UnderWay r) (ho : r.Sees outer) (active : Bool) {known : Found}
    {r₀ : Round} (hbefore : Acts r₀ r) (hknown : AllLed r₀ r known) :
    Acts r (turn outer active known r).2 ∧
      AllLed r₀ (turn outer active known r).2 (turn outer active known r).1 := by
  have hturn : Acts r (turn outer active known r).2 :=
    (Round.acts_beginInterval r outer active).trans (asks_turn hr ho active known).acts
  refine ⟨hturn, ?_⟩
  have hold : AllLed r₀ (turn outer active known r).2 known := fun c hc =>
    (hknown c hc).widen (.refl r₀) hturn.later
  have hbegin := Round.acts_beginInterval r outer active
  have hr₁ := hr.acts hbegin
  have ho₁ := hbegin.sees.2 ho
  clear hturn
  unfold turn at hold ⊢
  generalize r.beginInterval outer active = begun at hbegin hr₁ ho₁ hold ⊢
  obtain ⟨last, r₁⟩ := begun
  simp only at hbegin hr₁ ho₁ hold ⊢
  cases heq : r₁.candidates outer r₁.config.batchSize with
  | mk candidates asked =>
    rw [heq] at hold
    simp only at hold ⊢
    split at hold
    · rename_i hempty
      rw [if_pos hempty]
      exact hold
    · rename_i hempty
      rw [if_neg hempty]
      refine Found.forall_foldl_add hold fun group hgroup => ?_
      exact (led_of_mem_enumerate hr₁ ho₁ heq hgroup).widen
        (hbefore.later.trans hbegin.later) (.refl _)

theorem allLed_turns {order : List (Pooled × Bool)} {known : Found} {r₀ : Round} (hr : UnderWay r)
    (horder : ∀ o ∈ order, r.Sees o.1) (hbefore : Acts r₀ r) (hknown : AllLed r₀ r known) :
    Acts r (turns order known r).2 ∧ AllLed r₀ (turns order known r).2 (turns order known r).1 := by
  induction order generalizing known r with
  | nil => exact ⟨.refl, hknown⟩
  | cons o rest ih =>
    obtain ⟨outer, active⟩ := o
    obtain ⟨hacts, hled⟩ := allLed_turn hr (horder _ List.mem_cons_self) active hbefore hknown
    have hrest : ∀ o ∈ rest, r.Sees o.1 := fun o ho => horder o (List.mem_cons_of_mem _ ho)
    obtain ⟨hnext, hall⟩ := ih (hr.acts hacts) (fun o ho => hacts.sees.2 (hrest o ho))
      (hbefore.trans hacts) hled
    exact ⟨hacts.trans hnext, hall⟩

theorem allLed_propose (hr : UnderWay r) :
    Acts r (propose r).2 ∧ AllLed r (propose r).2 (propose r).1 :=
  allLed_turns hr (Round.sees_of_mem_order hr.clear) .refl fun c hc => by simp [Found.none] at hc

/-- The choices of a selector are among the combinations that were found. -/
theorem led_of_mem_bookings {found : Found} {choices : List Proposal} (h : AllLed r r₁ found) :
    Acts r₁ (formChosen found choices r₁).2 ∧
      ∀ b ∈ bookings found choices r₁, Led r (formChosen found choices r₁).2 b.members := by
  induction choices generalizing r₁ with
  | nil => exact ⟨.refl, by simp [bookings]⟩
  | cons choice rest ih =>
    unfold formChosen bookings
    cases hmembers : found.members? choice.ticketKey with
    | none => exact ih h
    | some members =>
      simp only
      split
      · have hform : Acts r₁ (Booking.after ⟨r₁, members⟩) := .single (.form members)
        have hall : AllLed r (Booking.after ⟨r₁, members⟩) found := fun c hc =>
          (h c hc).widen (.refl r) hform.later
        obtain ⟨hnext, hbookings⟩ := ih hall
        refine ⟨hform.trans hnext, fun b hb => ?_⟩
        rcases List.mem_cons.1 hb with rfl | hb
        · exact (hall _ (Found.mem_of_members? hmembers)).widen (.refl r) hnext.later
        · exact hbookings b hb
      · exact ih h

end Exhaustive

/-- Whatever the strategy, every group is led by an outer ticket. -/
theorem Strategy.led_of_mem_bookings (t : Strategy) (n : Nat) (hr : UnderWay r) :
    ∀ b ∈ t.bookings n r, Led r (t.assemble n r).2 b.members := by
  intro b hb
  obtain ⟨hb, hend⟩ | ⟨choices, hb, hend⟩ := mem_bookings hb
  · rw [hend]
    exact (Greedy.led_of_mem_bookings hr (Round.sees_of_mem_order hr.clear)).2 b hb
  · rw [hend]
    exact (Exhaustive.led_of_mem_bookings (Exhaustive.allLed_propose hr).2).2 b hb

/-! ## Groups -/

/-- The query of one ticket matches the card of another one on a shelf. -/
structure Satisfied (s : Shelf) (asker other : Pooled) : Prop where
  /-- The card is on the shelf. -/
  shelved : Card.ofTicket other.ticket ∈ s.cards
  /-- The query matches it. -/
  matching : asker.query.matchesCard (Card.ofTicket other.ticket) = true
  /-- A probe says so. -/
  confirmed : s.probe asker.query other.id = .ok true

theorem satisfied_of_suits {s : Shelf} {tickets : Table Pooled} (hs : Mirrors s.cards tickets)
    {asker other : Pooled} (hother : tickets.get? other.id = some other)
    (h : suits s asker other = true) : Satisfied s asker other := by
  have hprobe := suits_iff.1 h
  have hany : (s.cards.any fun c =>
      c.ticketId == other.id && asker.query.matchesCard c) = true := by
    unfold Shelf.probe at hprobe
    split at hprobe
    · exact Except.ok.inj hprobe
    · cases hprobe
  obtain ⟨c, hc, hcard⟩ := List.any_eq_true.1 hany
  rw [Bool.and_eq_true, beq_iff_eq] at hcard
  -- there is only one card of that name, which is the card of the ticket
  obtain ⟨p, hp, rfl⟩ := hs.get?_of_mem hc
  rw [hcard.1, hother] at hp
  rw [← Option.some.inj hp] at hc hcard
  exact ⟨hc, hcard.2, hprobe⟩

/-- A group is put together by an outer ticket, whose query matches the cards of all others. -/
structure Group.LedBy (g : Group) (roster : Roster) (s : Shelf) (outer : Pooled)
    (others : List Pooled) : Prop where
  /-- Its entries are those of the outer ticket and of the others. -/
  entries : g.entries = (outer :: others).flatMap fun m => m.ticket.entries
  /-- The first entry is one of the outer ticket. -/
  first : g.entries.head?.map Entry.ticketId = some outer.id
  /-- They are on the roster. -/
  registered : ∀ m ∈ outer :: others, roster.get? m.id = some m
  /-- No ticket occurs twice. -/
  distinct : ((outer :: others).map Pooled.id).Nodup
  /-- The query of the outer ticket matches the cards of the others. -/
  satisfied : ∀ m ∈ others, Satisfied s outer m

theorem Ticket.head?_entries {t : Ticket} (h : t.presences ≠ []) (rest : List Entry) :
    (t.entries ++ rest).head?.map Entry.ticketId = some t.id := by
  obtain ⟨p, ps, hp⟩ := List.exists_cons_of_ne_nil h
  rw [entries, hp]
  rfl

namespace Service

variable {s : Service}

/-- In every group that a pass of a matchmaker reports or hands over, whatever its strategy, the
query of the ticket that comes first matches the cards of all others, whether the pass insists or
not. If all that the pass reads while it forms its groups insists, the query of each member matches
the cards of all others. -/
theorem satisfied_of_process (h : Reachable s) (precision : Precision) (inForming : List Intake)
    (inSettling : List (List Intake)) {g : Group}
    (hg : (∃ report, (s.process precision inForming inSettling).1.outcome = .ok report ∧
        g ∈ report.matched) ∨
      ∃ x ∈ (s.process precision inForming inSettling).1.dispatched, x.group = g) :
    ∃ outer others, g.LedBy s.roster (s.prepare.round precision).shelf outer others ∧
      ((∀ i < (s.prepare.assemble precision inForming).1.round.asked, precision.isOpen i = true) →
        ∀ m ∈ outer :: others, ∀ n ∈ outer :: others, m.id ≠ n.id →
          Satisfied (s.prepare.round precision).shelf m n) := by
  have hsound := h.sound
  have hmirrors := hsound.round_mirrors precision
  obtain ⟨-, hgroups⟩ := s.strategy.course_bookings s.asked (s.prepare.round precision)
  have hmem := mem_groupsOfPass hg
  rw [groupsOfPass, hgroups] at hmem
  obtain ⟨b, hb, rfl⟩ := List.mem_map.1 hmem
  have hfits := s.strategy.fits_of_mem_bookings s.asked hmirrors b hb
  have hled := s.strategy.led_of_mem_bookings s.asked (hsound.underWay_round precision) b hb
  obtain ⟨⟨outer, others, hmembers, hsuits⟩, hmutually⟩ := hled
  have hentries : b.group.entries = (outer :: others).flatMap fun m => m.ticket.entries := by
    rw [← hmembers]
    exact List.flatMap_map Pooled.ticket Ticket.entries b.members
  obtain ⟨hwaiting, hdistinct, -, -, -⟩ := hfits
  rw [hmembers] at hwaiting hdistinct hmutually
  have houter := hwaiting outer List.mem_cons_self
  refine ⟨outer, others, ⟨hentries, ?_, hwaiting, hdistinct, fun m hm => ?_⟩, fun hopen => ?_⟩
  · rw [hentries, List.flatMap_cons]
    exact Ticket.head?_entries (hsound.admitted outer.id outer houter).presences_ne _
  · exact satisfied_of_suits hmirrors (hwaiting m (List.mem_cons_of_mem outer hm)) (hsuits m hm)
  · rw [(assemble_outcome s.prepare precision inForming).2] at hopen
    have hall := hmutually fun i _ hi => hopen i hi
    have hsymm : Std.Symm fun m n => suitEachOther (s.prepare.round precision).shelf m n = true :=
      ⟨fun m n hmn => (suitEachOther_comm _ n m).trans hmn⟩
    intro m hm n hn hne
    have hpair := hall.forall hm hn fun heq => hne (by rw [heq])
    exact satisfied_of_suits hmirrors (hwaiting n hn) (suitEachOther_iff.1 hpair).1

/-- The two users who wait for a pair satisfy each other. -/
theorem satisfied_pairWaiting : ∃ g ∈ pairWaiting.groupsOfPass .throughout, ∃ outer others,
    g.LedBy pairWaiting.roster (pairWaiting.prepare.round .throughout).shelf outer others ∧
      ∀ m ∈ outer :: others, ∀ n ∈ outer :: others, m.id ≠ n.id →
        Satisfied (pairWaiting.prepare.round .throughout).shelf m n := by
  have hready : pairWaiting.poisoned = false := by decide +kernel
  obtain ⟨g, hg⟩ := exists_mem_groupsOfPass_of_pair (.inr rfl)
  have hgreedy : pairWaiting.strategy = .greedy := rfl
  obtain ⟨report, hreport, hmatched⟩ := exists_matched_of_greedy hgreedy hready
    reachable_pairWaiting.limits.inRange .throughout [] []
  have hreported : g ∈ report.matched := hmatched ▸ hg
  obtain ⟨outer, others, hled, hmutually⟩ := satisfied_of_process reachable_pairWaiting .throughout
    [] [] (.inl ⟨report, hreport, hreported⟩)
  exact ⟨g, hg, outer, others, hled, hmutually fun _ _ => rfl⟩

end Service

end Matchmaking
