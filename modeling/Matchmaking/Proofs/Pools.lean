import Matchmaking.Proofs.Lines
import Matchmaking.Proofs.Seniority
import Matchmaking.Proofs.Suiting

/-!
# Uniform pools

All waiting tickets stand in one line and ask for anybody. A search finds them in the order of age,
whoever asks, and a pass processes them in the same order. So each group is made of the oldest who
are left, and as soon as these are too few for a group, nothing more is formed. Main statement:
`bookings_pool` says which groups the greedy strategy forms.
-/

namespace Matchmaking

open Round (Deliberates Later UnderWay)

/-- What a pass sees is a line of users who ask for anybody, none of whom is active. It may search
for all of them, does not insist, and every interval is the last one. -/
structure Pool (lo hi multiple : Nat) (r : Round) (ts : List Pooled) : Prop where
  line : Line lo hi multiple ts
  bounds : lo ≤ hi
  anybody : ∀ p ∈ ts, p.query = .atom .all
  waiting : ∀ id p, r.tickets.tickets.get? id = some p ↔ p ∈ ts ∧ p.id = id
  mirrors : Mirrors r.shelf.cards r.tickets.tickets
  inactive : ∀ p ∈ ts, r.tickets.isActive p.id = false
  batch : ts.length ≤ r.config.batchSize
  impatient : r.config.maxIntervals ≤ 1
  closed : ∀ i, r.precision.isOpen i = false

namespace Pool

variable {lo hi multiple : Nat} {r r' : Round} {ts : List Pooled} {outer p q : Pooled}

theorem later (h : Pool lo hi multiple r ts) (hlater : Later r r') : Pool lo hi multiple r' ts := by
  obtain ⟨hline, hbounds, hanybody, hwaiting, hmirrors, hinactive, hbatch, himpatient, hclosed⟩ := h
  refine ⟨hline, hbounds, hanybody, ?_, ?_, ?_, ?_, ?_, ?_⟩
  · rwa [hlater.tickets]
  · rwa [hlater.shelf, hlater.tickets]
  · rwa [hlater.tickets]
  · rwa [hlater.config]
  · rwa [hlater.config]
  · rwa [hlater.precision]

theorem sees (h : Pool lo hi multiple r ts) (hp : p ∈ ts) : r.Sees p :=
  (h.waiting p.id p).2 ⟨hp, rfl⟩

theorem eq_of_id (h : Pool lo hi multiple r ts) (hp : p ∈ ts) (hq : q ∈ ts) (hid : p.id = q.id) :
    p = q :=
  (h.sees hp).eq_of_id (h.sees hq) hid

theorem nodup (h : Pool lo hi multiple r ts) : ts.Nodup := by
  refine h.line.ages.imp fun {p q} hlt heq => ?_
  rw [heq] at hlt
  omega

/-- Nobody shares a session with anybody else. -/
theorem sharesSession (h : Pool lo hi multiple r ts) (hp : p ∈ ts) (hq : q ∈ ts) (hne : p ≠ q) :
    p.ticket.sharesSession q.ticket = false := by
  have hsymm : Std.Symm fun p q : Pooled => p.ticket.sharesSession q.ticket = false :=
    ⟨fun p q hpq => (Ticket.sharesSession_comm q.ticket p.ticket).trans hpq⟩
  exact h.line.sessions.forall hp hq hne

theorem values_perm (h : Pool lo hi multiple r ts) : r.tickets.tickets.values.Perm ts := by
  refine (List.perm_ext_iff_of_nodup (nodup_values h.mirrors.keyed) h.nodup).2 fun p => ?_
  rw [Table.mem_values_iff]
  constructor
  · rintro ⟨id, hid⟩
    exact ((h.waiting id p).1 hid).1
  · intro hp
    exact ⟨p.id, h.sees hp⟩

/-- A ticket of the pool allows all others. -/
theorem allows_iff (h : Pool lo hi multiple r ts) (ho : outer ∈ ts) (hp : p ∈ ts) (limit : Nat) :
    (Inquiry.ofTicket outer.ticket outer.query limit).allows (Card.ofTicket p.ticket) =
      decide (p.id ≠ outer.id) := by
  have houter := h.line.plain outer ho
  have hplain := h.line.plain p hp
  have hbounds := h.bounds
  unfold Inquiry.allows Inquiry.ofTicket Card.ofTicket
  simp only [houter.minCount, houter.maxCount, hplain.minCount, hplain.maxCount, houter.alone]
  by_cases hid : p.id = outer.id
  · have hsame : (p.ticket.id != outer.ticket.id) = false := by
      rw [bne_eq_false_iff_eq]
      exact hid
    rw [decide_eq_false (not_not_intro hid), hsame]
    simp
  · have hother : (p.ticket.id != outer.ticket.id) = true := bne_iff_ne.2 hid
    have hshare := h.sharesSession ho hp fun heq => hid (by rw [heq])
    have hsessions : (outer.ticket.sessions.all fun s => !p.ticket.sessions.contains s) = true := by
      refine List.all_eq_true.2 fun s hs => ?_
      rw [Bool.not_eq_true', ← Bool.not_eq_true, List.contains_iff_mem]
      intro hmem
      rw [Ticket.sharesSession_iff.2 ⟨s, hmem, hs⟩] at hshare
      cases hshare
    rw [decide_eq_true hid, hother, hsessions]
    simp [hbounds]

/-! ## Searching -/

/-- What a search finds of a ticket of the pool; all are equally relevant. -/
def hitOf (p : Pooled) : Hit :=
  ⟨p.id, Shelf.rankOf (Shelf.hitScore 1.0), p.ticket.createdMillis⟩

theorem hits_perm (h : Pool lo hi multiple r ts) (ho : outer ∈ ts) (limit : Nat) :
    (r.shelf.hits (Inquiry.ofTicket outer.ticket outer.query limit)).Perm
      ((ts.filter fun p => p.id ≠ outer.id).map hitOf) := by
  have hcards : r.shelf.cards.Perm (ts.map fun p => Card.ofTicket p.ticket) :=
    h.mirrors.perm.trans (h.values_perm.map _)
  have hallowed : ((ts.map fun p => Card.ofTicket p.ticket).filter
      (Inquiry.ofTicket outer.ticket outer.query limit).allows) =
      (ts.filter fun p => p.id ≠ outer.id).map fun p => Card.ofTicket p.ticket := by
    rw [List.filter_map]
    congr 1
    exact List.filter_congr fun p hp => h.allows_iff ho hp limit
  unfold Shelf.hits
  have hquery : (Inquiry.ofTicket outer.ticket outer.query limit).query = .atom .all :=
    h.anybody outer ho
  refine ((hcards.filter _).filterMap _).trans ?_
  rw [hallowed, hquery, List.filterMap_map]
  refine List.Perm.of_eq ?_
  rw [← List.filterMap_eq_map]
  rfl

/-- A search for as many as there are gives all others in the order of age. -/
theorem search_eq (h : Pool lo hi multiple r ts) (ho : outer ∈ ts) {limit : Nat}
    (hlimit : ts.length ≤ limit) :
    r.shelf.search (Inquiry.ofTicket outer.ticket outer.query limit) =
      .ok ((ts.filter fun p => p.id ≠ outer.id).map hitOf) := by
  have hothers : (ts.filter fun p => decide (p.id ≠ outer.id)).Sublist ts := List.filter_sublist
  have hranking := (Shelf.ranking_perm r.shelf
    (Inquiry.ofTicket outer.ticket outer.query limit)).trans (h.hits_perm ho limit)
  have hlength := hranking.length_eq
  rw [List.length_map] at hlength
  have hall := Nat.le_trans (hlength ▸ hothers.length_le) hlimit
  have hages : ((ts.filter fun p => p.id ≠ outer.id).map hitOf).Pairwise fun a b =>
      Shelf.better b a = false := by
    refine List.pairwise_map.2 ((h.line.ages.sublist hothers).imp fun {p q} hlt => ?_)
    rw [Shelf.better, hitOf, hitOf, beq_self_eq_true, Bool.true_and, Bool.or_eq_false_iff]
    exact ⟨decide_eq_false (Nat.lt_irrefl _), decide_eq_false (Int.not_le.2 hlt)⟩
  have hrunnable : (Inquiry.ofTicket outer.ticket outer.query limit).query.runnable = true := by
    have hquery : (Inquiry.ofTicket outer.ticket outer.query limit).query = .atom .all :=
      h.anybody outer ho
    rw [hquery]
    rfl
  have hwanted : (Inquiry.ofTicket outer.ticket outer.query limit).limit = limit := rfl
  have hpositive : 0 < (Inquiry.ofTicket outer.ticket outer.query limit).limit :=
    Nat.lt_of_lt_of_le (List.length_pos_of_mem ho) hlimit
  rw [Shelf.search_eq_ranking hpositive hrunnable, hwanted, List.take_of_length_le hall,
    mergeSort_eq_of_perm Shelf.better_trans Shelf.better_total hranking hages]

/-- For whoever searches, the others are found in the order of age. -/
theorem found_eq (h : Pool lo hi multiple r ts) (ho : outer ∈ ts) :
    r.found outer r.config.batchSize = ts.filter fun p => p.id ≠ outer.id := by
  have hback : ∀ p ∈ ts.filter fun p => decide (p.id ≠ outer.id),
      ((fun x : Hit => r.tickets.tickets.get? x.ticketId) ∘ hitOf) p = some p := fun p hp =>
    h.sees (List.mem_of_mem_filter hp)
  rw [Round.found, h.search_eq ho h.batch]
  simp only [List.filterMap_map]
  rw [List.filterMap_congr hback, List.filterMap_some]

/-! ## The order of a pass -/

/-- A pass goes along the line. -/
theorem order_eq (h : Pool lo hi multiple r ts) : r.order = ts.map fun p => (p, false) := by
  have hactive : (ts.map fun p => (p, r.tickets.isActive p.id)) = ts.map fun p => (p, false) :=
    List.map_congr_left fun p hp => by rw [h.inactive p hp]
  have hperm := h.values_perm.map fun p => (p, r.tickets.isActive p.id)
  rw [hactive] at hperm
  refine mergeSort_eq_of_perm Snapshot.before_trans Snapshot.before_total hperm ?_
  refine List.pairwise_map.2 (h.line.ages.imp fun {p q} hlt => ?_)
  have hnanos : p.ticket.createdAt.nanos < q.ticket.createdAt.nanos := by
    unfold Ticket.createdMillis Instant.millis Instant.perMilli at hlt
    omega
  rw [← Bool.not_eq_true, Snapshot.before_iff]
  rintro (⟨hactive, -⟩ | ⟨-, hage | ⟨hage, -⟩⟩)
  · cases hactive
  · exact Int.lt_asymm hnanos hage
  · exact absurd hage.symm (Int.ne_of_lt hnanos)

/-! ## Those who are left -/

/-- A group uses up its members and nobody else. -/
theorem isAvailable_form (h : Pool lo hi multiple r ts) {members : List Pooled}
    (hmembers : ∀ m ∈ members, m ∈ ts) (hp : p ∈ ts) :
    (r.form members).2.isAvailable p = true ↔ r.isAvailable p = true ∧ p ∉ members := by
  simp only [Round.isAvailable_iff, ← Bool.not_eq_true, Round.consumed_form,
    Round.consumedSessions_form, not_or, not_exists, not_and]
  constructor
  · rintro ⟨⟨hother, hticket⟩, hsessions⟩
    exact ⟨⟨hticket, fun x hx => (hsessions x hx).2⟩, fun hmem => hother p hmem rfl⟩
  · rintro ⟨⟨hticket, hsessions⟩, hnot⟩
    refine ⟨⟨fun m hm hid => ?_, hticket⟩, fun x hx => ⟨fun m hm hxm => ?_, hsessions x hx⟩⟩
    · rw [h.eq_of_id (hmembers m hm) hp hid] at hm
      exact hnot hm
    · have hne : m ≠ p := by
        rintro rfl
        exact hnot hm
      have happart := h.sharesSession (hmembers m hm) hp hne
      rw [Ticket.sharesSession_iff.2 ⟨x, hx, hxm⟩] at happart
      cases happart

/-- The oldest one who is left is a member of the group that the oldest ones form. -/
theorem isAvailable_form_first (h : Pool lo hi multiple r ts) {behind : List Pooled} {size : Nat}
    (hleft : ts.filter r.isAvailable = outer :: behind) (hsize : 0 < size) (hp : p ∈ ts)
    (hused : r.isAvailable p = false ∨ p = outer) :
    (r.form ((ts.filter r.isAvailable).take size)).2.isAvailable p = false := by
  refine Bool.eq_false_iff.2 fun hafter => ?_
  obtain ⟨hstill, hnot⟩ := (h.isAvailable_form (fun m hm =>
    List.mem_of_mem_filter (List.mem_of_mem_take hm)) hp).1 hafter
  rcases hused with hused | rfl
  · rw [hused] at hstill
    cases hstill
  · obtain ⟨n, rfl⟩ := Nat.exists_eq_succ_of_ne_zero (Nat.ne_of_gt hsize)
    rw [hleft] at hnot
    exact hnot List.mem_cons_self

/-- After the oldest who are left have formed a group, the younger ones are left. -/
theorem left_form (h : Pool lo hi multiple r ts) (size : Nat) :
    ts.filter (r.form ((ts.filter r.isAvailable).take size)).2.isAvailable =
      (ts.filter r.isAvailable).drop size := by
  have hleft : (ts.filter r.isAvailable).Sublist ts := List.filter_sublist
  have hiff := fun p => @isAvailable_form lo hi multiple r ts p h
    ((ts.filter r.isAvailable).take size) fun m hm => hleft.subset (List.mem_of_mem_take hm)
  have havail : ∀ p ∈ ts.filter r.isAvailable, r.isAvailable p = true := fun p hp =>
    (List.mem_filter.1 hp).2
  have hnodup := h.nodup.sublist hleft
  have hagain : ts.filter (r.form ((ts.filter r.isAvailable).take size)).2.isAvailable =
      (ts.filter r.isAvailable).filter
        (r.form ((ts.filter r.isAvailable).take size)).2.isAvailable := by
    rw [List.filter_filter]
    refine List.filter_congr fun p hp => ?_
    rw [Bool.eq_iff_iff, Bool.and_eq_true]
    exact ⟨fun hafter => ⟨hafter, ((hiff p hp).1 hafter).1⟩, fun hboth => hboth.1⟩
  rw [hagain]
  generalize (r.form ((ts.filter r.isAvailable).take size)).2 = after at hiff ⊢
  generalize ts.filter r.isAvailable = left at hleft hiff havail hnodup ⊢
  have htaken : (left.take size).filter after.isAvailable = [] := by
    refine List.filter_eq_nil_iff.2 fun p hp hafter => ?_
    exact ((hiff p (hleft.subset (List.mem_of_mem_take hp))).1 hafter).2 hp
  have hrest : (left.drop size).filter after.isAvailable = left.drop size := by
    refine List.filter_eq_self.2 fun p hp => ?_
    have hmem := List.mem_of_mem_drop hp
    have hlater := List.disjoint_take_drop hnodup (Nat.le_refl size)
    exact (hiff p (hleft.subset hmem)).2 ⟨havail p hmem, fun htake => hlater htake hp⟩
  calc left.filter after.isAvailable
    _ = (left.take size ++ left.drop size).filter after.isAvailable := by
      rw [List.take_append_drop]
    _ = left.drop size := by rw [List.filter_append, htaken, hrest, List.nil_append]

/-- The candidates of an outer ticket are the others who are left. -/
theorem candidates_eq (h : Pool lo hi multiple r ts) (hr : UnderWay r) (ho : outer ∈ ts) :
    (r.candidates outer r.config.batchSize).1 =
      (ts.filter r.isAvailable).filter fun p => p.id ≠ outer.id := by
  rw [Round.candidates_eq hr (h.sees ho) (Round.reads_of_forall h.closed _), h.found_eq ho,
    List.filter_filter, List.filter_filter]
  refine List.filter_congr fun p _ => ?_
  rw [agree_false, Bool.and_true, Bool.and_comm]

/-- Whoever's turn comes fills one buffer with the others who are left. -/
theorem choose_fst (h : Pool lo hi multiple r ts) (hr : UnderWay r) (ho : outer ∈ ts)
    (havail : r.isAvailable outer = true) {before behind : List Pooled}
    (hleft : ts.filter r.isAvailable = before ++ outer :: behind) :
    ∃ r', Pool lo hi multiple r' ts ∧ (Greedy.choose outer false r).1 =
      if (before ++ behind).isEmpty then none
      else (Greedy.assembleFor outer (before ++ behind) true r').1 := by
  have hlast : (r.beginInterval outer false).1 = true := by
    show (r.countInterval outer).isLast outer false = true
    rw [Round.isLast_countInterval, decide_eq_true (Nat.le_trans h.impatient (by omega))]
    simp
  have hbegin := Round.acts_beginInterval r outer false
  have hdel := Round.deliberates_beginInterval r outer false
  have hothers : (ts.filter r.isAvailable).filter (fun p => p.id ≠ outer.id) =
      before ++ behind := by
    have hsub : (before ++ outer :: behind).Sublist ts := hleft ▸ List.filter_sublist
    have hdistinct := List.nodup_middle.1 (h.nodup.sublist hsub)
    have hother : ∀ p ∈ before ++ behind, p.id ≠ outer.id := by
      intro p hp hid
      have hmem : p ∈ before ++ outer :: behind := by grind
      rw [h.eq_of_id (hsub.subset hmem) ho hid] at hp
      exact (List.nodup_cons.1 hdistinct).1 hp
    rw [hleft, List.filter_append, List.filter_cons_of_neg (by simp), ← List.filter_append]
    exact List.filter_eq_self.2 fun p hp => decide_eq_true (hother p hp)
  unfold Greedy.choose
  rw [if_pos havail]
  generalize r.beginInterval outer false = begun at hlast hbegin hdel ⊢
  obtain ⟨last, r₁⟩ := begun
  simp only at hlast hbegin hdel ⊢
  have hcandidates := (h.later hbegin.later).candidates_eq (hr.acts hbegin) ho
  have hlater := (Round.asks_candidates (hr.acts hbegin).clear
    ((h.later hbegin.later).sees ho)).acts.later
  rw [funext hdel.isAvailable, hothers] at hcandidates
  refine ⟨_, h.later (hbegin.later.trans hlater), ?_⟩
  rw [hcandidates, hlast]
  split <;> rfl

/-- The oldest one who is left forms a group with those behind it, if they are enough. -/
theorem choose_of_left_eq_cons (h : Pool lo hi multiple r ts) (hr : UnderWay r)
    (hpos : 0 < multiple) (hfew : multiple ≤ Surplus.maxMembers + 1) {behind : List Pooled}
    (hleft : ts.filter r.isAvailable = outer :: behind) :
    (Greedy.choose outer false r).1 =
      if max lo 2 ≤ groupSize hi multiple (outer :: behind).length then
        some ((outer :: behind).take (groupSize hi multiple (outer :: behind).length))
      else none := by
  have hmem : outer ∈ ts.filter r.isAvailable := hleft ▸ List.mem_cons_self
  obtain ⟨ho, havail⟩ := List.mem_filter.1 hmem
  obtain ⟨r', hpool, hchoose⟩ := h.choose_fst hr ho havail (hleft.trans (List.nil_append _).symm)
  have hline : Line lo hi multiple (outer :: behind) := hleft ▸ h.line.sublist List.filter_sublist
  rw [hchoose]
  split
  · rename_i hnobody
    rw [List.nil_append, List.isEmpty_iff] at hnobody
    have hsmall : groupSize hi multiple [outer].length ≤ 1 :=
      Nat.le_trans (Nat.sub_le _ _) (Nat.min_le_left _ _)
    rw [hnobody, if_neg (by omega)]
  · exact Greedy.assembleFor_line hline hpos hfew hpool.closed

/-- If too few are left, nobody forms a group. -/
theorem choose_eq_none (h : Pool lo hi multiple r ts) (hr : UnderWay r) (ho : outer ∈ ts)
    (hsmall : ¬max lo 2 ≤ groupSize hi multiple (ts.filter r.isAvailable).length) :
    (Greedy.choose outer false r).1 = none := by
  by_cases havail : r.isAvailable outer = true
  · obtain ⟨before, behind, hleft⟩ := List.append_of_mem (List.mem_filter.2 ⟨ho, havail⟩)
    obtain ⟨r', -, hchoose⟩ := h.choose_fst hr ho havail hleft
    have hplain : ∀ p ∈ outer :: (before ++ behind), Plain lo hi multiple p := by
      intro p hp
      refine h.line.plain p (List.mem_of_mem_filter (p := r.isAvailable) ?_)
      rw [hleft]
      grind
    have hlength : (before ++ behind).length + 1 = (ts.filter r.isAvailable).length := by
      rw [hleft]
      simp
      omega
    rw [← hlength] at hsmall
    rw [hchoose, Greedy.assembleFor_eq_none hplain hsmall]
    split <;> rfl
  · unfold Greedy.choose
    rw [if_neg havail]

/-! ## The bookings of a pass -/

/-- A turn leaves everybody who was left, until its group is formed. -/
theorem choose_keeps (h : Pool lo hi multiple r ts) (hr : UnderWay r) (ho : outer ∈ ts) :
    Pool lo hi multiple (Greedy.choose outer false r).2 ts ∧
      UnderWay (Greedy.choose outer false r).2 ∧
      (Greedy.choose outer false r).2.isAvailable = r.isAvailable := by
  have hacts := (Greedy.led_of_choose hr (h.sees ho) false).1
  exact ⟨h.later hacts.later, hr.acts hacts,
    funext (Greedy.choose_spec outer false r).1.isAvailable⟩

/-- If too few are left, nothing more is formed. -/
theorem bookings_eq_nil (h : Pool lo hi multiple r ts) (hr : UnderWay r) {rest : List Pooled}
    (hrest : ∀ p ∈ rest, p ∈ ts)
    (hsmall : ¬max lo 2 ≤ groupSize hi multiple (ts.filter r.isAvailable).length) :
    Greedy.bookings (rest.map fun p => (p, false)) r = [] := by
  induction rest generalizing r with
  | nil => rfl
  | cons outer rest ih =>
    have ho := hrest outer List.mem_cons_self
    have hchoose := h.choose_eq_none hr ho hsmall
    obtain ⟨hpool, hr₁, hsame⟩ := h.choose_keeps hr ho
    rw [List.map_cons, Greedy.bookings]
    generalize Greedy.choose outer false r = chosen at hchoose hpool hr₁ hsame ⊢
    obtain ⟨choice, r₁⟩ := chosen
    simp only at hchoose hpool hr₁ hsame
    rw [hchoose]
    exact ih hpool hr₁ (fun p hp => hrest p (List.mem_cons_of_mem outer hp)) (hsame ▸ hsmall)

/-- When the turn has come to the rest of a line and nobody before it is left, a pass forms the
groups of those who are. -/
theorem map_members_bookings {before rest : List Pooled} (h : Pool lo hi multiple r ts)
    (hr : UnderWay r) (hpos : 0 < multiple) (hfew : multiple ≤ Surplus.maxMembers + 1)
    (hts : ts = before ++ rest) (hbefore : ∀ p ∈ before, r.isAvailable p = false) :
    (Greedy.bookings (rest.map fun p => (p, false)) r).map Booking.members =
      lineGroups lo hi multiple (ts.filter r.isAvailable) := by
  induction rest generalizing before r with
  | nil =>
    have hnobody : ts.filter r.isAvailable = [] := by
      rw [hts, List.append_nil, List.filter_eq_nil_iff]
      simpa using hbefore
    rw [hnobody, lineGroups_step hpos, List.length_nil, groupSize_of_few (Nat.zero_le hi),
      if_neg (by omega)]
    rfl
  | cons outer rest ih =>
    have hnext : ts = before ++ [outer] ++ rest := by rw [hts, List.append_cons]
    have ho : outer ∈ ts := hts ▸ List.mem_append_right before List.mem_cons_self
    by_cases havail : r.isAvailable outer = true
    · have hleft : ts.filter r.isAvailable = outer :: rest.filter r.isAvailable := by
        rw [hts, List.filter_append, List.filter_eq_nil_iff.2 fun p hp => by simp [hbefore p hp],
          List.nil_append, List.filter_cons_of_pos havail]
      by_cases hlarge : max lo 2 ≤ groupSize hi multiple (ts.filter r.isAvailable).length
      · have hchoose := h.choose_of_left_eq_cons hr hpos hfew hleft
        rw [← hleft, if_pos hlarge] at hchoose
        obtain ⟨hpool, hr₁, hsame⟩ := h.choose_keeps hr ho
        rw [lineGroups_step hpos, if_pos hlarge, List.map_cons, Greedy.bookings]
        generalize Greedy.choose outer false r = chosen at hchoose hpool hr₁ hsame ⊢
        obtain ⟨choice, r₁⟩ := chosen
        simp only at hchoose hpool hr₁ hsame
        rw [hchoose, ← hsame]
        rw [← hsame] at hleft hlarge
        generalize groupSize hi multiple (ts.filter r₁.isAvailable).length = size at hlarge ⊢
        -- the members are used up, among them the outer ticket
        have hform : Round.Act r₁ (r₁.form ((ts.filter r₁.isAvailable).take size)).2 := .form _
        have hused : ∀ p ∈ before ++ [outer],
            (r₁.form ((ts.filter r₁.isAvailable).take size)).2.isAvailable p = false := by
          intro p hp
          have hmem : p ∈ ts := hnext ▸ List.mem_append_left rest hp
          refine hpool.isAvailable_form_first hleft (by omega) hmem ?_
          rw [hsame]
          exact (List.mem_append.1 hp).imp (hbefore p) List.mem_singleton.1
        have hafter := ih (hpool.later hform.later) (hr₁.act hform) hnext hused
        rw [hpool.left_form size] at hafter
        exact congrArg _ hafter
      · rw [h.bookings_eq_nil hr (fun p hp => hts ▸ List.mem_append_right before hp) hlarge,
          lineGroups_step hpos, if_neg hlarge]
        rfl
    · have hused : ∀ p ∈ before ++ [outer], r.isAvailable p = false := by
        intro p hp
        rcases List.mem_append.1 hp with hp | hp
        · exact hbefore p hp
        · rw [List.mem_singleton.1 hp]
          exact Bool.eq_false_iff.2 havail
      have hchoose : Greedy.choose outer false r = (none, r) := by
        unfold Greedy.choose
        rw [if_neg havail]
      rw [List.map_cons, Greedy.bookings, hchoose]
      exact ih h hr hnext hused

/-- A pass over a pool nobody of which is used up forms the groups of the whole line. -/
theorem members_of_bookings (h : Pool lo hi multiple r ts) (hr : UnderWay r) (hpos : 0 < multiple)
    (hfew : multiple ≤ Surplus.maxMembers + 1) (hall : ∀ p ∈ ts, r.isAvailable p = true) :
    (Greedy.bookings r.order r).map Booking.members = lineGroups lo hi multiple ts := by
  have hbookings := h.map_members_bookings hr hpos hfew (List.nil_append ts).symm (by simp)
  rwa [List.filter_eq_self.2 hall, ← h.order_eq] at hbookings

end Pool

end Matchmaking
