import Matchmaking.Proofs.Offers
import Matchmaking.Proofs.Precedence

/-!
# What a largest-first pass leaves over

The selector compares proposals by their tickets only, but a group is not formed either if another
one has used up one of its sessions, and a session can own several tickets. So a proposal can be
passed over for a larger one that is refused in the end, and nothing is formed of either. Main
statement: `largestFirst_leftovers`.
-/

namespace Matchmaking

/-- A proposal has a ticket or a session in common with a group. -/
def Proposal.Meets (p : Proposal) (g : Group) : Prop :=
  (∃ id ∈ p.ticketKey, id ∈ g.ticketIds) ∨ ∃ x ∈ p.sessions, x ∈ g.sessions

/-- A ticket or a session of a proposal is used up. -/
def Proposal.Spent (p : Proposal) (r : Round) : Prop :=
  (∃ id ∈ p.ticketKey, r.consumed.contains id = true) ∨
    ∃ x ∈ p.sessions, r.consumedSessions.contains x = true

/-- Of the tickets that a pass sees nothing is used up, each has a presence, and no two of them have
a session in common. -/
structure Round.Separate (r : Round) : Prop where
  available : ∀ m, r.Sees m → r.isAvailable m = true
  present : ∀ m, r.Sees m → m.ticket.presences ≠ []
  apart : ∀ m k, r.Sees m → r.Sees k → m.id ≠ k.id → m.ticket.sessions.Disjoint k.ticket.sessions

/-! ## The end of a course -/

namespace Round

variable {r r' : Round} {bs : List Booking} {m : Pooled}

/-- At the end of a course exactly those tickets are used up that were so at the beginning or were
booked. -/
theorem Course.consumed_end (h : Course r bs r') (id : String) :
    r'.consumed.contains id = true ↔
      r.consumed.contains id = true ∨ ∃ b ∈ bs, ∃ m ∈ b.members, m.id = id := by
  induction h with
  | done h =>
    rw [h.consumed]
    simp
  | book h havail hrest ih =>
    rw [ih, Booking.after, consumed_form, h.consumed]
    simp only [List.mem_cons, exists_eq_or_imp]
    grind

theorem Course.consumedSessions_end (h : Course r bs r') (x : String) :
    r'.consumedSessions.contains x = true ↔
      r.consumedSessions.contains x = true ∨
        ∃ b ∈ bs, ∃ m ∈ b.members, x ∈ m.ticket.sessions := by
  induction h with
  | done h =>
    rw [h.consumedSessions]
    simp
  | book h havail hrest ih =>
    rw [ih, Booking.after, consumedSessions_form, h.consumedSessions]
    simp only [List.mem_cons, exists_eq_or_imp]
    grind

theorem isAvailable_eq_false_iff :
    r.isAvailable m = false ↔ r.consumed.contains m.id = true ∨
      ∃ x ∈ m.ticket.sessions, r.consumedSessions.contains x = true := by
  rw [← Bool.not_eq_true, isAvailable_iff]
  simp only [not_and_or, Bool.not_eq_false, not_forall, exists_prop]

/-- Who is not available at the end was not so at the beginning, was booked, or has a session in
common with somebody who was booked. -/
theorem Course.isAvailable_eq_false_iff (h : Course r bs r') :
    r'.isAvailable m = false ↔ r.isAvailable m = false ∨
      ∃ b ∈ bs, ∃ k ∈ b.members, k.id = m.id ∨ ∃ x ∈ m.ticket.sessions, x ∈ k.ticket.sessions := by
  rw [Round.isAvailable_eq_false_iff, Round.isAvailable_eq_false_iff]
  simp only [h.consumed_end, h.consumedSessions_end]
  constructor
  · rintro ((hbefore | ⟨b, hb, k, hk, hid⟩) | ⟨x, hx, hbefore | ⟨b, hb, k, hk, hxk⟩⟩)
    · exact .inl (.inl hbefore)
    · exact .inr ⟨b, hb, k, hk, .inl hid⟩
    · exact .inl (.inr ⟨x, hx, hbefore⟩)
    · exact .inr ⟨b, hb, k, hk, .inr ⟨x, hx, hxk⟩⟩
  · rintro ((hbefore | ⟨x, hx, hbefore⟩) | ⟨b, hb, k, hk, hid | ⟨x, hx, hxk⟩⟩)
    · exact .inl (.inl hbefore)
    · exact .inr ⟨x, hx, .inl hbefore⟩
    · exact .inl (.inr ⟨b, hb, k, hk, hid⟩)
    · exact .inr ⟨x, hx, .inr ⟨b, hb, k, hk, hxk⟩⟩

end Round

namespace Exhaustive

open Round (Acts Course UnderWay)

/-! ## Bookings and choices -/

section Choosing

variable {f : Found} {choices : List Proposal} {r : Round} {b : Booking} {q : Proposal}

/-- Behind each booking there is a choice. -/
theorem exists_choice_of_mem_bookings (hb : b ∈ bookings f choices r) :
    ∃ q ∈ choices, f.members? q.ticketKey = some b.members := by
  induction choices generalizing r with
  | nil => cases hb
  | cons choice rest ih =>
    have hrest : ∀ {r : Round}, b ∈ bookings f rest r →
        ∃ q ∈ choice :: rest, f.members? q.ticketKey = some b.members := by
      intro r hb
      obtain ⟨q, hq, hmembers⟩ := ih hb
      exact ⟨q, List.mem_cons_of_mem choice hq, hmembers⟩
    rw [bookings] at hb
    split at hb
    · exact hrest hb
    · rename_i members hmembers
      split at hb
      · rcases List.mem_cons.1 hb with rfl | hb
        · exact ⟨choice, List.mem_cons_self, hmembers⟩
        · exact hrest hb
      · exact hrest hb

/-- If a choice stands for some members, they are booked, or one of them is not available in the
end. -/
theorem booked_or_unavailable {members : List Pooled} (hq : q ∈ choices)
    (hmembers : f.members? q.ticketKey = some members) :
    (∃ b ∈ bookings f choices r, b.members = members) ∨
      ∃ m ∈ members, (formChosen f choices r).2.isAvailable m = false := by
  induction choices generalizing r with
  | nil => cases hq
  | cons choice rest ih =>
    have hcourse := (course_formChosen f rest r).1
    rw [bookings, formChosen]
    rcases List.mem_cons.1 hq with rfl | hq
    · rw [hmembers]
      simp only
      split
      · exact .inl ⟨_, List.mem_cons_self, rfl⟩
      · rename_i hall
        rw [List.all_eq_true, not_forall] at hall
        obtain ⟨m, hm⟩ := hall
        obtain ⟨hm, hunavailable⟩ := Classical.not_imp.1 hm
        rw [Bool.not_eq_true] at hunavailable
        exact .inr ⟨m, hm, hcourse.isAvailable_eq_false_iff.2 (.inl hunavailable)⟩
    · cases f.members? choice.ticketKey with
      | none => exact ih hq
      | some others =>
        simp only
        split
        · rcases ih hq with ⟨b, hb, hmem⟩ | hunavailable
          · exact .inl ⟨b, List.mem_cons_of_mem _ hb, hmem⟩
          · exact .inr hunavailable
        · exact ih hq

/-- If no two choices have a ticket in common, a ticket of a choice is booked for this choice only.
-/
theorem members?_of_booked (hf : f.Keyed) (hchoices : choices.Pairwise fun p q => ¬ p.Overlaps q)
    (hq : q ∈ choices) (hb : b ∈ bookings f choices r) {k : Pooled} (hk : k ∈ b.members)
    (hid : k.id ∈ q.ticketKey) : f.members? q.ticketKey = some b.members := by
  obtain ⟨p, hp, hmembers⟩ := exists_choice_of_mem_bookings hb
  have hkey : p.ticketKey = keyOf b.members := hf.named _ (hf.members?_eq_some_iff.1 hmembers)
  have hmem : k.id ∈ p.ticketKey := by
    rw [hkey]
    exact (List.mergeSort_perm _ _).mem_iff.2 (List.mem_map_of_mem hk)
  by_cases hpq : p = q
  · rw [← hpq]
    exact hmembers
  · have hsymm : Std.Symm fun p q : Proposal => ¬ p.Overlaps q := ⟨fun _ _ h h' => h h'.symm⟩
    exact absurd ⟨k.id, hmem, hid⟩ (hchoices.forall hp hq hpq)

end Choosing

/-! ## Known combinations -/

section Known

variable {r : Round} {c d : Combination}

/-- The members of a proposal of a pass are distinct tickets that the pass sees, and at least one.
-/
structure Gathered (r : Round) (members : List Pooled) : Prop where
  ne : members ≠ []
  distinct : (members.map Pooled.id).Nodup
  seen : ∀ m ∈ members, r.Sees m

theorem gathered_propose (hr : r.UnderWay) (hc : c ∈ (propose r).1.latestFirst) :
    Gathered r c.2 := by
  obtain ⟨o, ho, r₁, hacts, hmem⟩ := proposed_propose hr c hc
  unfold proposals at hmem
  obtain ⟨others, hmembers, -, hsub, -⟩ := enumerate_spec hmem
  have hbegin := Round.acts_beginInterval r₁ o.1 o.2
  have hclear := (hr.acts (hacts.trans hbegin)).clear
  have hcandidates := hsub.trans (List.take_sublist _ _)
  have hspec := fun m hm =>
    Round.spec_of_mem_candidates hclear (hcandidates.subset (a := m) hm)
  rw [hmembers]
  refine ⟨List.cons_ne_nil _ _, ?_, fun m hm => ?_⟩
  · rw [List.map_cons, List.nodup_cons]
    refine ⟨fun hid => ?_, (Round.nodup_candidates hclear _ _).sublist (hcandidates.map _)⟩
    obtain ⟨m, hm, hid⟩ := List.mem_map.1 hid
    exact (hspec m hm).2.1 hid
  · rcases List.mem_cons.1 hm with rfl | hm
    · exact Round.sees_of_mem_order hr.clear o ho
    · exact (Acts.sees (hacts.trans hbegin)).1 (hspec m hm).1

theorem members?_offer (hr : r.UnderWay) (hc : c ∈ (propose r).1.latestFirst)
    (hpresent : ∀ m ∈ c.2, m.ticket.presences ≠ []) :
    (propose r).1.members? (offer c).ticketKey = some c.2 := by
  have hkeyed := keyed_propose r
  rw [ticketKey_offer (gathered_propose hr hc).distinct hpresent, ← hkeyed.named c hc]
  exact hkeyed.members?_eq_some_iff.2 hc

theorem mem_ticketIds_group {b : Booking} {m : Pooled} (hm : m ∈ b.members)
    (hpresent : m.ticket.presences ≠ []) : m.id ∈ b.group.ticketIds := by
  obtain ⟨x, hx⟩ := List.exists_mem_of_ne_nil _ hpresent
  refine Group.mem_ticketIds.2 ⟨_, List.mem_flatMap.2 ⟨m.ticket, List.mem_map_of_mem hm,
    List.mem_map_of_mem hx⟩, rfl⟩

theorem mem_sessions_group {b : Booking} {x : String} :
    x ∈ b.group.sessions ↔ ∃ m ∈ b.members, x ∈ m.ticket.sessions := by
  rw [Booking.group, Round.form, Group.mem_sessions_ofTickets]
  simp only [List.mem_map, exists_exists_and_eq_and]

/-- A ticket that is seen in an offer is one of its members and has a presence. -/
theorem exists_of_mem_ticketKey {id : String} (h : id ∈ (offer c).ticketKey) :
    ∃ m ∈ c.2, m.id = id ∧ m.ticket.presences ≠ [] := by
  obtain ⟨e, he, rfl⟩ := Proposal.mem_ticketKey.1 h
  obtain ⟨m, hm, hem⟩ := List.mem_flatMap.1 he
  refine ⟨m, hm, (Ticket.ticketId_of_mem_entries hem).symm, fun hnil => ?_⟩
  rw [Ticket.entries, hnil] at hem
  cases hem

/-- A combination of tickets that have presences is met by a group that is formed, if it is chosen,
unless something of it was used up before. -/
theorem meets_of_mem {r₁ : Round} {choices : List Proposal} (hr : r.UnderWay)
    (hdel : r.Deliberates r₁) (hc : c ∈ (propose r).1.latestFirst)
    (hpresent : ∀ m ∈ c.2, m.ticket.presences ≠ []) (hchosen : offer c ∈ choices) :
    (offer c).Spent r ∨ ∃ g ∈ (formChosen (propose r).1 choices r₁).1, (offer c).Meets g := by
  have hgathered := gathered_propose hr hc
  obtain ⟨hcourse, hgroups⟩ := course_formChosen (propose r).1 choices r₁
  have hbooked : ∀ b ∈ bookings (propose r).1 choices r₁, ∀ k ∈ b.members, k ∈ c.2 →
      (offer c).Meets b.group := fun b hb k hk hkc =>
    .inl ⟨k.id, (mem_ticketKey_offer hpresent).2 ⟨k, hkc, rfl⟩,
      mem_ticketIds_group hk (hpresent k hkc)⟩
  rw [hgroups]
  rcases booked_or_unavailable hchosen (members?_offer hr hc hpresent) with
    ⟨b, hb, hmembers⟩ | ⟨m, hm, hunavailable⟩
  · obtain ⟨k, hk⟩ := List.exists_mem_of_ne_nil _ hgathered.ne
    exact .inr ⟨b.group, List.mem_map_of_mem hb, hbooked b hb k (hmembers ▸ hk) hk⟩
  · rcases hcourse.isAvailable_eq_false_iff.1 hunavailable with
      hbefore | ⟨b, hb, k, hk, hid | ⟨x, hx, hxk⟩⟩
    · rw [hdel.isAvailable, Round.isAvailable_eq_false_iff] at hbefore
      rcases hbefore with hticket | ⟨x, hx, hsession⟩
      · exact .inl (.inl ⟨m.id, (mem_ticketKey_offer hpresent).2 ⟨m, hm, rfl⟩, hticket⟩)
      · exact .inl (.inr ⟨x, mem_sessions_offer.2 ⟨m, hm, hx⟩, hsession⟩)
    · -- of one name the pass sees one ticket only
      obtain ⟨q, -, hq⟩ := exists_choice_of_mem_bookings hb
      have hseen := (gathered_propose hr (Found.mem_of_members? hq)).seen k hk
      have hkm : k = m := Round.Sees.eq_of_id hseen (hgathered.seen m hm) hid
      exact .inr ⟨b.group, List.mem_map_of_mem hb, hbooked b hb k hk (hkm ▸ hm)⟩
    · exact .inr ⟨b.group, List.mem_map_of_mem hb,
        .inr ⟨x, mem_sessions_offer.2 ⟨m, hm, hx⟩, mem_sessions_group.2 ⟨k, hk, hxk⟩⟩⟩

/-- If no two choices have a ticket in common, either all tickets of a choice that are seen in it
are in one group, or none of them is in any. -/
theorem grouped_or_idle (r₁ : Round) {choices : List Proposal} (hr : r.UnderWay)
    (hchoices : choices.Pairwise fun p q => ¬ p.Overlaps q)
    (hd : d ∈ (propose r).1.latestFirst) (hchosen : offer d ∈ choices) :
    (∃ g ∈ (formChosen (propose r).1 choices r₁).1, ∀ id ∈ (offer d).ticketKey, id ∈ g.ticketIds) ∨
      ∀ g ∈ (formChosen (propose r).1 choices r₁).1, g.ticketIds.Disjoint (offer d).ticketKey := by
  have hkeyed := keyed_propose r
  rw [(course_formChosen (propose r).1 choices r₁).2]
  by_cases hbooked : ∃ b ∈ bookings (propose r).1 choices r₁,
      (propose r).1.members? (offer d).ticketKey = some b.members
  · obtain ⟨b, hb, hmembers⟩ := hbooked
    refine .inl ⟨b.group, List.mem_map_of_mem hb, fun id hid => ?_⟩
    obtain ⟨m, hm, rfl, hpresent⟩ := exists_of_mem_ticketKey hid
    -- the names of the choice are those of the members that are booked for it
    have hmem := hkeyed.members?_eq_some_iff.1 hmembers
    rw [show (offer d).ticketKey = keyOf b.members from hkeyed.named _ hmem] at hid
    obtain ⟨k, hk, hkm⟩ := List.mem_map.1 ((List.mergeSort_perm _ _).mem_iff.1 hid)
    have heq : k = m := Round.Sees.eq_of_id ((gathered_propose hr hmem).seen k hk)
      ((gathered_propose hr hd).seen m hm) hkm
    exact mem_ticketIds_group (heq ▸ hk) hpresent
  · refine .inr fun g hg id hidg hid => hbooked ?_
    obtain ⟨b, hb, rfl⟩ := List.mem_map.1 hg
    obtain ⟨t, ht, rfl⟩ := Group.exists_of_mem_ticketIds hidg
    obtain ⟨k, hk, rfl⟩ := List.mem_map.1 ht
    exact ⟨b, hb, members?_of_booked hkeyed hchoices hchosen hb hk hid⟩

end Known

/-! ## What is left over -/

/-- A proposal is passed over for a combination that is chosen, is at least as large and has a ticket
in common with it, but is not formed: one of its tickets cannot be seen in the offer,
something of it was used up before, or one of its sessions is in a group, though none of its tickets
is. -/
structure PassedOver (r : Round) (gs : List Group) (p : Proposal) (d : Combination) : Prop where
  known : d ∈ (propose r).1.latestFirst
  chosen : offer d ∈ LargestFirst.choose (propose r).1.offers
  overlaps : (offer d).Overlaps p
  larger : p.size ≤ (offer d).size
  idle : ∀ g ∈ gs, g.ticketIds.Disjoint (offer d).ticketKey
  barred : (∃ m ∈ d.2, m.ticket.presences = []) ∨ (offer d).Spent r ∨
    ∃ g ∈ gs, ∃ x ∈ (offer d).sessions, x ∈ g.sessions

section Largest

variable {r r₁ : Round} {c : Combination} {gs : List Group}

theorem meets_or_passedOver (hr : r.UnderWay) (hdel : r.Deliberates r₁)
    (hgs : gs = (formChosen (propose r).1 (LargestFirst.choose (propose r).1.offers) r₁).1)
    (hc : c ∈ (propose r).1.latestFirst) (hpresent : ∀ m ∈ c.2, m.ticket.presences ≠ []) :
    (offer c).Spent r ∨ (∃ g ∈ gs, (offer c).Meets g) ∨ ∃ d, PassedOver r gs (offer c) d := by
  subst hgs
  have hdisjoint := LargestFirst.pairwise_choose (propose r).1.offers
  by_cases hchosen : offer c ∈ LargestFirst.choose (propose r).1.offers
  · rcases meets_of_mem hr hdel hc hpresent hchosen with hspent | hmeets
    · exact .inl hspent
    · exact .inr (.inl hmeets)
  · obtain ⟨q, hq, ⟨id, hid, hidc⟩, hsize⟩ := LargestFirst.exists_overlaps_of_not_mem
      (Found.Legible.mem_offers.2 ⟨c, hc, rfl⟩) hchosen
    obtain ⟨d, hd, rfl⟩ := Found.Legible.mem_offers.1 (LargestFirst.mem_of_mem_choose hq)
    rcases grouped_or_idle r₁ hr hdisjoint hd hq with ⟨g, hg, hall⟩ | hidle
    · exact .inr (.inl ⟨g, hg, .inl ⟨id, hidc, hall id hid⟩⟩)
    · refine .inr (.inr ⟨d, hd, hq, ⟨id, hid, hidc⟩, hsize, hidle, ?_⟩)
      by_cases hseen : ∀ m ∈ d.2, m.ticket.presences ≠ []
      · rcases meets_of_mem hr hdel hd hseen hq with hspent | ⟨g, hg, ⟨id', hid', hidg⟩ | hsession⟩
        · exact .inr (.inl hspent)
        · exact absurd hid' (hidle g hg hidg)
        · exact .inr (.inr ⟨g, hg, hsession⟩)
      · simp only [not_forall, not_not] at hseen
        obtain ⟨m, hm, hnil⟩ := hseen
        exact .inl ⟨m, hm, hnil⟩

theorem not_spent_of_separate (h : r.Separate) (hr : r.UnderWay)
    (hc : c ∈ (propose r).1.latestFirst) : ¬ (offer c).Spent r := by
  have hseen := (gathered_propose hr hc).seen
  rintro (⟨id, hid, hused⟩ | ⟨x, hx, hused⟩)
  · obtain ⟨m, hm, rfl, -⟩ := exists_of_mem_ticketKey hid
    have hfree := (Round.isAvailable_iff.1 (h.available m (hseen m hm))).1
    rw [hfree] at hused
    cases hused
  · obtain ⟨m, hm, hxm⟩ := mem_sessions_offer.1 hx
    have hfree := (Round.isAvailable_iff.1 (h.available m (hseen m hm))).2 x hxm
    rw [hfree] at hused
    cases hused

/-- If the tickets have no sessions in common, no proposal is passed over for one that is not
formed. -/
theorem not_passedOver_of_separate (h : r.Separate) (hr : r.UnderWay) {choices : List Proposal}
    {p : Proposal} : ¬ PassedOver r (formChosen (propose r).1 choices r₁).1 p c := by
  rintro ⟨hc, -, -, -, hidle, hpresent | hspent | ⟨g, hg, x, hx, hxg⟩⟩
  · obtain ⟨m, hm, hnil⟩ := hpresent
    exact h.present m ((gathered_propose hr hc).seen m hm) hnil
  · exact not_spent_of_separate h hr hc hspent
  · rw [(course_formChosen (propose r).1 choices r₁).2] at hg hidle
    obtain ⟨b, hb, rfl⟩ := List.mem_map.1 hg
    obtain ⟨k, hk, hxk⟩ := mem_sessions_group.1 hxg
    obtain ⟨m, hm, hxm⟩ := mem_sessions_offer.1 hx
    obtain ⟨q, -, hq⟩ := exists_choice_of_mem_bookings hb
    have hseen := (gathered_propose hr hc).seen
    have hk' := (gathered_propose hr (Found.mem_of_members? hq)).seen k hk
    have hpresent : ∀ m ∈ c.2, m.ticket.presences ≠ [] := fun m hm => h.present m (hseen m hm)
    by_cases hid : m.id = k.id
    · have hmem : m.id ∈ (offer c).ticketKey := (mem_ticketKey_offer hpresent).2 ⟨m, hm, rfl⟩
      exact hidle b.group hg (hid ▸ mem_ticketIds_group hk (h.present k hk')) hmem
    · exact h.apart m k (hseen m hm) hk' hid hxm hxk

/-- The groups of a pass with the largest-first selector, if it does not break down. -/
theorem assemble_largestFirst (h : (propose r).2.breakdown = none) (n : Nat) :
    (assemble LargestFirst.selector n r).1 =
      .ok (formChosen (propose r).1 (LargestFirst.choose (propose r).1.offers) (propose r).2).1 := by
  rw [assemble_of_unbroken h]
  cases hempty : (propose r).1.isEmpty with
  | true =>
    have hnone : (propose r).1.offers = [] := by
      rw [Found.offers, Found.toList, List.isEmpty_iff.1 hempty]
      rfl
    rw [settle, if_pos hempty, hnone, LargestFirst.choose,
      LargestFirst.sorted_of_pairwise List.Pairwise.nil]
    rfl
  | false =>
    have hchoices : LargestFirst.selector n (propose r).1.offers =
        .ok (LargestFirst.choose (propose r).1.offers) := rfl
    rw [settle_of_ok hempty hchoices]

/-- A pass whose settings are in range comes to groups, if its selector is largest-first. Whatever
groups a pass comes to, each combination of tickets that have presences has a ticket or a session in
one of them, unless something of it was used up before or it is passed over for another one that is
not formed. If the tickets have no sessions in common and all of them have presences and are
available, nothing that is proposed is left over. -/
theorem largestFirst_leftovers (hr : r.UnderWay) (n : Nat) :
    (¬ r.config.OutOfRange → ∃ gs, (assemble LargestFirst.selector n r).1 = .ok gs) ∧
      ∀ gs, (assemble LargestFirst.selector n r).1 = .ok gs →
        (∀ c ∈ (propose r).1.latestFirst, (∀ m ∈ c.2, m.ticket.presences ≠ []) →
          (offer c).Spent r ∨ (∃ g ∈ gs, (offer c).Meets g) ∨ ∃ d, PassedOver r gs (offer c) d) ∧
        (r.Separate → ∀ p ∈ (propose r).1.offers, ∃ g ∈ gs, p.Meets g) := by
  constructor
  · intro hrange
    exact ⟨_, assemble_largestFirst (unbroken_propose (hr.breakdown hrange) hrange) n⟩
  · intro gs hgs
    rw [assemble_largestFirst (unbroken_of_assemble hgs)] at hgs
    rw [← Except.ok.inj hgs]
    have hdel := deliberates_propose r
    have hall := fun c => @meets_or_passedOver r (propose r).2 c _ hr hdel rfl
    refine ⟨hall, fun hseparate p hp => ?_⟩
    obtain ⟨c, hc, rfl⟩ := Found.Legible.mem_offers.1 hp
    have hseen := (gathered_propose hr hc).seen
    rcases hall c hc fun m hm => hseparate.present m (hseen m hm) with hspent | hmeets | ⟨d, hd⟩
    · exact absurd hspent (not_spent_of_separate hseparate hr hc)
    · exact hmeets
    · exact absurd hd (not_passedOver_of_separate hseparate hr)

end Largest

/-! ## Rounds of a few tickets -/

/-- Some tickets wait when a pass begins that does not insist. -/
def waiting (ps : List Pooled) : Round :=
  .start (ps.foldl (fun c p => c.put p.ticket) Catalog.empty).commit.shelf
    ⟨ps.foldl (fun t p => t.insert p.id p) .empty, .empty⟩ {} .off .empty (fun _ => "") 0

/-- The ticket of a user who came after some milliseconds with a session and asks for a pair with
the ticket of a given name. -/
def userNaming (millis : Int) (id session named : String) : Pooled :=
  ⟨.ofRequest id ⟨millis * 1000000⟩ (.solo session id ("ticket_id:" ++ named) 2 2 1)
    ("ticket_id:" ++ named), .atom (.term ⟨⟨.ticketId, ""⟩, .text named⟩)⟩

section Waiting

variable {ps : List Pooled} {r : Round} {outer c : Pooled} {limit : Nat}

theorem get?_foldl_insert {t : Table Pooled} {id : String} {p : Pooled}
    (h : (ps.foldl (fun t p => t.insert p.id p) t).get? id = some p) :
    (p ∈ ps ∧ p.id = id) ∨ t.get? id = some p := by
  induction ps generalizing t with
  | nil => exact .inr h
  | cons q rest ih =>
    rcases ih h with ⟨hp, hid⟩ | h
    · exact .inl ⟨List.mem_cons_of_mem q hp, hid⟩
    · rw [Table.get?_insert] at h
      split at h
      · cases h
        rename_i hid
        exact .inl ⟨List.mem_cons_self, hid.symm⟩
      · exact .inr h

theorem underWay_waiting (h : ((waiting ps).shelf.cards.map Card.ticketId).Nodup) :
    (waiting ps).UnderWay := by
  have hkeyed : ∀ id p, (waiting ps).tickets.tickets.get? id = some p → p.id = id := by
    intro id p hp
    rcases get?_foldl_insert hp with ⟨-, hid⟩ | hp
    · exact hid
    · simp at hp
  have hclear : Clear (waiting ps).shelf.cards (waiting ps).tickets.tickets := ⟨h, hkeyed⟩
  exact .start hclear {} .off .empty (fun _ => "") 0

/-- The standard settings are in range. -/
theorem unbroken_waiting (ps : List Pooled) : (propose (waiting ps)).2.breakdown = none :=
  unbroken_propose rfl (show ¬ ({} : Config).OutOfRange by decide)

theorem mem_of_sees_waiting {m : Pooled} (h : (waiting ps).Sees m) : m ∈ ps := by
  rcases get?_foldl_insert h with ⟨hm, -⟩ | hm
  · exact hm
  · simp at hm

theorem isAvailable_waiting (m : Pooled) : (waiting ps).isAvailable m = true :=
  Round.isAvailable_iff.2 ⟨rfl, fun _ _ => rfl⟩

/-- If a search hits at most one card, its ticket is what is found. -/
theorem found_of_ticketIds {ids : List String} (hquery : outer.query.runnable = true)
    (hlimit : limit ≠ 0) (hfew : ids.length ≤ 1)
    (hhits : (r.shelf.hits (.ofTicket outer.ticket outer.query limit)).map Hit.ticketId = ids) :
    r.found outer limit = ids.filterMap r.tickets.tickets.get? := by
  cases hlist : r.shelf.hits (.ofTicket outer.ticket outer.query limit) with
  | nil =>
    rw [hlist] at hhits
    have hsearch : r.shelf.search (.ofTicket outer.ticket outer.query limit) = .ok [] := by
      have hrunnable : (Inquiry.ofTicket outer.ticket outer.query limit).query.runnable = true :=
        hquery
      have hranking : r.shelf.ranking (.ofTicket outer.ticket outer.query limit) = [] := by
        rw [Shelf.ranking, hlist, List.mergeSort_nil]
      rw [Shelf.search_eq_ranking (Nat.pos_of_ne_zero hlimit) hrunnable, hranking, List.take_nil,
        List.mergeSort_nil]
    rw [Round.found, hsearch, ← hhits]
    rfl
  | cons x rest =>
    rw [hlist] at hhits
    have hrest : rest = [] := by
      rw [← hhits, List.length_map, List.length_cons] at hfew
      exact List.length_eq_zero_iff.1 (by omega)
    rw [hrest] at hlist hhits
    rw [Round.found_of_hits_eq_singleton hquery hlimit hlist, ← hhits]
    rfl

/-- What a waiting ticket proposes if its search hits at most one card. -/
theorem proposals_waiting (outer : Pooled) {ids : List String} (hr : (waiting ps).UnderWay)
    (ho : (waiting ps).Sees outer) (hquery : outer.query.runnable = true)
    (hhits : ((waiting ps).shelf.hits (.ofTicket outer.ticket outer.query 100)).map Hit.ticketId =
      ids) (hfew : ids.length ≤ 1) :
    proposals (waiting ps) (outer, false) =
      ((picks (outer.ticket.maxCount - outer.ticket.count) (chart (together false (waiting ps).shelf)
        ((ids.filterMap (waiting ps).tickets.tickets.get?).take 16))).filter fun p =>
          fits outer (((waiting ps).countInterval outer).isLast outer false) p.members p.count).map
            fun p => outer :: p.members := by
  have hfound := found_of_ticketIds hquery (by decide) hfew hhits
  have hconfig : (waiting ps).config.batchSize = 100 := rfl
  rw [proposals_eq hr (fun _ => rfl) ho, hconfig, hfound]
  simp only [isAvailable_waiting, agree_false, Bool.and_true, List.filter_true]
  rfl

/-- If all tickets have presences and nothing was used up before, the groups are those of the
honoured ones of what largest-first chooses. -/
theorem entries_of_honoured (hr : r.UnderWay) (hpresent : ∀ m, r.Sees m → m.ticket.presences ≠ [])
    (hunused : Uses r []) (n : Nat) {gs : List Group}
    (hgs : (assemble LargestFirst.selector n r).1 = .ok gs) :
    gs.map Group.entries = (honoured (propose r).1.offers []
      (LargestFirst.choose (propose r).1.offers)).map Proposal.entries := by
  have hdel := deliberates_propose r
  have hgathered := fun c hc => @gathered_propose r c hr hc
  have hlegible : (propose r).1.Legible :=
    ⟨keyed_propose r, fun c hc => (hgathered c hc).distinct,
      fun c hc m hm => hpresent m ((hgathered c hc).seen m hm)⟩
  have hunused' : Uses (propose r).2 [] := by
    refine ⟨fun id => ?_, fun x => ?_⟩
    · rw [hdel.consumed]
      exact hunused.tickets id
    · rw [hdel.consumedSessions]
      exact hunused.sessions x
  rw [assemble_largestFirst (unbroken_of_assemble hgs), formChosen_eq hlegible _ hunused'] at hgs
  rw [← Except.ok.inj hgs]
  exact entries_formHonoured hlegible _ _

end Waiting

/-! ## Two tickets of one session -/

/-- One session owns two tickets. The first asks for the ticket of another user. -/
def firstOfSession : Pooled := userNaming 0 "a" "s" "c"

/-- The second asks for the ticket of a third user, -/
def secondOfSession : Pooled := userNaming 1 "b" "s" "d"

/-- What the first asks for. -/
def wantedByFirst : Pooled := userNaming 2 "c" "t" "nobody"

/-- who in turn asks for a fourth one. -/
def wantedBySecond : Pooled := userNaming 3 "d" "u" "e"

/-- The last user finds nobody. -/
def wantedLast : Pooled := userNaming 4 "e" "v" "nobody"

/-- All five wait. -/
def crossed : Round :=
  waiting [firstOfSession, secondOfSession, wantedByFirst, wantedBySecond, wantedLast]

theorem underWay_crossed : crossed.UnderWay := underWay_waiting (by decide)

theorem present_crossed {m : Pooled} (h : crossed.Sees m) : m.ticket.presences ≠ [] := by
  have hmem := mem_of_sees_waiting h
  simp only [List.mem_cons, List.not_mem_nil, or_false] at hmem
  rcases hmem with rfl | rfl | rfl | rfl | rfl <;> exact List.cons_ne_nil _ _

theorem order_crossed : crossed.order =
    [(firstOfSession, false), (secondOfSession, false), (wantedByFirst, false),
      (wantedBySecond, false), (wantedLast, false)] := by
  refine List.mergeSort_of_pairwise ?_
  decide

/-- The first of the session proposes a pair, the second another one, and so does the third user. -/
theorem proposals_crossed : crossed.order.flatMap (proposals crossed) =
    [[firstOfSession, wantedByFirst], [secondOfSession, wantedBySecond],
      [wantedBySecond, wantedLast]] := by
  have hids : crossed.order.map (fun o => (crossed.shelf.hits
      (.ofTicket o.1.ticket o.1.query 100)).map Hit.ticketId) = [["c"], ["d"], [], ["e"], []] := by
    rw [order_crossed]
    decide
  rw [order_crossed] at hids ⊢
  simp only [List.map_cons, List.map_nil, List.cons.injEq, and_true] at hids
  obtain ⟨ha, hb, hc, hd, he⟩ := hids
  have hfirst : proposals crossed (firstOfSession, false) = [[firstOfSession, wantedByFirst]] :=
    proposals_waiting firstOfSession underWay_crossed rfl rfl ha (Nat.le_refl 1)
  have hsecond : proposals crossed (secondOfSession, false) = [[secondOfSession, wantedBySecond]] :=
    proposals_waiting secondOfSession underWay_crossed rfl rfl hb (Nat.le_refl 1)
  have hthird : proposals crossed (wantedByFirst, false) = [] :=
    proposals_waiting wantedByFirst underWay_crossed rfl rfl hc (Nat.zero_le 1)
  have hfourth : proposals crossed (wantedBySecond, false) = [[wantedBySecond, wantedLast]] :=
    proposals_waiting wantedBySecond underWay_crossed rfl rfl hd (Nat.le_refl 1)
  have hlast : proposals crossed (wantedLast, false) = [] :=
    proposals_waiting wantedLast underWay_crossed rfl rfl he (Nat.zero_le 1)
  simp only [List.flatMap_cons, List.flatMap_nil, hfirst, hsecond, hthird, hfourth, hlast]
  rfl

/-- The pair of the third and the fourth user. -/
def leftPair : Proposal := offer ([], [wantedBySecond, wantedLast])

theorem offers_crossed : (propose crossed).1.offers =
    [offer ([], [firstOfSession, wantedByFirst]), offer ([], [secondOfSession, wantedBySecond]),
      leftPair] := by
  rw [offers_propose underWay_crossed fun _ => rfl, proposals_crossed]
  rfl

theorem uses_waiting (ps : List Pooled) : Uses (waiting ps) [] :=
  ⟨fun id => by simp [waiting, Round.start], fun x => by simp [waiting, Round.start]⟩

/-- Only the group of the first of the session is formed. -/
theorem entries_crossed {gs : List Group}
    (h : (assemble LargestFirst.selector 0 crossed).1 = .ok gs) :
    gs.map Group.entries = [(offer ([], [firstOfSession, wantedByFirst])).entries] := by
  have hsorted : LargestFirst.sorted [offer ([], [firstOfSession, wantedByFirst]),
      offer ([], [secondOfSession, wantedBySecond]), leftPair] =
        [offer ([], [firstOfSession, wantedByFirst]),
          offer ([], [secondOfSession, wantedBySecond]), leftPair] :=
    LargestFirst.sorted_of_pairwise (by decide)
  rw [entries_of_honoured underWay_crossed (fun _ => present_crossed) (uses_waiting _) 0 h,
    offers_crossed, LargestFirst.choose, hsorted]
  decide

/-- Nothing of the third and the fourth user is in a group. -/
theorem not_meets_leftPair {gs : List Group}
    (h : (assemble LargestFirst.selector 0 crossed).1 = .ok gs) : ∀ g ∈ gs, ¬ leftPair.Meets g := by
  intro g hg
  have hentries := List.mem_map_of_mem (f := Group.entries) hg
  rw [entries_crossed h, List.mem_singleton] at hentries
  have hids : g.ticketIds = ["a", "c"] := by
    rw [Group.ticketIds, hentries]
    decide
  have hsessions : g.sessions = ["s", "t"] := by
    rw [Group.sessions, hentries]
    decide
  rw [Proposal.Meets, hids, hsessions]
  decide

/-! ## Tickets without presences -/

/-- A ticket that asks for another one, -/
def asking : Pooled :=
  ⟨.ofRequest "a" ⟨0⟩ (.solo "s" "a" "ticket_id:b" 1 1 1) "ticket_id:b",
    .atom (.term ⟨⟨.ticketId, ""⟩, .text "b"⟩)⟩

/-- which has no presences. -/
def unseen : Pooled :=
  ⟨.ofRequest "b" ⟨1000000⟩ { Request.solo "" "" "ticket_id:nobody" 1 1 1 with presences := [] }
    "ticket_id:nobody", .atom (.term ⟨⟨.ticketId, ""⟩, .text "nobody"⟩)⟩

/-- Both wait. -/
def veiled : Round := waiting [asking, unseen]

theorem underWay_veiled : veiled.UnderWay := underWay_waiting (by decide)

theorem proposals_veiled : veiled.order.flatMap (proposals veiled) = [[asking, unseen]] := by
  have horder : veiled.order = [(asking, false), (unseen, false)] := by
    refine List.mergeSort_of_pairwise ?_
    decide
  have hids : veiled.order.map (fun o => (veiled.shelf.hits
      (.ofTicket o.1.ticket o.1.query 100)).map Hit.ticketId) = [["b"], []] := by
    rw [horder]
    decide
  rw [horder] at hids ⊢
  simp only [List.map_cons, List.map_nil, List.cons.injEq, and_true] at hids
  have hfirst : proposals veiled (asking, false) = [[asking, unseen]] :=
    proposals_waiting asking underWay_veiled rfl rfl hids.1 (Nat.le_refl 1)
  have hsecond : proposals veiled (unseen, false) = [] :=
    proposals_waiting unseen underWay_veiled rfl rfl hids.2 (Nat.zero_le 1)
  simp only [List.flatMap_cons, List.flatMap_nil, hfirst, hsecond]
  rfl

theorem offers_veiled : (propose veiled).1.offers = [offer ([], [asking, unseen])] := by
  rw [offers_propose underWay_veiled fun _ => rfl, proposals_veiled]
  rfl

/-- Under the name of the first ticket alone nothing was found, so nothing is formed. -/
theorem assemble_veiled : (assemble LargestFirst.selector 0 veiled).1 = .ok [] := by
  have hchosen : LargestFirst.choose [offer ([], [asking, unseen])] =
      [offer ([], [asking, unseen])] := by
    rw [LargestFirst.choose, LargestFirst.sorted_of_pairwise (List.pairwise_singleton _ _)]
    decide
  have hunknown : (propose veiled).1.members? (offer ([], [asking, unseen])).ticketKey = none := by
    rw [← Option.not_isSome_iff_eq_none, isSome_members?_propose underWay_veiled fun _ => rfl]
    rintro ⟨o, ho, members, hmembers, hkey⟩
    have hmem := List.mem_flatMap_of_mem ho hmembers
    rw [proposals_veiled, List.mem_singleton] at hmem
    have hlength := congrArg List.length hkey
    rw [hmem, keyOf, List.length_mergeSort] at hlength
    revert hlength
    decide
  have hunbroken : (propose veiled).2.breakdown = none := unbroken_waiting _
  rw [assemble_largestFirst hunbroken, offers_veiled, hchosen, formChosen, hunknown]
  rfl

/-- If a session owns two tickets, a pair can be left over of which nothing is used up, and so can
what is proposed with a ticket that has no presences. -/
theorem largestFirst_wasteful :
    (crossed.UnderWay ∧ (∀ m, crossed.isAvailable m = true) ∧
      (∀ m, crossed.Sees m → m.ticket.presences ≠ []) ∧
      ∃ gs, (assemble LargestFirst.selector 0 crossed).1 = .ok gs ∧
        ∃ p ∈ (propose crossed).1.offers, ∀ g ∈ gs, ¬ p.Meets g) ∧
    veiled.UnderWay ∧ (∀ m, veiled.isAvailable m = true) ∧
      (assemble LargestFirst.selector 0 veiled).1 = .ok [] ∧ (propose veiled).1.offers ≠ [] := by
  refine ⟨⟨underWay_crossed, isAvailable_waiting, fun _ => present_crossed, ?_⟩, underWay_veiled,
    isAvailable_waiting, assemble_veiled, by rw [offers_veiled]; exact List.cons_ne_nil _ _⟩
  have hunbroken : (propose crossed).2.breakdown = none := unbroken_waiting _
  have hgroups := assemble_largestFirst hunbroken 0
  exact ⟨_, hgroups, leftPair, by rw [offers_crossed]; simp, not_meets_leftPair hgroups⟩

/-! ## Two tickets of different sessions -/

/-- The first of the session waits without the second, and so does the ticket that it asks for. -/
def apartPair : Round := waiting [firstOfSession, wantedByFirst]

theorem underWay_apartPair : apartPair.UnderWay := underWay_waiting (by decide)

theorem separate_apartPair : apartPair.Separate := by
  have hseen : ∀ m, apartPair.Sees m → m = firstOfSession ∨ m = wantedByFirst := by
    intro m hm
    simpa using mem_of_sees_waiting hm
  refine ⟨fun m _ => isAvailable_waiting m, fun m hm => ?_, fun m k hm hk hid => ?_⟩
  · rcases hseen m hm with rfl | rfl <;> exact List.cons_ne_nil _ _
  · have hsessions : firstOfSession.ticket.sessions.Disjoint wantedByFirst.ticket.sessions := by
      intro x hx hy
      rw [show x = "s" from List.mem_singleton.1 hx] at hy
      exact absurd (List.mem_singleton.1 hy) (by decide)
    rcases hseen m hm with rfl | rfl <;> rcases hseen k hk with rfl | rfl
    · exact absurd rfl hid
    · exact hsessions
    · exact fun x hx hy => hsessions hy hx
    · exact absurd rfl hid

theorem offers_apartPair : (propose apartPair).1.offers =
    [offer ([], [firstOfSession, wantedByFirst])] := by
  have horder : apartPair.order = [(firstOfSession, false), (wantedByFirst, false)] := by
    refine List.mergeSort_of_pairwise ?_
    decide
  have hids : apartPair.order.map (fun o => (apartPair.shelf.hits
      (.ofTicket o.1.ticket o.1.query 100)).map Hit.ticketId) = [["c"], []] := by
    rw [horder]
    decide
  rw [horder] at hids
  simp only [List.map_cons, List.map_nil, List.cons.injEq, and_true] at hids
  have hfirst : proposals apartPair (firstOfSession, false) = [[firstOfSession, wantedByFirst]] :=
    proposals_waiting firstOfSession underWay_apartPair rfl rfl hids.1 (Nat.le_refl 1)
  have hsecond : proposals apartPair (wantedByFirst, false) = [] :=
    proposals_waiting wantedByFirst underWay_apartPair rfl rfl hids.2 (Nat.zero_le 1)
  rw [offers_propose underWay_apartPair fun _ => rfl, horder]
  simp only [List.flatMap_cons, List.flatMap_nil, hfirst, hsecond]
  rfl

/-- When the five wait, the last pair is passed over for one that is not formed; when two of them
wait, their pair has a ticket or a session in a group. -/
theorem leftovers_crossed :
    (crossed.UnderWay ∧ ∃ gs, (assemble LargestFirst.selector 0 crossed).1 = .ok gs ∧
      ∃ c ∈ (propose crossed).1.latestFirst, offer c = leftPair ∧
        (∀ m ∈ c.2, m.ticket.presences ≠ []) ∧ ∃ d, PassedOver crossed gs leftPair d) ∧
    apartPair.UnderWay ∧ apartPair.Separate ∧
      ∃ gs, (assemble LargestFirst.selector 0 apartPair).1 = .ok gs ∧
        ∃ p ∈ (propose apartPair).1.offers, ∃ g ∈ gs, p.Meets g := by
  refine ⟨⟨underWay_crossed, ?_⟩, underWay_apartPair, separate_apartPair, ?_⟩
  · obtain ⟨hsome, hgroups⟩ := largestFirst_leftovers underWay_crossed 0
    obtain ⟨gs, hgs⟩ := hsome (show ¬ ({} : Config).OutOfRange by decide)
    obtain ⟨hall, -⟩ := hgroups gs hgs
    have hoffered : leftPair ∈ (propose crossed).1.offers := by
      rw [offers_crossed]
      simp
    obtain ⟨c, hc, heq⟩ := Found.Legible.mem_offers.1 hoffered
    have hpresent : ∀ m ∈ c.2, m.ticket.presences ≠ [] := fun m hm =>
      present_crossed ((gathered_propose underWay_crossed hc).seen m hm)
    refine ⟨gs, hgs, c, hc, heq, hpresent, ?_⟩
    rcases hall c hc hpresent with hspent | ⟨g, hg, hmeets⟩ | hpassed
    · rcases hspent with ⟨id, -, hused⟩ | ⟨x, -, hused⟩
      · simp [crossed, waiting, Round.start] at hused
      · simp [crossed, waiting, Round.start] at hused
    · exact absurd (heq ▸ hmeets) (not_meets_leftPair hgs g hg)
    · exact heq ▸ hpassed
  · obtain ⟨hsome, hgroups⟩ := largestFirst_leftovers underWay_apartPair 0
    obtain ⟨gs, hgs⟩ := hsome (show ¬ ({} : Config).OutOfRange by decide)
    obtain ⟨-, hall⟩ := hgroups gs hgs
    have hoffered : offer ([], [firstOfSession, wantedByFirst]) ∈ (propose apartPair).1.offers := by
      rw [offers_apartPair]
      exact List.mem_cons_self
    exact ⟨gs, hgs, _, hoffered, hall separate_apartPair _ hoffered⟩

end Exhaustive

end Matchmaking
