import Matchmaking.Proofs.Bookings
import Matchmaking.Proofs.Candidates
import Matchmaking.Proofs.Combinations
import Matchmaking.Proofs.Memory
import Matchmaking.Proofs.Trimming

/-!
# Members that fit

The members of every group are at least two distinct waiting tickets, no two of which clash, and all
of them accept its size. What this takes is checked in different places: the search excludes those
who clash with the outer ticket, buffers and tables those who clash with one another, and the size
is checked again after a group was trimmed.
-/

namespace Matchmaking

open Greedy (entryCount clash)
open Round (Deliberates Course)

/-- Some waiting tickets can be the members of a group. -/
structure Fits (tickets : Table Pooled) (members : List Pooled) : Prop where
  waiting : ∀ m ∈ members, tickets.get? m.id = some m
  distinct : (members.map Pooled.id).Nodup
  two_le : 2 ≤ members.length
  apart : members.Pairwise fun m n => clash m n = false
  accepted : ∀ m ∈ members, m.ticket.acceptsSize (entryCount members) = true

/-- An outer ticket and some of its candidates fit if the candidates do not clash with one another
and all accept the size. -/
theorem fits_of_candidates {r : Round} (hr : Mirrors r.shelf.cards r.tickets.tickets)
    {outer : Pooled} (houter : r.tickets.tickets.get? outer.id = some outer) {limit : Nat}
    {others : List Pooled} (hsub : others.Sublist (r.candidates outer limit).1) (hne : others ≠ [])
    (hapart : others.Pairwise fun m n => clash m n = false)
    (haccepted : ∀ m ∈ outer :: others,
      m.ticket.acceptsSize (entryCount (outer :: others)) = true) :
    Fits r.tickets.tickets (outer :: others) where
  waiting := by
    intro m hm
    rcases List.mem_cons.1 hm with rfl | hm
    · exact houter
    · exact (Round.mem_candidates hr (hsub.subset hm)).1
  distinct := by
    rw [List.map_cons, List.nodup_cons]
    refine ⟨fun hmem => ?_,
      (Round.nodup_candidates hr.clear outer limit).sublist (hsub.map Pooled.id)⟩
    obtain ⟨m, hm, hid⟩ := List.mem_map.1 hmem
    exact (Round.mem_candidates hr (hsub.subset hm)).2.1 hid
  two_le := by
    have := List.length_pos_iff.2 hne
    rw [List.length_cons]
    omega
  apart := List.pairwise_cons.2
    ⟨fun m hm => (Round.mem_candidates hr (hsub.subset hm)).2.2, hapart⟩
  accepted := haccepted

/-! ## Filling greedily -/

namespace Greedy

theorem fits_of_choose {r : Round} (hr : Mirrors r.shelf.cards r.tickets.tickets) {outer : Pooled}
    (houter : r.tickets.tickets.get? outer.id = some outer) {active : Bool}
    {members : List Pooled} (h : (choose outer active r).1 = some members) :
    Fits r.tickets.tickets members := by
  obtain ⟨-, r₁, b, hr₁, hb, hfin⟩ := (choose_spec outer active r).2 members h
  obtain ⟨others, rfl, hne, hsub, haccepted⟩ := finalize_spec hfin
  rw [← hr₁.shelf, ← hr₁.tickets] at hr
  rw [← hr₁.tickets] at houter ⊢
  exact fits_of_candidates hr houter (hsub.trans hb.sub) hne (hb.apart.sublist hsub) haccepted

theorem fits_of_mem_bookings {order : List (Pooled × Bool)} {r : Round}
    (hr : Mirrors r.shelf.cards r.tickets.tickets)
    (horder : ∀ o ∈ order, r.tickets.tickets.get? o.1.id = some o.1) :
    ∀ b ∈ bookings order r, Fits r.tickets.tickets b.members := by
  -- the cards and the snapshot stay the same from turn to turn
  induction order generalizing r with
  | nil => simp [bookings]
  | cons o rest ih =>
    obtain ⟨outer, active⟩ := o
    have hdel := (choose_spec outer active r).1
    have hfits := @fits_of_choose r hr outer (horder _ List.mem_cons_self) active
    have hrest : ∀ o ∈ rest, r.tickets.tickets.get? o.1.id = some o.1 :=
      fun o ho => horder o (List.mem_cons_of_mem _ ho)
    unfold bookings
    generalize choose outer active r = chosen at hdel hfits ⊢
    obtain ⟨_ | members, r₁⟩ := chosen
    · simp only at hdel ⊢
      rw [← hdel.tickets]
      refine ih ?_ ?_
      · rw [hdel.shelf, hdel.tickets]
        exact hr
      · rw [hdel.tickets]
        exact hrest
    · intro b hb
      rcases List.mem_cons.1 hb with rfl | hb
      · exact hfits rfl
      · have htickets : (Booking.after ⟨r₁, members⟩).tickets = r.tickets :=
          (Round.form_tickets r₁ members).trans hdel.tickets
        have hshelf : (Booking.after ⟨r₁, members⟩).shelf = r.shelf :=
          (Round.form_shelf r₁ members).trans hdel.shelf
        rw [← htickets]
        refine ih ?_ ?_ b hb
        · rw [hshelf, htickets]
          exact hr
        · rw [htickets]
          exact hrest

end Greedy

/-! ## Trying all combinations -/

namespace Exhaustive

/-- All combinations that were found fit. -/
def AllFit (tickets : Table Pooled) (f : Found) : Prop := ∀ c ∈ f.latestFirst, Fits tickets c.2

theorem allFit_turn {outer : Pooled} {active : Bool} {known : Found} {r : Round}
    (hr : Mirrors r.shelf.cards r.tickets.tickets)
    (houter : r.tickets.tickets.get? outer.id = some outer)
    (hknown : AllFit r.tickets.tickets known) :
    AllFit r.tickets.tickets (turn outer active known r).1 := by
  have hbegin := Round.deliberates_beginInterval r outer active
  unfold turn
  generalize r.beginInterval outer active = begun at hbegin ⊢
  obtain ⟨last, r₁⟩ := begun
  simp only at hbegin ⊢
  split
  · exact hknown
  · refine Found.forall_foldl_add hknown fun group hgroup => ?_
    obtain ⟨others, rfl, hne, hsub, hapart, haccepted⟩ := enumerate_spec hgroup
    rw [← hbegin.shelf, ← hbegin.tickets] at hr
    rw [← hbegin.tickets] at houter ⊢
    exact fits_of_candidates hr houter (hsub.trans (List.take_sublist _ _)) hne hapart haccepted

theorem allFit_turns {order : List (Pooled × Bool)} {known : Found} {r : Round}
    (hr : Mirrors r.shelf.cards r.tickets.tickets)
    (horder : ∀ o ∈ order, r.tickets.tickets.get? o.1.id = some o.1)
    (hknown : AllFit r.tickets.tickets known) :
    AllFit r.tickets.tickets (turns order known r).1 := by
  induction order generalizing known r with
  | nil => exact hknown
  | cons o rest ih =>
    obtain ⟨outer, active⟩ := o
    have hdel := deliberates_turn outer active known r
    have hturn := @allFit_turn outer active known r hr (horder _ List.mem_cons_self) hknown
    unfold turns
    generalize turn outer active known r = turned at hdel hturn ⊢
    obtain ⟨known₁, r₁⟩ := turned
    simp only at hdel hturn ⊢
    rw [← hdel.shelf, ← hdel.tickets] at hr
    rw [← hdel.tickets] at hturn ⊢
    refine ih hr (fun o ho => ?_) hturn
    rw [hdel.tickets]
    exact horder o (List.mem_cons_of_mem _ ho)

theorem allFit_propose {r : Round} (hr : Mirrors r.shelf.cards r.tickets.tickets) :
    AllFit r.tickets.tickets (propose r).1 :=
  allFit_turns hr (Round.sees_of_mem_order hr.clear) fun c hc => by simp [Found.none] at hc

theorem fits_of_mem_bookings {tickets : Table Pooled} {found : Found} (h : AllFit tickets found)
    {choices : List Proposal} {r : Round} :
    ∀ b ∈ bookings found choices r, Fits tickets b.members := by
  induction choices generalizing r with
  | nil => simp [bookings]
  | cons choice rest ih =>
    unfold bookings
    cases hmembers : found.members? choice.ticketKey with
    | none => exact ih
    | some members =>
      simp only
      split
      · intro b hb
        rcases List.mem_cons.1 hb with rfl | hb
        · exact h _ (Found.mem_of_members? hmembers)
        · exact ih b hb
      · exact ih

end Exhaustive

/-- Whatever the strategy, the members of every group fit. -/
theorem Strategy.fits_of_mem_bookings (t : Strategy) (n : Nat) {r : Round}
    (hr : Mirrors r.shelf.cards r.tickets.tickets) :
    ∀ b ∈ t.bookings n r, Fits r.tickets.tickets b.members := by
  intro b hb
  obtain ⟨hb, -⟩ | ⟨choices, hb, -⟩ := mem_bookings hb
  · exact Greedy.fits_of_mem_bookings hr (Round.sees_of_mem_order hr.clear) b hb
  · exact Exhaustive.fits_of_mem_bookings (Exhaustive.allFit_propose hr) b hb

end Matchmaking
