import Matchmaking.Proofs.Inquiries
import Matchmaking.Proofs.Lists

/-!
# Short lists of candidates

A search stops at its limit before the pass looks at what was found. Hits whose tickets are used up,
or do not suit the outer ticket, therefore take up places, and if they take up all of them, there are
no candidates, though the next hit would have been one. Main statement: `candidates_of_limit` says
which candidates a limit leaves, and that a limit greater than the number of hits that are of no use
leaves one if there is any.
-/

namespace Matchmaking

namespace Round

variable {r : Round} {outer p : Pooled} {limit most : Nat} {insists : Bool} {x : Hit}

/-! ## What a limit finds -/

/-- Whether a hit is of use for an outer ticket: the pass sees a ticket of its name, which is
available and, if the pass insists, suits the outer ticket and is suited by it. -/
def usable (r : Round) (insists : Bool) (outer : Pooled) (x : Hit) : Bool :=
  (r.tickets.tickets.get? x.ticketId).any fun p =>
    r.isAvailable p && agree insists r.shelf outer p

theorem usable_iff : r.usable insists outer x = true ↔ ∃ p,
    r.tickets.tickets.get? x.ticketId = some p ∧ r.isAvailable p = true ∧
      agree insists r.shelf outer p = true := by
  simp only [usable, Option.any_eq_true, Bool.and_eq_true]

/-- The hits of an outer ticket, the more relevant ones first, whatever the limit. -/
def rankingOf (r : Round) (outer : Pooled) : List Hit :=
  r.shelf.ranking (.ofTicket outer.ticket outer.query 0)

theorem mem_found_iff (hlimit : 0 < limit) (hrunnable : outer.query.runnable = true) :
    p ∈ r.found outer limit ↔
      ∃ x ∈ (r.rankingOf outer).take limit, r.tickets.tickets.get? x.ticketId = some p := by
  have hsearch := @Shelf.search_eq_ranking r.shelf (.ofTicket outer.ticket outer.query limit)
    hlimit hrunnable
  have hperm := Shelf.perm_take_ranking hsearch
  unfold found
  rw [hsearch]
  simp only [List.mem_filterMap]
  constructor
  · rintro ⟨x, hx, hget⟩
    exact ⟨x, hperm.mem_iff.1 hx, hget⟩
  · rintro ⟨x, hx, hget⟩
    exact ⟨x, hperm.mem_iff.2 hx, hget⟩

theorem compatible_of_agree (hr : r.Recalls) (ho : r.Sees outer) (hp : r.Sees p)
    (hgate : r.precision.isOpen r.asked = true → insists = true)
    (hagree : agree insists r.shelf outer p = true) : (r.compatible outer p).1 = true := by
  rw [compatible_fst hr ho hp]
  cases hopen : r.precision.isOpen r.asked with
  | false => rfl
  | true => exact agree_iff.1 hagree (hgate hopen)

/-- Whether a pass insists is asked anew for each candidate. Those who may be together with the
outer ticket if it does are kept at any reading; the others may be kept once it does not. -/
theorem mem_keepSuitable {cs : List Pooled} (hr : r.Recalls) (ho : r.Sees outer)
    (hcs : ∀ c ∈ cs, r.Sees c)
    (hgate : ∀ i, r.asked ≤ i → r.precision.isOpen i = true → insists = true) (hp : p ∈ cs)
    (havail : r.isAvailable p = true) (hagree : agree insists r.shelf outer p = true) :
    p ∈ (keepSuitable outer cs r).1 := by
  induction cs generalizing r with
  | nil => cases hp
  | cons c rest ih =>
    have hc := hcs c List.mem_cons_self
    have hrest : ∀ d ∈ rest, r.Sees d := fun d hd => hcs d (List.mem_cons_of_mem c hd)
    unfold keepSuitable
    by_cases hcavail : r.isAvailable c = true
    · have hask := asks_compatible ho hc
      have hdel := deliberates_compatible r outer c
      have hanswer := fun h => @compatible_of_agree r outer c insists hr ho hc
        (hgate r.asked (Nat.le_refl _)) h
      rw [if_pos hcavail]
      generalize r.compatible outer c = asked at hask hdel hanswer ⊢
      obtain ⟨answer, r₁⟩ := asked
      simp only at hask hdel hanswer ⊢
      -- the question uses up nobody, so the others can be looked for in the next state
      have hnext : p ∈ rest → p ∈ (keepSuitable outer rest r₁).1 := by
        intro hmem
        have hlater := hask.acts.later
        refine ih (hask.acts.recalls hr) (hask.acts.sees.2 ho)
          (fun d hd => hask.acts.sees.2 (hrest d hd)) ?_ hmem ?_ ?_
        · intro i hi hopen
          rw [hlater.precision] at hopen
          exact hgate i (Nat.le_trans hlater.asked hi) hopen
        · rwa [hdel.isAvailable]
        · rwa [hlater.shelf]
      rcases List.mem_cons.1 hp with rfl | hmem
      · rw [hanswer hagree]
        exact List.mem_cons_self
      · cases answer with
        | true => exact List.mem_cons_of_mem c (hnext hmem)
        | false => exact hnext hmem
    · rw [if_neg hcavail]
      rcases List.mem_cons.1 hp with rfl | hmem
      · exact absurd havail hcavail
      · exact ih hr ho hrest hgate hmem havail hagree

theorem exists_mem_candidates (hr : UnderWay r) (ho : r.Sees outer) (hlimit : 0 < limit)
    (hrunnable : outer.query.runnable = true)
    (hgate : ∀ i, r.asked ≤ i → r.precision.isOpen i = true → insists = true)
    (hx : x ∈ (r.rankingOf outer).take limit) (husable : r.usable insists outer x = true) :
    ∃ p ∈ (r.candidates outer limit).1, p.id = x.ticketId := by
  obtain ⟨p, hget, havail, hagree⟩ := usable_iff.1 husable
  refine ⟨p, ?_, hr.clear.keyed x.ticketId p hget⟩
  have hfound := (@mem_found_iff r outer p limit hlimit hrunnable).2 ⟨x, hx, hget⟩
  have hsees : ∀ c ∈ r.found outer limit, r.Sees c := by
    intro c hc
    exact (spec_of_mem_found hr.clear hc).1
  rw [candidates_of_pos hlimit]
  exact mem_keepSuitable hr.recalls ho hsees hgate hfound havail hagree

theorem exists_usable_of_mem_candidates (hlimit : 0 < limit) (hrunnable : outer.query.runnable = true)
    (hp : p ∈ (r.candidates outer limit).1) :
    ∃ x ∈ (r.rankingOf outer).take limit, r.usable false outer x = true := by
  have hfound := (candidates_sublist r outer limit).subset hp
  obtain ⟨x, hx, hget⟩ := (mem_found_iff hlimit hrunnable).1 hfound
  exact ⟨x, hx, usable_iff.2 ⟨p, hget, isAvailable_of_mem_candidates hp, rfl⟩⟩

/-! ## Places that are taken up -/

/-- If a search asks for any hits, each hit that is of use and is among the first ones of the
ranking, as many as the limit allows, becomes a candidate. If an unlimited search finds a hit that is
of use, and fewer that are not than the limit allows, there is a candidate. If none of the first ones
is of use, there is none. -/
theorem candidates_of_limit (hr : UnderWay r) (ho : r.Sees outer)
    (hgate : ∀ i, r.asked ≤ i → r.precision.isOpen i = true → insists = true)
    {all : List Hit} (hmost : r.shelf.size ≤ most)
    (hall : r.shelf.search (.ofTicket outer.ticket outer.query most) = .ok all)
    (hlimit : 0 < limit) :
    (∀ x ∈ (r.rankingOf outer).take limit, r.usable insists outer x = true →
        ∃ p ∈ (r.candidates outer limit).1, p.id = x.ticketId) ∧
      ((∃ x ∈ all, r.usable insists outer x = true) →
        (all.countP fun x => !r.usable insists outer x) < limit →
          (r.candidates outer limit).1 ≠ []) ∧
      ((∀ x ∈ (r.rankingOf outer).take limit, r.usable false outer x = false) →
        (r.candidates outer limit).1 = []) := by
  have hrunnable : outer.query.runnable = true := Shelf.runnable_of_search hall
  have hkept : ∀ x ∈ (r.rankingOf outer).take limit, r.usable insists outer x = true →
      ∃ p ∈ (r.candidates outer limit).1, p.id = x.ticketId := by
    intro x hx husable
    exact exists_mem_candidates hr ho hlimit hrunnable hgate hx husable
  refine ⟨hkept, ?_, ?_⟩
  · intro hsome hfew
    have hperm : all.Perm (r.rankingOf outer) :=
      (Shelf.search_perm hall hmost).trans (Shelf.ranking_perm _ _).symm
    rw [hperm.countP_eq] at hfew
    have hsome' : ∃ x ∈ r.rankingOf outer, r.usable insists outer x = true := by
      obtain ⟨x, hx, husable⟩ := hsome
      exact ⟨x, hperm.mem_iff.1 hx, husable⟩
    obtain ⟨x, hx, husable⟩ := exists_mem_take hfew hsome'
    obtain ⟨p, hp, -⟩ := hkept x hx husable
    exact List.ne_nil_of_mem hp
  · intro hnone
    apply List.eq_nil_iff_forall_not_mem.2
    intro p hp
    obtain ⟨x, hx, husable⟩ := exists_usable_of_mem_candidates hlimit hrunnable hp
    rw [hnone x hx] at husable
    cases husable

/-! ## A group that takes up the only place -/

open Matchmaking.Shelf (madeAfter threeCards)

/-- The ticket of a user who came after some milliseconds and looks for one other user. -/
def userAfter (millis : Int) (id : String) : Pooled := ⟨madeAfter millis id, .atom .all⟩

/-- Three users wait. -/
def threeUsers : Snapshot where
  tickets := ((Table.empty.insert "a" (userAfter 0 "a")).insert "b" (userAfter 1 "b")).insert "c"
    (userAfter 2 "c")
  active := .empty

/-- A pass that insists has used up the second of the three users. -/
def secondTaken : Round :=
  ((start (threeCards 1 2) threeUsers {} .throughout .empty (fun _ => "") 0).form
    [userAfter 1 "b"]).2

theorem underWay_secondTaken : secondTaken.UnderWay := by
  have hmirrors := ((Mirrors.empty.insert (userAfter 0 "a")).insert (userAfter 1 "b")).insert
    (userAfter 2 "c")
  have hclear : Clear (threeCards 1 2).cards threeUsers.tickets :=
    ⟨by decide +kernel, hmirrors.keyed⟩
  exact .act (.start hclear {} .throughout .empty (fun _ => "") 0) (.form _)

/-- The two others in the order in which they are found. -/
def othersOfThree : List Hit :=
  [⟨"b", Shelf.rankOf (Shelf.hitScore 1.0), 1⟩, ⟨"c", Shelf.rankOf (Shelf.hitScore 1.0), 2⟩]

theorem rankingOf_secondTaken : secondTaken.rankingOf (userAfter 0 "a") = othersOfThree := by
  have hhits : (threeCards 1 2).hits (.ofTicket (madeAfter 0 "a") (.atom .all) 0) =
      othersOfThree := rfl
  have hshelf : secondTaken.shelf = threeCards 1 2 := rfl
  rw [rankingOf, Shelf.ranking, hshelf]
  unfold userAfter
  rw [hhits]
  exact List.mergeSort_of_pairwise (by simp [othersOfThree])

theorem search_secondTaken :
    secondTaken.shelf.search (.ofTicket (madeAfter 0 "a") (.atom .all) 3) = .ok othersOfThree := by
  have hranking : secondTaken.shelf.ranking (.ofTicket (madeAfter 0 "a") (.atom .all) 3) =
      othersOfThree := rankingOf_secondTaken
  rw [Shelf.search_eq_ranking (by decide) rfl, hranking]
  refine congrArg Except.ok (List.mergeSort_of_pairwise ?_)
  simp [othersOfThree, Inquiry.ofTicket, Shelf.better]

theorem size_secondTaken : secondTaken.shelf.size ≤ 3 := by decide +kernel

theorem sees_secondTaken : secondTaken.Sees (userAfter 0 "a") := rfl

/-- The third user is available, and the two suit each other. -/
theorem usable_third : secondTaken.usable true (userAfter 0 "a")
    ⟨"c", Shelf.rankOf (Shelf.hitScore 1.0), 2⟩ = true := by
  decide +kernel

/-- With two places one is left for the third user. -/
theorem candidates_of_limit_two : (secondTaken.candidates (userAfter 0 "a") 2).1 ≠ [] := by
  obtain ⟨-, hfew, -⟩ := @candidates_of_limit secondTaken (userAfter 0 "a") 2 3 true
    underWay_secondTaken sees_secondTaken (fun _ _ _ => rfl) othersOfThree size_secondTaken
    search_secondTaken Nat.two_pos
  have hcount : (othersOfThree.countP fun x =>
      !secondTaken.usable true (userAfter 0 "a") x) < 2 := by decide +kernel
  exact hfew ⟨_, List.mem_cons_of_mem _ List.mem_cons_self, usable_third⟩ hcount

/-- With one place there is no candidate, though an unlimited search finds the third user. -/
theorem no_candidates_of_limit_one : ∃ (r : Round) (outer : Pooled) (limit most : Nat)
    (all : List Hit), r.UnderWay ∧ r.Sees outer ∧ 1 ≤ limit ∧ r.shelf.size ≤ most ∧
      r.shelf.search (.ofTicket outer.ticket outer.query most) = .ok all ∧
      (∃ x ∈ all, r.usable true outer x = true) ∧ (r.candidates outer limit).1 = [] := by
  refine ⟨secondTaken, userAfter 0 "a", 1, 3, othersOfThree, underWay_secondTaken,
    sees_secondTaken, Nat.le_refl 1, size_secondTaken, search_secondTaken, ?_, ?_⟩
  · exact ⟨_, List.mem_cons_of_mem _ List.mem_cons_self, usable_third⟩
  · apply List.eq_nil_iff_forall_not_mem.2
    intro p hp
    obtain ⟨x, hx, husable⟩ := exists_usable_of_mem_candidates Nat.one_pos rfl hp
    rw [rankingOf_secondTaken] at hx
    -- the only hit that is looked at is that of the second user
    rw [List.mem_singleton.1 hx] at husable
    exact absurd husable (by decide +kernel)

end Round

end Matchmaking
