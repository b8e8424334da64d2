import Mathlib.Data.List.Perm.Basic
import Matchmaking.Catalog.Search
import Matchmaking.Proofs.Sorting

/-!
# Rankings

A search sorts twice. It first sorts all hits by relevance, equally relevant ones in the order in
which their cards were added, and leaves out what is beyond its limit; it then lists what is left by
relevance and age. So the age of a card decides where it is listed, and not whether it is found.
Main statement: `search_divides` says what a search with a limit finds, and when these are the first
hits of a ranking by relevance and age.
-/

namespace Matchmaking

namespace Shelf

variable {s : Shelf} {i : Inquiry} {found left hits : List Hit} {k : Nat}

/-! ## Relevance -/

/-- The hits of an inquiry, more relevant ones first; equally relevant ones in the order in which
their cards were added. -/
def ranking (s : Shelf) (i : Inquiry) : List Hit :=
  (s.hits i).mergeSort fun a b => b.rank ≤ a.rank

theorem rank_trans (a b c : Hit) (hab : decide (b.rank ≤ a.rank) = true)
    (hbc : decide (c.rank ≤ b.rank) = true) : decide (c.rank ≤ a.rank) = true := by
  rw [decide_eq_true_eq] at hab hbc ⊢
  exact Nat.le_trans hbc hab

theorem rank_total (a b : Hit) : (decide (b.rank ≤ a.rank) || decide (a.rank ≤ b.rank)) = true := by
  rw [Bool.or_eq_true, decide_eq_true_eq, decide_eq_true_eq]
  exact Nat.le_total b.rank a.rank

theorem ranking_perm (s : Shelf) (i : Inquiry) : (s.ranking i).Perm (s.hits i) :=
  List.mergeSort_perm _ _

theorem pairwise_ranking (s : Shelf) (i : Inquiry) :
    (s.ranking i).Pairwise fun a b => b.rank ≤ a.rank :=
  (List.pairwise_mergeSort rank_trans rank_total (s.hits i)).imp of_decide_eq_true

/-- Sorting by relevance leaves equally relevant hits in their order. -/
theorem filter_ranking (s : Shelf) (i : Inquiry) (n : Nat) :
    (s.ranking i).filter (fun x => x.rank == n) = (s.hits i).filter fun x => x.rank == n := by
  refine filter_mergeSort rank_trans rank_total _ (fun a b ha hb => ?_) _
  rw [beq_iff_eq.1 ha, beq_iff_eq.1 hb]
  exact decide_eq_true (Nat.le_refl n)

/-! ## Age -/

theorem better_iff {a b : Hit} : better a b = true ↔
    b.rank < a.rank ∨ (a.rank = b.rank ∧ a.createdMillis ≤ b.createdMillis) := by
  simp only [better, Bool.or_eq_true, Bool.and_eq_true, decide_eq_true_eq, beq_iff_eq]

theorem better_trans (a b c : Hit) (hab : better a b = true) (hbc : better b c = true) :
    better a c = true := by
  rw [better_iff] at hab hbc ⊢
  omega

theorem better_total (a b : Hit) : (better a b || better b a) = true := by
  rw [Bool.or_eq_true, better_iff, better_iff]
  omega

/-- Some hits are the first ones of others, if these are ranked by relevance and then by age. -/
def FirstByAge (k : Nat) (hits found : List Hit) : Prop :=
  ∃ ranked : List Hit, ranked.Perm hits ∧ (ranked.Pairwise fun a b => better a b = true) ∧
    found = ranked.take k

/-! ## Searching with a limit -/

/-- A search without a limit breaks down. -/
theorem search_of_limit_zero (h : i.limit = 0) : s.search i = .error .broken := by
  rw [search, if_pos h]

theorem search_of_not_runnable (hlimit : 0 < i.limit) (h : i.query.runnable = false) :
    s.search i = .error (.engine propertyRangeNotice) := by
  rw [search, if_neg (Nat.ne_of_gt hlimit), h]
  rfl

theorem search_eq_ranking (hlimit : 0 < i.limit) (h : i.query.runnable = true) :
    s.search i = .ok (((s.ranking i).take i.limit).mergeSort better) := by
  rw [search, if_neg (Nat.ne_of_gt hlimit), if_pos h]
  rfl

theorem limit_pos_of_search (h : s.search i = .ok found) : 0 < i.limit := by
  refine Nat.pos_of_ne_zero fun hzero => ?_
  rw [search_of_limit_zero hzero] at h
  cases h

theorem runnable_of_search (h : s.search i = .ok found) : i.query.runnable = true := by
  cases hrunnable : i.query.runnable with
  | true => rfl
  | false =>
    rw [search_of_not_runnable (limit_pos_of_search h) hrunnable] at h
    cases h

theorem eq_of_search (h : s.search i = .ok found) :
    found = ((s.ranking i).take i.limit).mergeSort better := by
  rw [search_eq_ranking (limit_pos_of_search h) (runnable_of_search h)] at h
  exact (Except.ok.inj h).symm

theorem perm_take_ranking (h : s.search i = .ok found) :
    found.Perm ((s.ranking i).take i.limit) := by
  rw [eq_of_search h]
  exact List.mergeSort_perm _ _

/-- How some hits are divided into those that are found and those that are left out, if no more than
`k` may be found. -/
structure Division (k : Nat) (hits found left : List Hit) : Prop where
  perm : (found ++ left).Perm hits
  length : found.length = min k hits.length
  listed : found.Pairwise fun a b => better a b = true
  relevant : ∀ x ∈ found, ∀ y ∈ left, y.rank ≤ x.rank
  added : ∀ n, ∃ m,
    (found.filter fun x => x.rank == n).Perm ((hits.filter fun x => x.rank == n).take m) ∧
      (left.filter fun x => x.rank == n) = (hits.filter fun x => x.rank == n).drop m

theorem division_of_search (h : s.search i = .ok found) :
    Division i.limit (s.hits i) found ((s.ranking i).drop i.limit) := by
  have hperm := perm_take_ranking h
  have hsplit := List.take_append_drop i.limit (s.ranking i)
  refine ⟨?_, ?_, ?_, ?_, ?_⟩
  · have hall := hperm.append_right ((s.ranking i).drop i.limit)
    rw [hsplit] at hall
    exact hall.trans (ranking_perm s i)
  · rw [hperm.length_eq, List.length_take, (ranking_perm s i).length_eq]
  · rw [eq_of_search h]
    exact List.pairwise_mergeSort better_trans better_total _
  · intro x hx y hy
    have hsorted := pairwise_ranking s i
    rw [← hsplit, List.pairwise_append] at hsorted
    exact hsorted.2.2 x (hperm.mem_iff.1 hx) y hy
  · -- what is found of one rank stands in front of what is left out of it
    intro n
    have hrank := filter_ranking s i n
    rw [← hsplit, List.filter_append] at hrank
    refine ⟨(((s.ranking i).take i.limit).filter fun x => x.rank == n).length, ?_, ?_⟩
    · rw [← hrank, List.take_left]
      exact hperm.filter _
    · rw [← hrank, List.drop_left]

/-- What is found are the first hits of a ranking by relevance and age exactly if nobody is left out
who is as relevant as, and older than, somebody who is found. -/
theorem Division.firstByAge_iff (h : Division k hits found left) :
    FirstByAge k hits found ↔
      ∀ x ∈ found, ∀ y ∈ left, x.rank = y.rank → x.createdMillis ≤ y.createdMillis := by
  constructor
  · rintro ⟨ranked, hperm, hsorted, htake⟩ x hx y hy hrank
    have hsplit := List.take_append_drop k ranked
    rw [← htake] at hsplit
    have hleft : left.Perm (ranked.drop k) := by
      rw [← hsplit] at hperm
      exact (List.perm_append_left_iff found).1 (h.perm.trans hperm.symm)
    rw [← hsplit, List.pairwise_append] at hsorted
    have hbetter := hsorted.2.2 x hx y (hleft.mem_iff.1 hy)
    rw [better_iff] at hbetter
    omega
  · intro hages
    have hleft := List.mergeSort_perm left better
    refine ⟨found ++ left.mergeSort better, (hleft.append_left found).trans h.perm, ?_, ?_⟩
    · refine List.pairwise_append.2 ⟨h.listed, ?_, ?_⟩
      · exact List.pairwise_mergeSort better_trans better_total left
      · intro x hx y hy
        have hy := hleft.mem_iff.1 hy
        have hrelevant := h.relevant x hx y hy
        rw [better_iff]
        rcases Nat.eq_or_lt_of_le hrelevant with hrank | hrank
        · exact Or.inr ⟨hrank.symm, hages x hx y hy hrank.symm⟩
        · exact Or.inl hrank
    · -- either the limit is reached, or nothing is left out
      have hlength := h.perm.length_eq
      rw [List.length_append] at hlength
      have hfound := h.length
      rcases Nat.le_total k hits.length with hk | hk
      · have hexact : found.length = k := by omega
        rw [← hexact, List.take_left]
      · have hnone : left = [] := List.eq_nil_of_length_eq_zero (by omega)
        rw [hnone, List.mergeSort_nil, List.append_nil, List.take_of_length_le (by omega)]

/-- What the hits say of the cards, in the order in which these were added. -/
theorem dated_hits_sublist (s : Shelf) (i : Inquiry) :
    ((s.hits i).map fun x => (x.ticketId, x.createdMillis)).Sublist
      (s.cards.map fun c => (c.ticketId, c.createdMillis)) := by
  have hallowed : (s.cards.filter i.allows).Sublist s.cards := List.filter_sublist
  refine List.Sublist.trans ?_ (hallowed.map fun c => (c.ticketId, c.createdMillis))
  -- the weights of the query depend on all cards, so only the list that is scored is generalized
  simp only [hits]
  generalize s.cards.filter i.allows = cards
  induction cards with
  | nil => exact .slnil
  | cons c rest ih =>
    rw [List.filterMap_cons]
    cases Relevance.score c (Relevance.weighQuery s 1.0 i.query) with
    | none => exact ih.cons (c.ticketId, c.createdMillis)
    | some x => exact ih.cons_cons (c.ticketId, c.createdMillis)

/-- If the cards were added in the order of age, a search with a limit leaves out no card that is
older than an equally relevant one that it finds. -/
theorem firstByAge_of_ages (hages : s.cards.Pairwise fun c d => c.createdMillis ≤ d.createdMillis)
    (h : s.search i = .ok found) : FirstByAge i.limit (s.hits i) found := by
  have hdivision := division_of_search h
  have hcards : (s.cards.map fun c => (c.ticketId, c.createdMillis)).Pairwise
      fun a b => a.2 ≤ b.2 := List.pairwise_map.2 hages
  have hhits : (s.hits i).Pairwise fun a b => a.createdMillis ≤ b.createdMillis := by
    have hdated := hcards.sublist (dated_hits_sublist s i)
    rwa [List.pairwise_map] at hdated
  apply hdivision.firstByAge_iff.2
  intro x hx y hy hrank
  obtain ⟨m, hfound, hleft⟩ := hdivision.added y.rank
  have hequal := hhits.sublist (@List.filter_sublist _ (fun z => z.rank == y.rank) (s.hits i))
  rw [← List.take_append_drop m ((s.hits i).filter fun z => z.rank == y.rank),
    List.pairwise_append] at hequal
  refine hequal.2.2 x (hfound.mem_iff.1 ?_) y ?_
  · exact List.mem_filter.2 ⟨hx, beq_iff_eq.2 hrank⟩
  · rw [← hleft]
    exact List.mem_filter.2 ⟨hy, beq_self_eq_true y.rank⟩

/-- A search with a limit finds the most relevant hits, among equally relevant ones those whose
cards were added first, and lists them by relevance and age. These are the first hits of a ranking
by relevance and age exactly if no card that is left out is older than an equally relevant one that
is found. -/
theorem search_divides (s : Shelf) (i : Inquiry) (hlimit : 0 < i.limit)
    (h : i.query.runnable = true) :
    ∃ found left, s.search i = .ok found ∧ Division i.limit (s.hits i) found left ∧
      (FirstByAge i.limit (s.hits i) found ↔
        ∀ x ∈ found, ∀ y ∈ left, x.rank = y.rank → x.createdMillis ≤ y.createdMillis) := by
  have hsearch := @search_eq_ranking s i hlimit h
  have hdivision := division_of_search hsearch
  exact ⟨_, _, hsearch, hdivision, hdivision.firstByAge_iff⟩

/-! ## An older card that was added last -/

/-- The ticket of a user who asks for one other user, whoever it is, made after some milliseconds.
-/
def madeAfter (millis : Int) (id : String) : Ticket :=
  .ofRequest id ⟨millis * 1000000⟩ (.solo id id "*" 2 2 1) "*"

/-- The cards of three users, the second and the third of whom came after some milliseconds. -/
def threeCards (second third : Int) : Shelf :=
  (((Catalog.empty.put (madeAfter 0 "a")).put (madeAfter second "b")).put
    (madeAfter third "c")).commit.shelf

/-- The card of the third user was added last, but is older than that of the second. -/
def belated : Shelf := threeCards 2 1

/-- The first user looks for one of the two others. -/
def lookForOne : Inquiry := .ofTicket (madeAfter 0 "a") (.atom .all) 1

theorem ranking_belated : belated.ranking lookForOne =
    [⟨"b", rankOf (hitScore 1.0), 2⟩, ⟨"c", rankOf (hitScore 1.0), 1⟩] := by
  have hhits : belated.hits lookForOne =
      [⟨"b", rankOf (hitScore 1.0), 2⟩, ⟨"c", rankOf (hitScore 1.0), 1⟩] := rfl
  rw [ranking, hhits]
  exact List.mergeSort_of_pairwise (by simp)

theorem search_belated :
    belated.search lookForOne = .ok [⟨"b", rankOf (hitScore 1.0), 2⟩] := by
  rw [search_eq_ranking Nat.one_pos rfl, ranking_belated]
  exact congrArg Except.ok (List.mergeSort_singleton _)

/-- Of the two others the second user is found, and the third one is left out. -/
theorem search_divides_belated :
    ∃ found left : List Hit, belated.search lookForOne = .ok found ∧
      Division 1 (belated.hits lookForOne) found left ∧ found.map Hit.ticketId = ["b"] ∧
        left.map Hit.ticketId = ["c"] := by
  obtain ⟨found, left, hsearch, hdivision, -⟩ := search_divides belated lookForOne Nat.one_pos rfl
  have hfound := search_belated.symm.trans hsearch
  rw [Except.ok.injEq] at hfound
  rw [← hfound] at hsearch hdivision
  have hperm := hdivision.perm.trans (ranking_perm belated lookForOne).symm
  rw [ranking_belated] at hperm
  have hleft := (List.perm_append_left_iff [_]).1 hperm
  refine ⟨_, left, hsearch, hdivision, rfl, ?_⟩
  rw [List.perm_singleton.1 hleft]
  rfl

/-- The second user is found, and the third one, who is older and as relevant, is left out. -/
theorem not_firstByAge_belated :
    ∃ found, belated.search lookForOne = .ok found ∧
      ¬ FirstByAge lookForOne.limit (belated.hits lookForOne) found := by
  refine ⟨_, search_belated, ?_⟩
  have hdivision := division_of_search search_belated
  rw [ranking_belated] at hdivision
  rw [hdivision.firstByAge_iff]
  intro hages
  have hage := hages _ List.mem_cons_self _ List.mem_cons_self rfl
  exact absurd hage (by decide)

end Shelf

end Matchmaking
