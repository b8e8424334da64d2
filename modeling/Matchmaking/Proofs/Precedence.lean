import Matchmaking.Assembly.LargestFirst
import Matchmaking.Proofs.Choices
import Matchmaking.Proofs.Sorting
import Mathlib.Data.List.FinRange
import Mathlib.Data.List.Pairwise

/-!
# Larger proposals before smaller ones

The largest-first selector goes through the proposals in the order of their sizes. Which of them it
takes is told by the places in that order: a place is taken exactly if no taken place before it has
a ticket in common with it. Main statement: `choose_precedence`.
-/

namespace Matchmaking

namespace Proposal

/-- Two proposals have a ticket in common. -/
def Overlaps (p q : Proposal) : Prop := ∃ id ∈ p.ticketKey, id ∈ q.ticketKey

theorem Overlaps.symm {p q : Proposal} (h : p.Overlaps q) : q.Overlaps p := by
  obtain ⟨id, hp, hq⟩ := h
  exact ⟨id, hq, hp⟩

/-- Some proposals are given from the largest to the smallest, those of one size as they stood. -/
structure LargerFirst (ps ordered : List Proposal) : Prop where
  perm : ordered.Perm ps
  decreasing : ordered.Pairwise fun p q => q.size ≤ p.size
  stable : ∀ n, (ordered.filter fun p => p.size == n) = ps.filter fun p => p.size == n

/-- Some proposals are chosen greedily in the order in which they are given: they stand at the taken
places, and a place is passed over for an earlier one that is taken and at least as large. -/
structure Greedy (ordered chosen : List Proposal) (taken : Fin ordered.length → Bool) : Prop where
  places : chosen = ((List.finRange ordered.length).filter taken).map ordered.get
  disjoint : ∀ i j, i < j → taken i = true → taken j = true →
    ¬ (ordered.get i).Overlaps (ordered.get j)
  passedOver : ∀ j, taken j = false → ∃ i < j, taken i = true ∧
    (ordered.get i).Overlaps (ordered.get j) ∧ (ordered.get j).size ≤ (ordered.get i).size

end Proposal

namespace LargestFirst

/-! ## The order of the sizes -/

theorem largerFirst_sorted (ps : List Proposal) : Proposal.LargerFirst ps (sorted ps) := by
  have htrans : ∀ a b c : Proposal, decide (b.size ≤ a.size) = true →
      decide (c.size ≤ b.size) = true → decide (c.size ≤ a.size) = true := by
    intro a b c hab hbc
    rw [decide_eq_true_iff] at *
    omega
  have htotal : ∀ a b : Proposal,
      (decide (b.size ≤ a.size) || decide (a.size ≤ b.size)) = true := by
    intro a b
    rw [Bool.or_eq_true, decide_eq_true_iff, decide_eq_true_iff]
    omega
  refine ⟨List.mergeSort_perm _ _, ?_, fun n => ?_⟩
  · refine (List.pairwise_mergeSort htrans htotal ps).imp fun h => ?_
    exact of_decide_eq_true h
  · refine filter_mergeSort htrans htotal _ (fun a b ha hb => ?_) ps
    rw [beq_iff_eq] at ha hb
    rw [decide_eq_true_iff]
    omega

/-- Proposals that stand in the order of their sizes stay as they are. -/
theorem sorted_of_pairwise {ps : List Proposal} (h : ps.Pairwise fun p q => q.size ≤ p.size) :
    sorted ps = ps :=
  List.mergeSort_of_pairwise (h.imp fun hle => decide_eq_true hle)

/-! ## The tickets that are taken -/

section Taking

variable {held : Names} {p : Proposal} {rest ordered chosen : List Proposal}
  {taken : Fin rest.length → Bool}

theorem any_contains_iff : ((p.entries.map Entry.ticketId).any held.contains) = true ↔
    ∃ id ∈ p.ticketKey, held.contains id = true := by
  simp only [List.any_eq_true, List.mem_map, Proposal.mem_ticketKey]

/-- With a proposal its tickets are held. -/
theorem contains_hold {id : String} :
    ((p.entries.map Entry.ticketId).foldl Names.add held).contains id = true ↔
      id ∈ p.ticketKey ∨ held.contains id = true := by
  rw [Names.contains_foldl_add, List.mem_map, Proposal.mem_ticketKey]

/-- A greedy choice that begins when some tickets are held: a place is also passed over for one of
these. -/
structure GreedyFrom (held : Names) (ordered chosen : List Proposal)
    (taken : Fin ordered.length → Bool) : Prop where
  places : chosen = ((List.finRange ordered.length).filter taken).map ordered.get
  free : ∀ j, taken j = true → ∀ id ∈ (ordered.get j).ticketKey, held.contains id = false
  disjoint : ∀ i j, i < j → taken i = true → taken j = true →
    ¬ (ordered.get i).Overlaps (ordered.get j)
  passedOver : ∀ j, taken j = false →
    (∃ id ∈ (ordered.get j).ticketKey, held.contains id = true) ∨
      ∃ i < j, taken i = true ∧ (ordered.get i).Overlaps (ordered.get j)

/-- The places of a list that begins with `p`, of which the first is taken or not. -/
theorem filter_finRange_cons (b : Bool) :
    (((List.finRange (p :: rest).length).filter (Fin.cons b taken)).map (p :: rest).get) =
      (if b then [p] else []) ++ ((List.finRange rest.length).filter taken).map rest.get := by
  have hrest : ((List.finRange rest.length).map Fin.succ).filter (Fin.cons b taken) =
      ((List.finRange rest.length).filter taken).map Fin.succ := by
    rw [List.filter_map]
    rfl
  show (((List.finRange (rest.length + 1)).filter (Fin.cons b taken)).map (p :: rest).get) = _
  rw [List.finRange_succ, List.filter_cons, hrest]
  cases b with
  | false => simp [Function.comp_def]
  | true => simp [Function.comp_def]

theorem GreedyFrom.pass (h : GreedyFrom held rest chosen taken)
    (hheld : ∃ id ∈ p.ticketKey, held.contains id = true) :
    GreedyFrom held (p :: rest) chosen (Fin.cons false taken) where
  places := by
    rw [filter_finRange_cons, ← h.places]
    rfl
  free := by
    intro j hj
    cases j using Fin.cases with
    | zero => cases hj
    | succ j => exact h.free j hj
  disjoint := by
    intro i j hij hi hj
    cases i using Fin.cases with
    | zero => cases hi
    | succ i =>
      cases j using Fin.cases with
      | zero => cases hj
      | succ j => exact h.disjoint i j (Fin.succ_lt_succ_iff.1 hij) hi hj
  passedOver := by
    intro j hj
    cases j using Fin.cases with
    | zero => exact .inl hheld
    | succ j =>
      rcases h.passedOver j hj with hid | ⟨i, hij, hi, hoverlap⟩
      · exact .inl hid
      · exact .inr ⟨i.succ, Fin.succ_lt_succ_iff.2 hij, hi, hoverlap⟩

theorem GreedyFrom.take
    (h : GreedyFrom ((p.entries.map Entry.ticketId).foldl Names.add held) rest chosen taken)
    (hfree : ∀ id ∈ p.ticketKey, held.contains id = false) :
    GreedyFrom held (p :: rest) (p :: chosen) (Fin.cons true taken) where
  places := by
    rw [filter_finRange_cons, ← h.places]
    rfl
  free := by
    intro j hj id hid
    cases j using Fin.cases with
    | zero => exact hfree id hid
    | succ j =>
      have hnot := h.free j hj id hid
      rw [← Bool.not_eq_true, contains_hold, not_or] at hnot
      exact Bool.not_eq_true _ ▸ hnot.2
  disjoint := by
    intro i j hij hi hj
    cases j using Fin.cases with
    | zero => exact absurd hij (Fin.not_lt_zero i)
    | succ j =>
      cases i using Fin.cases with
      | zero =>
        -- the tickets of the first proposal are held when the later ones are looked at
        rintro ⟨id, hp, hq⟩
        have hnot := h.free j hj id hq
        rw [← Bool.not_eq_true, contains_hold, not_or] at hnot
        exact hnot.1 hp
      | succ i => exact h.disjoint i j (Fin.succ_lt_succ_iff.1 hij) hi hj
  passedOver := by
    intro j hj
    cases j using Fin.cases with
    | zero => cases hj
    | succ j =>
      rcases h.passedOver j hj with ⟨id, hid, hheld⟩ | ⟨i, hij, hi, hoverlap⟩
      · rcases contains_hold.1 hheld with hp | hheld
        · exact .inr ⟨0, Fin.succ_pos j, rfl, id, hp, hid⟩
        · exact .inl ⟨id, hid, hheld⟩
      · exact .inr ⟨i.succ, Fin.succ_lt_succ_iff.2 hij, hi, hoverlap⟩

theorem greedyFrom_takeDisjoint (held : Names) (ordered : List Proposal) :
    ∃ taken, GreedyFrom held ordered (takeDisjoint held ordered) taken := by
  induction ordered generalizing held with
  | nil =>
    exact ⟨fun _ => false, rfl, fun j => j.elim0, fun i => i.elim0, fun j => j.elim0⟩
  | cons p rest ih =>
    rw [takeDisjoint]
    split
    · rename_i hany
      obtain ⟨taken, htaken⟩ := ih held
      exact ⟨Fin.cons false taken, htaken.pass (any_contains_iff.1 hany)⟩
    · rename_i hany
      obtain ⟨taken, htaken⟩ := ih ((p.entries.map Entry.ticketId).foldl Names.add held)
      refine ⟨Fin.cons true taken, htaken.take fun id hid => ?_⟩
      rw [any_contains_iff] at hany
      exact Bool.not_eq_true _ ▸ fun hheld => hany ⟨id, hid, hheld⟩

/-- Proposals that have no ticket in common with one another and none that is held are all taken. -/
theorem takeDisjoint_of_pairwise (hpairwise : ordered.Pairwise fun p q => ¬ p.Overlaps q)
    (hfree : ∀ p ∈ ordered, ∀ id ∈ p.ticketKey, held.contains id = false) :
    takeDisjoint held ordered = ordered := by
  induction ordered generalizing held with
  | nil => rfl
  | cons p rest ih =>
    obtain ⟨hfirst, hrest⟩ := List.pairwise_cons.1 hpairwise
    have hany : ¬ ((p.entries.map Entry.ticketId).any held.contains) = true := by
      rw [any_contains_iff]
      rintro ⟨id, hid, hheld⟩
      rw [hfree p List.mem_cons_self id hid] at hheld
      cases hheld
    rw [takeDisjoint]
    rw [if_neg hany, ih hrest fun q hq id hid => ?_]
    rw [← Bool.not_eq_true, contains_hold, not_or, Bool.not_eq_true]
    exact ⟨fun hp => hfirst q hq ⟨id, hp, hid⟩, hfree q (List.mem_cons_of_mem p hq) id hid⟩

end Taking

/-! ## The choice -/

theorem greedy_choose (ps : List Proposal) :
    ∃ taken, Proposal.Greedy (sorted ps) (choose ps) taken := by
  obtain ⟨taken, htaken⟩ := greedyFrom_takeDisjoint .empty (sorted ps)
  refine ⟨taken, htaken.places, htaken.disjoint, fun j hj => ?_⟩
  rcases htaken.passedOver j hj with ⟨id, -, hheld⟩ | hearlier
  · simp at hheld
  · obtain ⟨i, hij, hi, hoverlap⟩ := hearlier
    exact ⟨i, hij, hi, hoverlap, (largerFirst_sorted ps).decreasing.rel_get_of_lt hij⟩

end LargestFirst

namespace Proposal.Greedy

variable {ordered chosen : List Proposal} {taken : Fin ordered.length → Bool}

theorem sublist (h : Greedy ordered chosen taken) : chosen.Sublist ordered := by
  have hsub : ((List.finRange ordered.length).filter taken).Sublist (List.finRange ordered.length) :=
    List.filter_sublist
  have hget := hsub.map ordered.get
  rw [List.map_get_finRange] at hget
  rw [h.places]
  exact hget

theorem pairwise (h : Greedy ordered chosen taken) : chosen.Pairwise fun p q => ¬ p.Overlaps q := by
  rw [h.places, List.pairwise_map]
  refine ((List.pairwise_lt_finRange ordered.length).filter taken).imp_of_mem fun hi hj hij => ?_
  exact h.disjoint _ _ hij (List.mem_filter.1 hi).2 (List.mem_filter.1 hj).2

theorem get_mem (h : Greedy ordered chosen taken) {i : Fin ordered.length} (hi : taken i = true) :
    ordered.get i ∈ chosen := by
  rw [h.places]
  exact List.mem_map_of_mem (List.mem_filter.2 ⟨List.mem_finRange i, hi⟩)

end Proposal.Greedy

namespace LargestFirst

theorem pairwise_choose (ps : List Proposal) :
    (choose ps).Pairwise fun p q => ¬ p.Overlaps q := by
  obtain ⟨taken, htaken⟩ := greedy_choose ps
  exact htaken.pairwise

theorem mem_of_mem_choose {ps : List Proposal} {p : Proposal} (h : p ∈ choose ps) : p ∈ ps := by
  obtain ⟨taken, htaken⟩ := greedy_choose ps
  exact (largerFirst_sorted ps).perm.mem_iff.1 (htaken.sublist.subset h)

/-- What is not chosen has a ticket in common with a choice that is at least as large. -/
theorem exists_overlaps_of_not_mem {ps : List Proposal} {p : Proposal} (hp : p ∈ ps)
    (hnot : p ∉ choose ps) : ∃ q ∈ choose ps, q.Overlaps p ∧ p.size ≤ q.size := by
  obtain ⟨taken, htaken⟩ := greedy_choose ps
  obtain ⟨j, hj⟩ := List.get_of_mem ((largerFirst_sorted ps).perm.mem_iff.2 hp)
  subst hj
  have hfalse : taken j = false := Bool.eq_false_iff.2 fun htrue => hnot (htaken.get_mem htrue)
  obtain ⟨i, -, hi, hoverlap, hsize⟩ := htaken.passedOver j hfalse
  exact ⟨(sorted ps).get i, htaken.get_mem hi, hoverlap, hsize⟩

theorem choose_choose (ps : List Proposal) : choose (choose ps) = choose ps := by
  obtain ⟨taken, htaken⟩ := greedy_choose ps
  have hsorted : sorted (choose ps) = choose ps :=
    sorted_of_pairwise ((largerFirst_sorted ps).decreasing.sublist htaken.sublist)
  rw [choose, hsorted]
  exact takeDisjoint_of_pairwise htaken.pairwise fun _ _ _ _ => by simp

/-- The largest-first selector goes through the proposals from the largest to the smallest, those of
one size in the order in which they were made. It takes some places of this order, no two with a
ticket in common, and each place that it passes over has a ticket in common with one that it takes
before, whose proposal is at least as large. Of its own choice it takes everything. -/
theorem choose_precedence (ps : List Proposal) :
    Proposal.LargerFirst ps (sorted ps) ∧
      (∃ taken : Fin (sorted ps).length → Bool,
        Proposal.Greedy (sorted ps) (choose ps) taken) ∧
      choose (choose ps) = choose ps :=
  ⟨largerFirst_sorted ps, greedy_choose ps, choose_choose ps⟩

end LargestFirst

end Matchmaking
