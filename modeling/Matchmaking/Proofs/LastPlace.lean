import Matchmaking.Proofs.Settling

/-!
# The last place

If one more entry is all that an outer ticket needs, every candidate that could join opens a buffer
of its own and makes it full. The first one that accepts the size is taken, provided the outer
ticket accepts it as well, and nobody else can stand in for it: those who were refused before do not
block it, and at the end no other buffer settles for less. This takes candidates who bring somebody
along; one without a presence would share a buffer with a later one. Main statement:
`assembleFor_of_lastPlace`.
-/

namespace Matchmaking.Greedy

variable {outer hit : Pooled} {candidates : List Pooled} {buffers : List (List Pooled)} {r : Round}
  {last : Bool}

/-- Whether a candidate fills the last place beside an outer ticket: it has one presence, no party
in common with it, and accepts the full size. -/
def fillsLastPlace (outer c : Pooled) : Bool :=
  c.ticket.count == 1 && !outer.ticket.partyConflict c.ticket &&
    c.ticket.acceptsSize outer.ticket.maxCount

/-- Whether an outer ticket takes a candidate for the last place: it accepts the full size itself,
and the candidate fills the place. -/
def takesLast (outer c : Pooled) : Bool :=
  outer.ticket.acceptsSize outer.ticket.maxCount && fillsLastPlace outer c

/-! ## Full buffers of one -/

theorem kept_singleton {p : Surplus.Plan} (h : kept p [hit] ≠ []) : kept p [hit] = [hit] := by
  rcases List.sublist_singleton.1 (kept_sublist p [hit]) with hnil | hone
  · exact absurd hnil h
  · exact hone

/-- Somebody who makes a group full either stays or leaves nobody, so only the full size counts. -/
theorem finalize_singleton (hmisses : outer.ticket.maxCount = outer.ticket.count + 1)
    (hone : hit.ticket.count = 1) : finalize outer [hit] =
      if outer.ticket.acceptsSize outer.ticket.maxCount &&
          hit.ticket.acceptsSize outer.ticket.maxCount then some [outer, hit] else none := by
  have hsize : outer.ticket.count + entryCount [hit] = outer.ticket.maxCount := by
    rw [entryCount_cons, entryCount_nil, hone, hmisses]
  split
  · rename_i haccept
    obtain ⟨houter, hhit⟩ := Bool.and_eq_true_iff.1 haccept
    have hkept : kept ⟨0, []⟩ [hit] = [hit] := rfl
    refine finalize_eq_some_iff.2 ⟨⟨0, []⟩, ⟨rfl, ?_, ?_, ?_⟩, fun q _ => Nat.zero_le _, rfl⟩
    · rw [hsize, hmisses]
      exact Nat.succ_pos _
    · rw [hkept]
      exact List.cons_ne_nil hit []
    · rw [hkept, hsize]
      exact List.forall_mem_cons.2 ⟨houter, List.forall_mem_singleton.2 hhit⟩
  · rename_i hrefuse
    refine Option.eq_none_iff_forall_ne_some.2 fun group hgroup => hrefuse ?_
    obtain ⟨p, hsettles, -, -⟩ := finalize_eq_some_iff.1 hgroup
    have hkept := kept_singleton hsettles.stays
    have hcount := hsettles.entryCount_kept
    have haccepted := hsettles.accepted
    rw [hkept] at hcount haccepted
    -- nobody goes, since the one member stays
    rw [← hcount, entryCount_cons, hsize] at haccepted
    rw [Bool.and_eq_true]
    exact ⟨haccepted outer List.mem_cons_self, haccepted hit (by simp)⟩

/-- If all buffers are full, the next candidate opens one of its own. -/
theorem place_of_full (hfull : ∀ b ∈ buffers,
    outer.ticket.maxCount < outer.ticket.count + entryCount b + hit.ticket.count) :
    place outer hit buffers r = (buffers ++ [[hit]], [hit], r) := by
  induction buffers with
  | nil => rfl
  | cons b rest ih =>
    obtain ⟨hb, hrest⟩ := List.forall_mem_cons.1 hfull
    unfold place
    simp only [hb, decide_true, Bool.true_or, if_true, ih hrest]
    rfl

theorem admissible_iff_of_lastPlace (hmisses : outer.ticket.maxCount = outer.ticket.count + 1)
    (hpresent : hit.ticket.presences ≠ []) : admissible outer hit = true ↔
      hit.ticket.count = 1 ∧ outer.ticket.partyConflict hit.ticket = false := by
  have hpos : 0 < hit.ticket.count := List.length_pos_iff.2 hpresent
  rw [admissible, Bool.and_eq_true, decide_eq_true_eq, Bool.not_eq_true', hmisses]
  exact and_congr_left' (by omega)

/-! ## Filling the last place -/

/-- Full buffers of one that do not settle stand in nobody's way: the first candidate that fills the
last place is taken if the outer ticket accepts the size, and otherwise all buffers stay like that.
-/
theorem fill_of_lastPlace (hmisses : outer.ticket.maxCount = outer.ticket.count + 1)
    (hpresent : ∀ c ∈ candidates, c.ticket.presences ≠ [])
    (hbuffers : ∀ b ∈ buffers, entryCount b = 1 ∧ finalize outer b = none) :
    (∀ c, candidates.find? (takesLast outer) = some c →
      (fill outer last candidates buffers r).1 = .inl [outer, c]) ∧
    (candidates.find? (takesLast outer) = none →
      ∃ bs, (fill outer last candidates buffers r).1 = .inr bs ∧
        ∀ b ∈ bs, finalize outer b = none) := by
  induction candidates generalizing buffers r with
  | nil => exact ⟨by simp, fun _ => ⟨buffers, rfl, fun b hb => (hbuffers b hb).2⟩⟩
  | cons hit rest ih =>
    obtain ⟨hhit, hrest⟩ := List.forall_mem_cons.1 hpresent
    have hadmissible := admissible_iff_of_lastPlace hmisses hhit
    rw [List.find?_cons]
    by_cases hadm : admissible outer hit = true
    · obtain ⟨hone, hparty⟩ := hadmissible.1 hadm
      have hplace : place outer hit buffers r = (buffers ++ [[hit]], [hit], r) := by
        refine place_of_full fun b hb => ?_
        rw [(hbuffers b hb).1, hone, hmisses]
        omega
      have hcomplete : complete outer last rest [hit] = true := by
        simp only [complete, entryCount_cons, entryCount_nil, hone, Nat.add_zero, hmisses.symm,
          beq_self_eq_true, Bool.true_or]
      have htakes : takesLast outer hit = (outer.ticket.acceptsSize outer.ticket.maxCount &&
          hit.ticket.acceptsSize outer.ticket.maxCount) := by
        rw [takesLast, fillsLastPlace, hone, hparty]
        rfl
      have hfinal := finalize_singleton hmisses hone
      rw [fill, if_pos hadm, hplace, htakes]
      simp only [hcomplete, if_true]
      cases haccept : outer.ticket.acceptsSize outer.ticket.maxCount &&
          hit.ticket.acceptsSize outer.ticket.maxCount with
      | true =>
        rw [haccept, if_pos rfl] at hfinal
        rw [hfinal]
        exact ⟨fun c hc => by rw [Option.some.inj hc], fun hnone => by cases hnone⟩
      | false =>
        rw [haccept, if_neg Bool.false_ne_true] at hfinal
        rw [hfinal]
        refine ih hrest fun b hb => ?_
        rcases List.mem_append.1 hb with hb | hb
        · exact hbuffers b hb
        · rw [List.mem_singleton.1 hb]
          exact ⟨by rw [entryCount_cons, entryCount_nil, hone], hfinal⟩
    · have hfills : fillsLastPlace outer hit = false := by
        rw [← Bool.not_eq_true, fillsLastPlace, Bool.and_eq_true, Bool.and_eq_true, beq_iff_eq,
          Bool.not_eq_true']
        exact fun h => hadm (hadmissible.2 h.1)
      rw [fill, if_neg hadm, takesLast, hfills, Bool.and_false]
      exact ih hrest hbuffers

/-- If no buffer settles, none settles for less. -/
theorem settleForLess_eq_none (h : ∀ b ∈ buffers, finalize outer b = none) :
    settleForLess outer buffers = none := by
  refine List.findSome?_eq_none_iff.2 fun b hb => h b ?_
  exact (List.mergeSort_perm _ _).mem_iff.1 ((List.takeWhile_sublist _).subset hb)

theorem assembleFor_eq_find (hmisses : outer.ticket.maxCount = outer.ticket.count + 1)
    (hpresent : ∀ c ∈ candidates, c.ticket.presences ≠ []) :
    (assembleFor outer candidates last r).1 =
      (candidates.find? (takesLast outer)).map fun c => [outer, c] := by
  obtain ⟨hsome, hnone⟩ :=
    @fill_of_lastPlace outer candidates [] r last hmisses hpresent (by simp)
  unfold assembleFor
  generalize fill outer last candidates [] r = filled at hsome hnone ⊢
  obtain ⟨result, r₁⟩ := filled
  simp only at hsome hnone
  cases hfind : candidates.find? (takesLast outer) with
  | some c =>
    rw [hsome c hfind]
    rfl
  | none =>
    obtain ⟨bs, rfl, hfinal⟩ := hnone hfind
    simp only [settleForLess_eq_none hfinal, ite_self, Option.map_none]

/-- An outer ticket that misses one entry forms a group with the first candidate that fills the last
place, if it accepts the full size itself; it forms none exactly if it does not or there is no such
candidate. -/
theorem assembleFor_of_lastPlace (hmisses : outer.ticket.maxCount = outer.ticket.count + 1)
    (hpresent : ∀ c ∈ candidates, c.ticket.presences ≠ []) :
    (outer.ticket.acceptsSize outer.ticket.maxCount = true →
      (assembleFor outer candidates last r).1 =
        (candidates.find? (fillsLastPlace outer)).map fun c => [outer, c]) ∧
    ((assembleFor outer candidates last r).1 = none ↔
      outer.ticket.acceptsSize outer.ticket.maxCount = false ∨
        ∀ c ∈ candidates, fillsLastPlace outer c = false) := by
  rw [assembleFor_eq_find hmisses hpresent]
  constructor
  · intro houter
    have htakes : takesLast outer = fillsLastPlace outer := by
      funext c
      rw [takesLast, houter, Bool.true_and]
    rw [htakes]
  · rw [Option.map_eq_none_iff, List.find?_eq_none]
    simp only [takesLast]
    cases outer.ticket.acceptsSize outer.ticket.maxCount <;> simp

/-- Two users ask for two, and one between them for more; the older of the two is found. -/
theorem assembleFor_of_lastPlace_pair :
    (assembleFor (userAsking 0 "a" 2 2)
      [userAsking 1 "b" 3 4, userAsking 2 "c" 2 2, userAsking 3 "d" 2 2] false threeAsking).1 =
        some [userAsking 0 "a" 2 2, userAsking 2 "c" 2 2] := by
  have hpresent : ∀ c ∈ [userAsking 1 "b" 3 4, userAsking 2 "c" 2 2, userAsking 3 "d" 2 2],
      c.ticket.presences ≠ [] := by decide
  have houter : (userAsking 0 "a" 2 2).ticket.acceptsSize
      (userAsking 0 "a" 2 2).ticket.maxCount = true := by decide
  rw [(assembleFor_of_lastPlace rfl hpresent).1 houter]
  rfl

/-! ## Candidates without a presence -/

/-- The ticket of two users who ask for an even number up to three. -/
def twoTogether : Pooled :=
  ⟨.ofRequest "a" ⟨0⟩ ⟨[⟨"a", "a", ""⟩, ⟨"b", "b", ""⟩], none, "*", 2, 3, 2, .empty, .empty⟩ "*",
    .atom .all⟩

/-- A ticket of nobody. -/
def nobodyAsking : Pooled :=
  ⟨.ofRequest "z" ⟨1000000⟩ ⟨[], none, "*", 2, 3, 1, .empty, .empty⟩ "*", .atom .all⟩

theorem finalize_twoTogether :
    finalize twoTogether [nobodyAsking, thirdAsking] = some [twoTogether, nobodyAsking] := by
  have hmembers : members [nobodyAsking, thirdAsking] = [⟨0, 1⟩, ⟨1, 2⟩] := rfl
  have hbest : Surplus.bestSubset [⟨0, 1⟩, ⟨1, 2⟩] 1 = some [1] :=
    bestSubset_pair (by decide) rfl (by decide)
  have hplans : Surplus.plans [⟨0, 1⟩, ⟨1, 2⟩] 3 2 2 = [⟨1, [1]⟩] := by
    have hexcesses : Surplus.excesses 3 2 2 = [1] := by decide
    rw [Surplus.plans, if_neg (by decide), hexcesses]
    simp [Surplus.plan?, hbest]
  unfold finalize
  rw [hmembers]
  show (Surplus.plans [⟨0, 1⟩, ⟨1, 2⟩] 3 2 2).findSome? _ = _
  rw [hplans]
  rfl

/-- A ticket of nobody shares its buffer with a user, who then has to go, and the two users form a
group with it, though they do not accept the full size. -/
theorem assembleFor_twoTogether : ∃ (r : Round) (outer : Pooled) (candidates : List Pooled)
    (last : Bool), r.UnderWay ∧ outer.ticket.maxCount = outer.ticket.count + 1 ∧
      outer.ticket.acceptsSize outer.ticket.maxCount = false ∧
        (assembleFor outer candidates last r).1 ≠ none := by
  refine ⟨threeAsking, twoTogether, [nobodyAsking, thirdAsking], false, underWay_threeAsking, rfl,
    by decide, ?_⟩
  have hgroup : (assembleFor twoTogether [nobodyAsking, thirdAsking] false threeAsking).1 =
      some [twoTogether, nobodyAsking] :=
    assembleFor_pair rfl rfl rfl rfl rfl finalize_twoTogether
  rw [hgroup]
  exact Option.some_ne_none _

end Matchmaking.Greedy
