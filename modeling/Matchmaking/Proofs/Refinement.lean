import Matchmaking.Proofs.Proposals

/-!
# Greedy groups are enumerated

A buffer takes a candidate only if the pass is answered that it may be together with all members. So
as long as the pass reads the same all the time, the members of every buffer agree with one another,
and what an outer ticket forms greedily on its last interval is among the combinations that are
enumerated for it and for the same candidates.
-/

namespace Matchmaking

namespace Greedy

open Round (Asks Reads UnderWay)

variable {insists last : Bool} {outer hit : Pooled} {b taken candidates group : List Pooled}
  {buffers bs : List (List Pooled)} {r r' r'' : Round}

/-! ## Members that agree -/

/-- The pass sees all members of a buffer and, if all that it has read since a moment is the same,
they may be together. -/
structure Agreeing (insists : Bool) (r r' : Round) (b : List Pooled) : Prop where
  sees : ∀ m ∈ b, r.Sees m
  pairwise : Reads insists r r' → b.Pairwise fun m n => agree insists r.shelf m n = true

theorem Agreeing.mono (h : Agreeing insists r r' b) (hlater : Round.Later r' r'') :
    Agreeing insists r r'' b :=
  ⟨h.sees, fun hreads => h.pairwise (hreads.left hlater)⟩

theorem Tries.asks (h : Tries hit buffers r r') (hhit : r.Sees hit)
    (hbuffers : ∀ b ∈ buffers, ∀ m ∈ b, r.Sees m) : Asks r r' := by
  induction h with
  | refl => exact .refl
  | tail _ htry ih =>
    obtain ⟨b, hb, rfl⟩ := htry
    have hnext := Round.asks_compatibleWithAll (ih.acts.sees.2 hhit) fun m hm =>
      ih.acts.sees.2 (hbuffers b hb m hm)
    exact ih.trans hnext

theorem Placed.asks (h : Placed outer hit buffers r bs taken r') (hhit : r.Sees hit)
    (hbuffers : ∀ b ∈ buffers, ∀ m ∈ b, r.Sees m) : Asks r r' := by
  cases h with
  | opens htries => exact htries.asks hhit hbuffers
  | @joins pre post b r₁ _ hsplit htries hjoins =>
    have hasked := htries.asks hhit hbuffers
    have hb : ∀ m ∈ b, r.Sees m := hbuffers b (by rw [hsplit]; simp)
    have hnext := Round.asks_compatibleWithAll (hasked.acts.sees.2 hhit) fun m hm =>
      hasked.acts.sees.2 (hb m hm)
    rw [hjoins.answer] at hnext
    exact hasked.trans hnext

/-- Who joins a buffer agrees with all its members. -/
theorem agreeing_placed (hr : r.Recalls) (hasked : Asks r r') (hhit : r.Sees hit)
    (hbuffers : ∀ b ∈ buffers, Agreeing insists r r' b)
    (h : Placed outer hit buffers r' bs taken r'') :
    Asks r r'' ∧ ∀ b ∈ bs, Agreeing insists r r'' b := by
  have hhit' := hasked.acts.sees.2 hhit
  have hsees : ∀ b ∈ buffers, ∀ m ∈ b, r'.Sees m := fun b hb m hm =>
    hasked.acts.sees.2 ((hbuffers b hb).sees m hm)
  have hplaced := h.asks hhit' hsees
  refine ⟨hasked.trans hplaced, h.keeps (fun b hb => (hbuffers b hb).mono hplaced.acts.later)
    ⟨by simpa using hhit, fun _ => List.pairwise_singleton _ _⟩ fun b hb r₁ htries hjoins => ?_⟩
  have hbefore : Asks r r₁ := hasked.trans (htries.asks hhit' hsees)
  have hhit₁ := hbefore.acts.sees.2 hhit
  have hb₁ : ∀ m ∈ b, r₁.Sees m := fun m hm => hbefore.acts.sees.2 ((hbuffers b hb).sees m hm)
  refine ⟨fun m hm => ?_, fun hreads => ?_⟩
  · rcases List.mem_append.1 hm with hm | hm
    · exact (hbuffers b hb).sees m hm
    · rw [List.mem_singleton.1 hm]
      exact hhit
  · have hreads₁ : Reads insists r₁ (Round.compatibleWithAll hit b r₁).2 := by
      rw [hjoins.answer]
      exact hreads.right hbefore.acts.later
    have hanswer := Round.compatibleWithAll_eq (hbefore.acts.recalls hr) hhit₁ hb₁ hreads₁
    rw [hjoins.answer, hbefore.acts.later.shelf] at hanswer
    have hall := List.all_eq_true.1 hanswer.symm
    refine List.pairwise_append.2 ⟨(hbuffers b hb).pairwise (hreads.left hplaced.acts.later),
      List.pairwise_singleton _ _, fun m hm n hn => ?_⟩
    rw [List.mem_singleton.1 hn]
    exact hall m hm

/-- While the buffers of an outer ticket are filled, their members agree. -/
def Filling (insists : Bool) (outer : Pooled) (r : Round) (seen : List Pooled)
    (buffers : List (List Pooled)) (r' : Round) : Prop :=
  Asks r r' ∧ ∀ b ∈ buffers, Filled outer seen b ∧ Agreeing insists r r' b

theorem Filling.skip {seen : List Pooled} (h : Filling insists outer r seen buffers r')
    (hit : Pooled) : Filling insists outer r (seen ++ [hit]) buffers r' :=
  ⟨h.1, fun b hb => ⟨(h.2 b hb).1.mono (List.sublist_append_left seen [hit]), (h.2 b hb).2⟩⟩

theorem Filling.place {seen : List Pooled} (h : Filling insists outer r seen buffers r')
    (hr : r.Recalls) (hhit : r.Sees hit) (hadm : admissible outer hit = true) :
    Filling insists outer r (seen ++ [hit]) (place outer hit buffers r').1
      (place outer hit buffers r').2.2 := by
  obtain ⟨hasked, hagreeing⟩ := agreeing_placed hr h.1 hhit (fun b hb => (h.2 b hb).2)
    (placed_place outer hit buffers r')
  refine ⟨hasked, fun b hb => ⟨?_, hagreeing b hb⟩⟩
  exact filled_place hadm (fun b hb => (h.2 b hb).1) b hb

/-- What an outer ticket forms comes of a buffer whose members agree. -/
theorem assembleFor_agreeing (hr : r.Recalls) (hcandidates : ∀ c ∈ candidates, r.Sees c)
    (outer : Pooled) (last : Bool) :
    Asks r (assembleFor outer candidates last r).2 ∧
      ∀ group, (assembleFor outer candidates last r).1 = some group →
        ∃ b, Filled outer candidates b ∧ finalize outer b = some group ∧
          (Reads insists r (assembleFor outer candidates last r).2 →
            b.Pairwise fun m n => agree insists r.shelf m n = true) := by
  have hstart : Filling insists outer r [] [] r := ⟨.refl, by simp⟩
  obtain ⟨seen, buffers, hseen, ⟨hasked, hbuffers⟩, hgroup⟩ :=
    assembleFor_keeps (Filling insists outer r) last (fun _ hit _ _ h => h.skip hit)
      (fun _ _ _ hit hhit hadm h => h.place hr (hcandidates hit hhit) hadm) hstart
  refine ⟨hasked, fun group h => ?_⟩
  obtain ⟨b, hb, hfin⟩ := hgroup group h
  obtain ⟨hfilled, hagreeing⟩ := hbuffers b hb
  exact ⟨b, hfilled.mono hseen.sublist, hfin, hagreeing.pairwise⟩

/-! ## Combinations -/

/-- A group of a buffer whose members agree is one that the outer ticket can form with its
candidates. -/
theorem combines_of_finalize {s : Shelf} (hb : Filled outer candidates b)
    (hagree : b.Pairwise fun m n => agree insists s m n = true)
    (h : finalize outer b = some group) :
    ∃ others, Exhaustive.Combines insists true s outer candidates others ∧
      group = outer :: others := by
  obtain ⟨others, rfl, hne, hsub, haccepted⟩ := finalize_spec h
  have hapart := (hb.apart.sublist hsub).imp fun h => Bool.or_eq_false_iff.1 h
  exact ⟨others, ⟨hne, hsub.trans hb.sub, hapart.imp fun h => h.1, hapart.imp fun h => h.2,
    fun hinsists => (hagree.sublist hsub).imp fun h => agree_iff.1 h hinsists, haccepted,
    fun h => absurd h (by simp)⟩, rfl⟩

/-- As long as a pass reads the same all the time, what an outer ticket forms greedily on its last
interval is enumerated for it and the same candidates, in the same order. So if nothing is
enumerated nothing is formed. -/
theorem mem_enumerate_of_assembleFor (hr : UnderWay r)
    (hgate : ∀ i, r.precision.isOpen i = insists) (ho : r.Sees outer) (limit : Nat)
    {asked : Round} (heq : r.candidates outer limit = (candidates, asked)) :
    (∀ group, (assembleFor outer candidates true asked).1 = some group →
      group ∈ (Exhaustive.enumerate outer candidates true asked).1) ∧
    ((Exhaustive.enumerate outer candidates true asked).1 = [] →
      (assembleFor outer candidates true asked).1 = none) := by
  have hlater := Round.later_candidates hr.clear ho limit
  have hrecalls := Round.recalls_candidates hr ho limit
  have hfound := fun c => @Round.spec_of_mem_candidates r outer c limit hr.clear
  rw [heq] at hlater hrecalls hfound
  have hsees : ∀ c ∈ candidates, asked.Sees c := fun c hc => hlater.sees.2 (hfound c hc).1
  have hgate' : ∀ i, asked.precision.isOpen i = insists := by rwa [hlater.precision]
  have hreads := Round.reads_of_forall hgate'
  have hmem : ∀ group, (assembleFor outer candidates true asked).1 = some group →
      group ∈ (Exhaustive.enumerate outer candidates true asked).1 := by
    intro group h
    obtain ⟨b, hb, hfin, hagree⟩ := (assembleFor_agreeing hrecalls hsees outer true).2 group h
    exact (Exhaustive.mem_enumerate_iff hrecalls hsees (hreads _)).2
      (combines_of_finalize hb (hagree (hreads _)) hfin)
  refine ⟨hmem, fun hnone => ?_⟩
  cases h : (assembleFor outer candidates true asked).1 with
  | none => rfl
  | some group =>
    have := hmem group h
    rw [hnone] at this
    cases this

end Greedy

namespace Service

/-- The first of two users who wait for a pair forms it greedily, and it is enumerated. -/
theorem assembleFor_insistingPair :
    ∃ group, (Greedy.assembleFor firstOfPair (insistingPair.candidates firstOfPair 128).1 true
        (insistingPair.candidates firstOfPair 128).2).1 = some group ∧
      group ∈ (Exhaustive.enumerate firstOfPair (insistingPair.candidates firstOfPair 128).1 true
        (insistingPair.candidates firstOfPair 128).2).1 := by
  have hadm : Greedy.admissible firstOfPair secondOfPair = true := by decide +kernel
  have hcomplete : Greedy.complete firstOfPair true [] [secondOfPair] = true := by decide +kernel
  have hformed : (Greedy.finalize firstOfPair [secondOfPair]).isSome = true := by decide +kernel
  obtain ⟨group, hgroup⟩ := Option.isSome_iff_exists.1 hformed
  have hassembled : (Greedy.assembleFor firstOfPair (insistingPair.candidates firstOfPair 128).1
      true (insistingPair.candidates firstOfPair 128).2).1 = some group := by
    rw [candidates_insistingPair, Greedy.assembleFor, Greedy.fill, if_pos hadm, Greedy.place]
    simp only [hcomplete, if_true, hgroup]
  exact ⟨group, hassembled, (Greedy.mem_enumerate_of_assembleFor underWay_insistingPair
    (fun _ => rfl) sees_firstOfPair 128 rfl).1 group hassembled⟩

end Service

end Matchmaking
