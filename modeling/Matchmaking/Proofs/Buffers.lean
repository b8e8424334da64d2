import Mathlib.Algebra.Ring.Nat
import Mathlib.Logic.Relation
import Matchmaking.Assembly.Greedy
import Matchmaking.Proofs.Deliberation

/-!
# Buffers

While an outer ticket fills its buffers, every buffer is made of candidates seen so far, in their
order, no two of which clash, and it leaves room for the outer ticket. The group that is formed in
the end consists of the outer ticket and of those who stay in one of these buffers, and all of them
accept its size.
-/

namespace Matchmaking.Greedy

open Round (Deliberates)

/-- What a buffer of an outer ticket is made of, some candidates having been seen. -/
structure Filled (outer : Pooled) (seen b : List Pooled) : Prop where
  ne : b ≠ []
  sub : b.Sublist seen
  apart : b.Pairwise fun m n => clash m n = false
  room : outer.ticket.count + entryCount b ≤ outer.ticket.maxCount

variable {outer hit : Pooled} {seen seen' b : List Pooled}

theorem entryCount_eq_sum (ts : List Pooled) :
    entryCount ts = (ts.map fun p => p.ticket.count).sum := rfl

@[simp]
theorem entryCount_nil : entryCount [] = 0 := rfl

@[simp]
theorem entryCount_cons (p : Pooled) (b : List Pooled) :
    entryCount (p :: b) = p.ticket.count + entryCount b := rfl

@[simp]
theorem entryCount_append (a b : List Pooled) :
    entryCount (a ++ b) = entryCount a + entryCount b := by
  simp [entryCount_eq_sum]

theorem Filled.mono (h : Filled outer seen b) (hs : seen.Sublist seen') : Filled outer seen' b :=
  ⟨h.ne, h.sub.trans hs, h.apart, h.room⟩

theorem Filled.single (hroom : outer.ticket.count + hit.ticket.count ≤ outer.ticket.maxCount)
    (seen : List Pooled) : Filled outer (seen ++ [hit]) [hit] where
  ne := List.cons_ne_nil _ _
  sub := List.sublist_append_right seen [hit]
  apart := List.pairwise_singleton _ _
  room := by simpa using hroom

theorem Filled.push (h : Filled outer seen b)
    (hroom : outer.ticket.count + entryCount b + hit.ticket.count ≤ outer.ticket.maxCount)
    (hclash : ∀ m ∈ b, clash m hit = false) : Filled outer (seen ++ [hit]) (b ++ [hit]) where
  ne := by simp
  sub := h.sub.append (List.Sublist.refl [hit])
  apart := by
    refine List.pairwise_append.2 ⟨h.apart, List.pairwise_singleton _ _, fun m hm n hn => ?_⟩
    rw [List.mem_singleton.1 hn]
    exact hclash m hm
  room := by
    simp only [entryCount_append, entryCount_cons, entryCount_nil]
    omega

/-! ## Placing and filling -/

/-- A pass asks whether a candidate may join some buffers, one after the other. -/
abbrev Tries (hit : Pooled) (buffers : List (List Pooled)) : Round → Round → Prop :=
  Relation.ReflTransGen fun r r' => ∃ b ∈ buffers, r' = (Round.compatibleWithAll hit b r).2

theorem Tries.deliberates {buffers : List (List Pooled)} {r r' : Round}
    (h : Tries hit buffers r r') : Deliberates r r' := by
  induction h with
  | refl => exact .refl r
  | tail _ htry ih =>
    obtain ⟨b, -, rfl⟩ := htry
    exact ih.trans (Round.deliberates_compatibleWithAll hit b _)

theorem Tries.cons {buffers : List (List Pooled)} {r r' : Round} (h : Tries hit buffers r r')
    (b : List Pooled) : Tries hit (b :: buffers) r r' := by
  induction h with
  | refl => exact .refl
  | tail _ htry ih =>
    obtain ⟨c, hc, heq⟩ := htry
    exact ih.tail ⟨c, List.mem_cons_of_mem b hc, heq⟩

/-- A candidate joins a buffer: there is room for it, it clashes with nobody, and the pass is
answered that it may. -/
structure Joins (outer hit : Pooled) (b : List Pooled) (r r' : Round) : Prop where
  room : outer.ticket.count + entryCount b + hit.ticket.count ≤ outer.ticket.maxCount
  apart : ∀ m ∈ b, clash m hit = false
  answer : Round.compatibleWithAll hit b r = (true, r')

/-- How a candidate is put into some buffers: what becomes of them, which of them took it, and the
state of the pass afterwards. -/
inductive Placed (outer hit : Pooled) (buffers : List (List Pooled)) (r : Round) :
    List (List Pooled) → List Pooled → Round → Prop
  /-- No buffer takes it, and it opens a new one. -/
  | opens {r₁ : Round} (h : Tries hit buffers r r₁) :
    Placed outer hit buffers r (buffers ++ [[hit]]) [hit] r₁
  /-- It joins one of them. -/
  | joins (pre : List (List Pooled)) {post : List (List Pooled)} {b : List Pooled} {r₁ r₂ : Round}
    (hsplit : buffers = pre ++ b :: post) (h : Tries hit buffers r r₁)
    (hjoins : Joins outer hit b r₁ r₂) :
    Placed outer hit buffers r (pre ++ (b ++ [hit]) :: post) (b ++ [hit]) r₂

/-- A buffer that does not take the candidate stays as it is. -/
theorem Placed.cons {b taken : List Pooled} {rest bs : List (List Pooled)} {r r' r'' : Round}
    (htries : Tries hit (b :: rest) r r') (h : Placed outer hit rest r' bs taken r'') :
    Placed outer hit (b :: rest) r (b :: bs) taken r'' := by
  cases h with
  | opens hnext => exact .opens (htries.trans (hnext.cons b))
  | @joins pre post c r₁ _ hsplit hnext hjoins =>
    exact .joins (b :: pre) (by rw [hsplit]; rfl) (htries.trans (hnext.cons b)) hjoins

theorem placed_place (outer hit : Pooled) (buffers : List (List Pooled)) (r : Round) :
    Placed outer hit buffers r (place outer hit buffers r).1 (place outer hit buffers r).2.1
      (place outer hit buffers r).2.2 := by
  induction buffers generalizing r with
  | nil => exact .opens .refl
  | cons b rest ih =>
    unfold place
    simp only
    split
    · exact .cons .refl (ih r)
    · rename_i hfree
      simp only [Bool.or_eq_true, decide_eq_true_eq, List.any_eq_true, not_or, not_exists,
        not_and] at hfree
      obtain ⟨hroom, hclash⟩ := hfree
      have htry : Tries hit (b :: rest) r (Round.compatibleWithAll hit b r).2 :=
        .single ⟨b, List.mem_cons_self, rfl⟩
      split
      · rename_i r₁ hanswer
        exact .joins [] rfl .refl
          ⟨by omega, fun m hm => Bool.eq_false_iff.2 (hclash m hm), hanswer⟩
      · rename_i r₁ hanswer
        rw [hanswer] at htry
        exact .cons htry (ih r₁)

namespace Placed

variable {buffers bs : List (List Pooled)} {taken : List Pooled} {r r' : Round}

theorem mem (h : Placed outer hit buffers r bs taken r') : taken ∈ bs := by
  cases h <;> simp

theorem deliberates (h : Placed outer hit buffers r bs taken r') : Deliberates r r' := by
  cases h with
  | opens htries => exact htries.deliberates
  | @joins pre post b r₁ _ hsplit htries hjoins =>
    have hdel := Round.deliberates_compatibleWithAll hit b r₁
    rw [hjoins.answer] at hdel
    exact htries.deliberates.trans hdel

/-- Whatever holds of the new buffer and of the one that a candidate joined holds of all. -/
theorem keeps {P : List Pooled → Prop} (h : Placed outer hit buffers r bs taken r')
    (hbuffers : ∀ b ∈ buffers, P b) (hopen : P [hit])
    (hjoin : ∀ b ∈ buffers, ∀ r₁, Tries hit buffers r r₁ → Joins outer hit b r₁ r' →
      P (b ++ [hit])) : ∀ b ∈ bs, P b := by
  intro c hc
  cases h with
  | opens htries =>
    rcases List.mem_append.1 hc with hc | hc
    · exact hbuffers c hc
    · rw [List.mem_singleton.1 hc]
      exact hopen
  | @joins pre post b r₁ _ hsplit htries hjoins =>
    rw [hsplit] at hbuffers hjoin htries
    rcases List.mem_append.1 hc with hc | hc
    · exact hbuffers c (List.mem_append_left _ hc)
    · rcases List.mem_cons.1 hc with rfl | hc
      · exact hjoin b (by simp) r₁ htries hjoins
      · exact hbuffers c (by simp [hc])

end Placed

/-- What is kept by placing a candidate, and by passing one over, is kept by filling: at the end it
holds of some buffers, having been seen some of the candidates, and the group comes from one of
these. -/
theorem fill_keeps (Inv : List Pooled → List (List Pooled) → Round → Prop) (last : Bool)
    {hits : List Pooled}
    (hskip : ∀ seen hit buffers r, Inv seen buffers r → Inv (seen ++ [hit]) buffers r)
    (hplace : ∀ seen buffers r, ∀ hit ∈ hits, admissible outer hit = true → Inv seen buffers r →
      Inv (seen ++ [hit]) (place outer hit buffers r).1 (place outer hit buffers r).2.2)
    {buffers : List (List Pooled)} {r : Round} (h : Inv seen buffers r) :
    ∃ seen' buffers', seen' <+: seen ++ hits ∧
      Inv seen' buffers' (fill outer last hits buffers r).2 ∧
      (∀ group, (fill outer last hits buffers r).1 = .inl group →
        ∃ b ∈ buffers', finalize outer b = some group) ∧
      ∀ bs, (fill outer last hits buffers r).1 = .inr bs → bs = buffers' := by
  induction hits generalizing seen buffers r with
  | nil =>
    refine ⟨seen, buffers, by simp, h, fun group hgroup => ?_, fun bs hbs => ?_⟩
    · cases hgroup
    · exact (Sum.inr.inj hbs).symm
  | cons hit rest ih =>
    have hrest : ∀ seen buffers r, ∀ next ∈ rest, admissible outer next = true →
        Inv seen buffers r → Inv (seen ++ [next]) (place outer next buffers r).1
          (place outer next buffers r).2.2 :=
      fun seen buffers r next hnext => hplace seen buffers r next (List.mem_cons_of_mem hit hnext)
    rw [List.append_cons]
    unfold fill
    split
    · rename_i hadm
      have hplaced := hplace seen buffers r hit List.mem_cons_self hadm h
      simp only
      split
      · split
        · rename_i group hgroup
          refine ⟨seen ++ [hit], _, List.prefix_append _ _, hplaced, fun g hg => ?_,
            fun bs hbs => ?_⟩
          · exact ⟨_, (placed_place outer hit buffers r).mem, by rw [hgroup, Sum.inl.inj hg]⟩
          · cases hbs
        · exact ih hrest hplaced
      · exact ih hrest hplaced
    · exact ih hrest (hskip seen hit buffers r h)

/-- The same for all that an outer ticket does with its candidates. -/
theorem assembleFor_keeps (Inv : List Pooled → List (List Pooled) → Round → Prop) (last : Bool)
    {candidates : List Pooled}
    (hskip : ∀ seen hit buffers r, Inv seen buffers r → Inv (seen ++ [hit]) buffers r)
    (hplace : ∀ seen buffers r, ∀ hit ∈ candidates, admissible outer hit = true →
      Inv seen buffers r →
      Inv (seen ++ [hit]) (place outer hit buffers r).1 (place outer hit buffers r).2.2)
    {r : Round} (h : Inv [] [] r) :
    ∃ seen buffers, seen <+: candidates ∧ Inv seen buffers (assembleFor outer candidates last r).2 ∧
      ∀ group, (assembleFor outer candidates last r).1 = some group →
        ∃ b ∈ buffers, finalize outer b = some group := by
  obtain ⟨seen, buffers, hseen, hinv, hgroup, hbuffers⟩ := fill_keeps Inv last hskip hplace h
  refine ⟨seen, buffers, hseen, ?_⟩
  unfold assembleFor
  generalize fill outer last candidates [] r = filled at hinv hgroup hbuffers ⊢
  obtain ⟨group | left, r₁⟩ := filled
  · refine ⟨hinv, fun g hg => hgroup g ?_⟩
    rw [Option.some.inj hg]
  · refine ⟨hinv, fun g hg => ?_⟩
    simp only at hg
    split at hg
    · unfold settleForLess at hg
      obtain ⟨b, hb, hfin⟩ := List.exists_of_findSome?_eq_some hg
      have hmem := (List.mergeSort_perm _ _).mem_iff.1 ((List.takeWhile_sublist _).subset hb)
      rw [hbuffers left rfl] at hmem
      exact ⟨b, hmem, hfin⟩
    · cases hg

/-! ## Filled buffers -/

/-- Placing a candidate leaves all buffers as they should be. -/
theorem filled_place {buffers : List (List Pooled)} {r : Round}
    (hadm : admissible outer hit = true) (h : ∀ b ∈ buffers, Filled outer seen b) :
    ∀ b ∈ (place outer hit buffers r).1, Filled outer (seen ++ [hit]) b := by
  rw [admissible, Bool.and_eq_true, decide_eq_true_eq] at hadm
  have hold : ∀ b ∈ buffers, Filled outer (seen ++ [hit]) b := fun b hb =>
    (h b hb).mono (List.sublist_append_left seen [hit])
  refine (placed_place outer hit buffers r).keeps hold (.single hadm.1 seen)
    fun b hb r₁ _ hjoins => ?_
  exact (h b hb).push hjoins.room hjoins.apart

theorem assembleFor_spec (outer : Pooled) (candidates : List Pooled) (last : Bool) (r : Round) :
    Deliberates r (assembleFor outer candidates last r).2 ∧
      ∀ group, (assembleFor outer candidates last r).1 = some group →
        ∃ b, Filled outer candidates b ∧ finalize outer b = some group := by
  obtain ⟨seen, buffers, hseen, ⟨hdel, hfilled⟩, hgroup⟩ := assembleFor_keeps
    (fun seen buffers r' => Deliberates r r' ∧ ∀ b ∈ buffers, Filled outer seen b) last
    (fun seen hit buffers r' h =>
      ⟨h.1, fun b hb => (h.2 b hb).mono (List.sublist_append_left seen [hit])⟩)
    (fun seen buffers r' hit _ hadm h =>
      ⟨h.1.trans (placed_place outer hit buffers r').deliberates, filled_place hadm h.2⟩)
    ⟨.refl r, by simp⟩
  refine ⟨hdel, fun group h => ?_⟩
  obtain ⟨b, hb, hfin⟩ := hgroup group h
  exact ⟨b, (hfilled b hb).mono hseen.sublist, hfin⟩

/-! ## Groups of buffers -/

/-- Those who stay are those at the positions that a plan keeps. -/
theorem kept_eq (plan : Surplus.Plan) (b : List Pooled) :
    kept plan b =
      (((List.range b.length).zip b).filter fun e => plan.keeps e.1).map Prod.snd := by
  unfold kept
  induction (List.range b.length).zip b with
  | nil => rfl
  | cons e rest ih =>
    rw [List.filterMap_cons, List.filter_cons, ih]
    cases h : plan.keeps e.1 <;> simp [h]

theorem kept_sublist (plan : Surplus.Plan) (b : List Pooled) : (kept plan b).Sublist b := by
  have hall : ((List.range b.length).zip b).map Prod.snd = b := List.map_snd_zip (by simp)
  have hsub : (kept plan b).Sublist (((List.range b.length).zip b).map Prod.snd) := by
    rw [kept_eq]
    exact List.filter_sublist.map Prod.snd
  rw [hall] at hsub
  exact hsub

/-- How a group comes of a buffer: under one of the plans, somebody stays and all accept the size
that remains. -/
theorem finalize_eq_some {members : List Pooled} (h : finalize outer b = some members) :
    ∃ plan ∈ Surplus.plans (Greedy.members b) (outer.ticket.count + entryCount b)
        outer.ticket.multiple outer.ticket.minCount,
      members = outer :: kept plan b ∧ kept plan b ≠ [] ∧
      ∀ p ∈ members,
        p.ticket.acceptsSize (outer.ticket.count + entryCount b - plan.excess) = true := by
  unfold finalize at h
  obtain ⟨plan, hplan, hsettle⟩ := List.exists_of_findSome?_eq_some h
  refine ⟨plan, hplan, ?_⟩
  unfold settle? at hsettle
  simp only at hsettle
  split at hsettle
  · rename_i hcond
    simp only [Bool.and_eq_true, Bool.not_eq_true', List.isEmpty_eq_false_iff,
      List.all_eq_true] at hcond
    obtain ⟨⟨hne, houter⟩, hstay⟩ := hcond
    have hmembers := Option.some.inj hsettle
    refine ⟨hmembers.symm, hne, fun p hp => ?_⟩
    rw [← hmembers] at hp
    rcases List.mem_cons.1 hp with rfl | hp
    · exact houter
    · exact hstay p hp
  · cases hsettle

end Matchmaking.Greedy
