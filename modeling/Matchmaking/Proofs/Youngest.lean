import Mathlib.Algebra.Ring.Int.Defs
import Matchmaking.Proofs.Sorting
import Matchmaking.Proofs.Trimming

/-!
# The youngest go

If each member of a buffer brings one entry and no two of them were made at the same time, one
choice is better than all others: an excess that is small enough is carried by the youngest members.
So a buffer in the order of age keeps its oldest members.
-/

namespace Matchmaking

namespace Surplus

variable {target : Nat} {members : List Member} {l gone : Places}

/-! ## The best choice -/

theorem better_self (c : Choice) : c.better c = false := by
  simp [Choice.better]

/-- Among choices of as many members the sums of the times decide. -/
theorem better_of_length {a b : Choice} (h : a.members.length = b.members.length)
    (hpos : 0 < b.members.length) : a.better b = decide (b.created < a.created) := by
  have hfactor : 0 < (b.members.length : Int) := Int.natCast_pos.2 hpos
  have hmul : b.created * (b.members.length : Int) < a.created * (b.members.length : Int) ↔
      b.created < a.created :=
    ⟨fun hlt => Int.lt_of_mul_lt_mul_right hlt (Int.le_of_lt hfactor),
      fun hlt => Int.mul_lt_mul_of_pos_right hlt hfactor⟩
  rw [Choice.better, h]
  simp [hmul]

theorem foldl_better {x first : Choice} {rest : List Choice} (hx : x ∈ first :: rest)
    (hbetter : ∀ c ∈ first :: rest, c ≠ x → x.better c = true ∧ c.better x = false) :
    rest.foldl (fun b c => if c.better b then c else b) first = x := by
  induction rest generalizing first with
  | nil => exact (List.mem_singleton.1 hx).symm
  | cons next rest ih =>
    have hfirst := hbetter first List.mem_cons_self
    have hnext := hbetter next (List.mem_cons_of_mem first List.mem_cons_self)
    have hrest : ∀ c ∈ rest, c ≠ x → x.better c = true ∧ c.better x = false := fun c hc =>
      hbetter c (List.mem_cons_of_mem first (List.mem_cons_of_mem next hc))
    rw [List.foldl_cons]
    by_cases hpick : next.better first = true
    · rw [if_pos hpick]
      refine ih ?_ fun c hc => ?_
      · -- the first choice is not the best one, since another one is better
        have hne : first ≠ x := by
          rintro rfl
          by_cases hsame : next = first
          · rw [hsame, better_self] at hpick
            cases hpick
          · rw [(hnext hsame).2] at hpick
            cases hpick
        exact (List.mem_cons.1 hx).resolve_left hne.symm
      · rcases List.mem_cons.1 hc with rfl | hc
        · exact hnext
        · exact hrest c hc
    · rw [if_neg hpick]
      refine ih ?_ fun c hc => ?_
      · have hne : next = x → first = x := by
          rintro rfl
          by_contra hne
          exact hpick (hfirst hne).1
        rcases List.mem_cons.1 hx with rfl | hx
        · exact List.mem_cons_self
        · rcases List.mem_cons.1 hx with h | hx
          · rw [hne h.symm]
            exact List.mem_cons_self
          · exact List.mem_cons_of_mem first hx
      · rcases List.mem_cons.1 hc with rfl | hc
        · exact hfirst
        · exact hrest c hc

/-- A choice that is better than all others is found to be the best. -/
theorem best_eq_some {cs : List Choice} {x : Choice} (hx : x ∈ cs)
    (hbetter : ∀ c ∈ cs, c ≠ x → x.better c = true ∧ c.better x = false) : best cs = some x := by
  cases cs with
  | nil => cases hx
  | cons first rest => exact congrArg some (foldl_better hx hbetter)

theorem created_ofPlaces (gone : Places) :
    (Choice.ofPlaces gone).created = (gone.map fun m => m.2.createdMillis).sum := by
  induction gone with
  | nil => rfl
  | cons m rest ih => rw [List.map_cons, List.sum_cons, ← ih]; rfl

/-- Members one after the other, the youngest first. -/
abbrev YoungestFirst (l : Places) : Prop :=
  l.Pairwise fun a b => b.2.createdMillis < a.2.createdMillis

/-- Of all selections of one size, the youngest members were made last on average. -/
theorem created_take (hl : YoungestFirst l) (hsub : gone.Sublist l) :
    gone = l.take gone.length ∨
      (Choice.ofPlaces gone).created < (Choice.ofPlaces (l.take gone.length)).created := by
  simp only [created_ofPlaces]
  induction l generalizing gone with
  | nil =>
    rw [List.sublist_nil.1 hsub]
    exact Or.inl rfl
  | cons a l ih =>
    obtain ⟨hfirst, hrest⟩ := List.pairwise_cons.1 hl
    cases hsub with
    | cons _ hsub =>
      cases gone with
      | nil => exact Or.inl rfl
      | cons g gone =>
        -- the youngest member was passed over, and the first that was taken is older
        have holder := hfirst g (hsub.subset List.mem_cons_self)
        have hothers := ih hrest ((List.sublist_cons_self g gone).trans hsub)
        right
        rw [List.length_cons, List.take_succ_cons, List.map_cons, List.map_cons, List.sum_cons,
          List.sum_cons]
        rcases hothers with heq | hlt
        · rw [← heq]
          omega
        · omega
    | @cons_cons gone _ _ hsub =>
      rw [List.length_cons, List.take_succ_cons, List.map_cons, List.map_cons, List.sum_cons,
        List.sum_cons]
      rcases ih hrest hsub with heq | hlt
      · left
        rw [← heq]
      · right
        omega

/-! ## Members in single file -/

/-- The members of a buffer with their positions. -/
abbrev places (members : List Member) : Places := (List.range members.length).zip members

/-- Each of some members brings one entry, and each was made before those after it. -/
structure SingleFile (members : List Member) : Prop where
  single : ∀ m ∈ members, m.count = 1
  ages : members.Pairwise fun a b => a.createdMillis < b.createdMillis

theorem map_snd_places (members : List Member) : (places members).map Prod.snd = members :=
  List.map_snd_zip (by simp)

theorem youngestFirst_of_ages (hages : members.Pairwise fun a b => a.createdMillis < b.createdMillis) :
    YoungestFirst (places members).reverse := by
  rw [← map_snd_places members, List.pairwise_map] at hages
  exact List.pairwise_reverse.2 hages

/-- If each member was made before those after it and may go, the members that are considered are
the last ones, in the opposite order. -/
theorem eligible_of_ages (hfit : ∀ m ∈ members, m.count ≤ target)
    (hages : members.Pairwise fun a b => a.createdMillis < b.createdMillis) :
    eligible members target = (places members).reverse.take maxMembers := by
  have hfitting : ((places members).filter fun m => m.2.count ≤ target) = places members := by
    refine List.filter_eq_self.2 fun m hm => ?_
    rw [decide_eq_true_eq]
    refine hfit m.2 ?_
    rw [← map_snd_places members]
    exact List.mem_map_of_mem hm
  have hsorted : ((places members).mergeSort fun a b => b.2.createdMillis ≤ a.2.createdMillis) =
      (places members).reverse := by
    refine mergeSort_eq_of_perm (fun a b c hab hbc => ?_) (fun a b => ?_)
      (List.reverse_perm _).symm ((youngestFirst_of_ages hages).imp fun hba => ?_)
    · rw [decide_eq_true_eq] at hab hbc ⊢
      omega
    · rw [Bool.or_eq_true, decide_eq_true_eq, decide_eq_true_eq]
      omega
    · rw [decide_eq_false_iff_not]
      omega
  unfold eligible
  simp only [hfitting, hsorted]

namespace SingleFile

variable {excess : Nat}

theorem count_place (h : SingleFile members) : ∀ m ∈ places members, m.2.count = 1 := by
  intro m hm
  refine h.single m.2 ?_
  rw [← map_snd_places members]
  exact List.mem_map_of_mem hm

theorem youngestFirst (h : SingleFile members) : YoungestFirst (places members).reverse :=
  youngestFirst_of_ages h.ages

theorem eligible_eq (h : SingleFile members) (hpos : 0 < excess) :
    eligible members excess = (places members).reverse.take maxMembers := by
  refine eligible_of_ages (fun m hm => ?_) h.ages
  rw [h.single m hm]
  exact hpos

/-- The choice of as many of the youngest members as have to go is better than any other one. -/
theorem best_exact (h : SingleFile members) (hpos : 0 < excess) (hfew : excess ≤ maxMembers)
    (hle : excess ≤ members.length) :
    best ((choices excess (eligible members excess)).filter fun c =>
      c.count = excess && !c.members.isEmpty) =
      some (.ofPlaces ((eligible members excess).take excess)) := by
  have heligible := h.eligible_eq hpos
  have hyoungest : YoungestFirst (eligible members excess) := by
    rw [heligible]
    exact h.youngestFirst.sublist (List.take_sublist _ _)
  have hcount : ∀ gone : Places, gone.Sublist (eligible members excess) →
      (Choice.ofPlaces gone).count = gone.length := by
    intro gone hsub
    have hone : ∀ m ∈ gone, m.2.count = 1 := by
      intro m hm
      have hmem := hsub.subset hm
      rw [heligible] at hmem
      exact h.count_place m (List.mem_reverse.1 (List.mem_of_mem_take hmem))
    rw [count_ofPlaces, List.map_congr_left hone]
    simp
  have hlength : ((eligible members excess).take excess).length = excess := by
    rw [heligible]
    simp
    omega
  have hmembers : ∀ gone : Places, (Choice.ofPlaces gone).members.length = gone.length := by
    intro gone
    rw [members_ofPlaces, List.length_map]
  refine best_eq_some ?_ fun c hc hne => ?_
  · have htaken := hcount _ (List.take_sublist excess (eligible members excess))
    rw [hlength] at htaken
    refine List.mem_filter.2 ⟨mem_choices_iff.2 ⟨_, List.take_sublist _ _, rfl, by omega⟩, ?_⟩
    have hsome := hmembers ((eligible members excess).take excess)
    rw [hlength] at hsome
    rw [Bool.and_eq_true, decide_eq_true_eq, Bool.not_eq_true', List.isEmpty_eq_false_iff]
    exact ⟨htaken, List.ne_nil_of_length_pos (by omega)⟩
  · obtain ⟨hchoice, hexact⟩ := List.mem_filter.1 hc
    obtain ⟨gone, hsub, rfl, -⟩ := mem_choices_iff.1 hchoice
    rw [Bool.and_eq_true, decide_eq_true_eq, hcount gone hsub] at hexact
    rcases created_take hyoungest hsub with heq | hlt
    · rw [hexact.1] at heq
      exact absurd (by rw [← heq]) hne
    · rw [hexact.1] at hlt
      have hsame : (Choice.ofPlaces ((eligible members excess).take excess)).members.length =
          (Choice.ofPlaces gone).members.length := by
        rw [hmembers, hmembers, hlength, hexact.1]
      have hsome : 0 < (Choice.ofPlaces gone).members.length := by
        rw [hmembers, hexact.1]
        exact hpos
      rw [better_of_length hsame hsome, better_of_length hsame.symm (by omega), decide_eq_true_eq,
        decide_eq_false_iff_not]
      omega

/-- A small excess is carried by the youngest members. -/
theorem bestSubset_spec (h : SingleFile members) (hpos : 0 < excess) (hfew : excess ≤ maxMembers)
    (hle : excess ≤ members.length) :
    ∃ removed, bestSubset members excess = some removed ∧
      ∀ i, i ∈ removed ↔ members.length - excess ≤ i ∧ i < members.length := by
  refine ⟨_, by rw [bestSubset, h.best_exact hpos hfew hle, Option.map_some], fun i => ?_⟩
  have hgone : ((eligible members excess).take excess).map Prod.fst =
      (List.range' (members.length - excess) excess).reverse := by
    have hfirst : (places members).map Prod.fst = List.range members.length :=
      List.map_fst_zip (by simp)
    have hlength : (places members).length = members.length := by simp
    rw [h.eligible_eq hpos, List.take_take, Nat.min_eq_left hfew, List.take_reverse, hlength,
      List.map_reverse, List.map_drop, hfirst, List.range_eq_range', List.drop_range']
    congr 2 <;> omega
  rw [(List.mergeSort_perm _ _).mem_iff, members_ofPlaces, hgone, List.mem_reverse,
    List.mem_range'_1]
  omega

/-- The plan for a small excess keeps the oldest members. -/
theorem plan?_spec (h : SingleFile members) (hfew : excess ≤ maxMembers)
    (hle : excess ≤ members.length) :
    ∃ plan, plan? members excess = some plan ∧ plan.excess = excess ∧
      ∀ i < members.length, plan.keeps i = decide (i < members.length - excess) := by
  unfold plan?
  by_cases hzero : excess = 0
  · refine ⟨_, if_pos hzero, hzero.symm, fun i hi => ?_⟩
    rw [hzero, Nat.sub_zero, Plan.keeps, List.contains_nil, Bool.not_false]
    exact (decide_eq_true hi).symm
  · obtain ⟨removed, hremoved, hmem⟩ := h.bestSubset_spec (by omega) hfew hle
    refine ⟨⟨excess, removed⟩, by rw [if_neg hzero, hremoved, Option.map_some], rfl, fun i hi => ?_⟩
    rw [Plan.keeps, Bool.eq_iff_iff, Bool.not_eq_true', ← Bool.not_eq_true, List.contains_iff_mem,
      hmem, decide_eq_true_eq]
    omega

/-- The first plan takes away what exceeds a multiple, provided that leaves enough. -/
theorem plans_spec (h : SingleFile members) {multiple floor : Nat} (hpos : 0 < multiple)
    (hfew : multiple ≤ maxMembers + 1)
    (hfloor : floor ≤ members.length + 1 - (members.length + 1) % multiple)
    (hsome : 0 < members.length + 1 - (members.length + 1) % multiple) :
    ∃ plan rest, plans members (members.length + 1) multiple floor = plan :: rest ∧
      plan.excess = (members.length + 1) % multiple ∧
      ∀ i < members.length, plan.keeps i =
        decide (i < members.length - (members.length + 1) % multiple) := by
  have hmod : (members.length + 1) % multiple < multiple := Nat.mod_lt _ hpos
  have hle : (members.length + 1) % multiple ≤ members.length + 1 := Nat.mod_le _ _
  obtain ⟨plan, hplan, hspec⟩ := @plan?_spec _ ((members.length + 1) % multiple) h (by omega)
    (by omega)
  have hquotient : 0 < (members.length + 1) / multiple := by
    refine Nat.div_pos ?_ hpos
    by_contra hlt
    rw [Nat.mod_eq_of_lt (by omega)] at hsome
    omega
  obtain ⟨steps, hsteps⟩ : ∃ steps, min ((members.length + 1) / multiple)
      ((members.length + 1 - (members.length + 1) % multiple - floor) / multiple + 1) =
        steps + 1 :=
    Nat.exists_eq_add_one.2 (Nat.lt_min.2 ⟨hquotient, Nat.succ_pos _⟩)
  have hnonzero : ¬(decide (multiple = 0) || decide (members.length + 1 = 0)) = true := by
    simp
    omega
  unfold plans excesses
  rw [if_neg hnonzero, if_pos (by omega)]
  simp only [hsteps, List.range_succ_eq_map, List.map_cons, Nat.zero_mul, Nat.add_zero,
    List.filterMap_cons, hplan]
  exact ⟨plan, _, rfl, hspec⟩

end SingleFile

end Surplus

namespace Greedy

/-! ## Trimmed buffers -/

/-- A plan that keeps the positions below a bound keeps the first members. -/
theorem kept_eq_take {plan : Surplus.Plan} {b : List Pooled} {n : Nat}
    (h : ∀ i < b.length, plan.keeps i = decide (i < n)) : kept plan b = b.take n := by
  have hpositions : ((List.range b.length).zip b).map Prod.fst = List.range b.length :=
    List.map_fst_zip (by simp)
  have hfirst : ∀ e ∈ ((List.range b.length).zip b).take n, plan.keeps e.1 = true := by
    intro e he
    have hmem := List.mem_map_of_mem (f := Prod.fst) he
    rw [List.map_take, hpositions, List.take_range, List.mem_range] at hmem
    rw [h e.1 (by omega), decide_eq_true_eq]
    omega
  have hlater : ∀ e ∈ ((List.range b.length).zip b).drop n, ¬plan.keeps e.1 = true := by
    intro e he
    have hmem := List.mem_map_of_mem (f := Prod.fst) he
    rw [List.map_drop, hpositions, List.range_eq_range', List.drop_range',
      List.mem_range'_1] at hmem
    rw [h e.1 (by omega), decide_eq_true_eq]
    omega
  have hkept : ((List.range b.length).zip b).filter (fun e => plan.keeps e.1) =
      ((List.range b.length).zip b).take n := by
    nth_rewrite 1 [← List.take_append_drop n ((List.range b.length).zip b)]
    rw [List.filter_append, List.filter_eq_self.2 hfirst, List.filter_eq_nil_iff.2 hlater,
      List.append_nil]
  rw [kept_eq, hkept, List.map_take, List.map_snd_zip (by simp)]

end Greedy

end Matchmaking
