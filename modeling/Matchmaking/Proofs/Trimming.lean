import Mathlib.Data.List.Nodup
import Mathlib.Data.List.Perm.Subperm
import Matchmaking.Proofs.Buffers

/-!
# What surplus plans take away

A plan names positions of members that go, and the entries of these members add up to the excess
that the plan promises. A buffer that is trimmed by a plan is therefore smaller by exactly that
excess.
-/

namespace Matchmaking

namespace Surplus

/-- The members of a buffer with their positions. -/
abbrev Places := List (Nat × Member)

variable {target : Nat} {members : List Member}

/-- The choice of some members. -/
def Choice.ofPlaces (gone : Places) : Choice := gone.foldr (fun m c => c.add m.1 m.2) .none

theorem members_ofPlaces (gone : Places) : (Choice.ofPlaces gone).members = gone.map Prod.fst := by
  induction gone with
  | nil => rfl
  | cons m rest ih => rw [List.map_cons, ← ih]; rfl

theorem count_ofPlaces (gone : Places) :
    (Choice.ofPlaces gone).count = (gone.map fun m => m.2.count).sum := by
  induction gone with
  | nil => rfl
  | cons m rest ih => rw [List.map_cons, List.sum_cons, ← ih]; rfl

/-- The choices are those of all selections that have no more entries than the target. -/
theorem mem_choices_iff {l : Places} {c : Choice} : c ∈ choices target l ↔
    ∃ gone : Places, gone.Sublist l ∧ c = .ofPlaces gone ∧ c.count ≤ target := by
  induction l generalizing c with
  | nil =>
    rw [choices, List.mem_singleton]
    constructor
    · rintro rfl
      exact ⟨[], .slnil, rfl, Nat.zero_le _⟩
    · rintro ⟨gone, hsub, rfl, -⟩
      rw [List.sublist_nil.1 hsub]
      rfl
  | cons m rest ih =>
    rw [choices, List.mem_flatMap]
    constructor
    · rintro ⟨c', hc', hc⟩
      obtain ⟨gone, hsub, rfl, hcount⟩ := ih.1 hc'
      -- the first member either stays or goes
      split at hc
      · rename_i hroom
        rcases List.mem_cons.1 hc with rfl | hc
        · exact ⟨gone, hsub.cons m, rfl, hcount⟩
        · rw [List.mem_singleton.1 hc]
          exact ⟨m :: gone, hsub.cons_cons m, rfl, hroom⟩
      · rw [List.mem_singleton.1 hc]
        exact ⟨gone, hsub.cons m, rfl, hcount⟩
    · rintro ⟨gone, hsub, rfl, hcount⟩
      cases hsub with
      | cons _ hsub =>
        refine ⟨_, ih.2 ⟨gone, hsub, rfl, hcount⟩, ?_⟩
        split <;> simp
      | @cons_cons gone _ _ hsub =>
        have hroom : m.2.count + (Choice.ofPlaces gone).count ≤ target := hcount
        refine ⟨_, ih.2 ⟨gone, hsub, rfl, by omega⟩, ?_⟩
        rw [if_pos hroom]
        exact List.mem_cons_of_mem _ (List.mem_singleton_self _)

theorem mem_of_best {cs : List Choice} {c : Choice} (h : best cs = some c) : c ∈ cs := by
  cases cs with
  | nil => cases h
  | cons first rest =>
    have hc := Option.some.inj h
    clear h
    induction rest generalizing first with
    | nil => simp_all
    | cons next rest ih =>
      rw [List.foldl_cons] at hc
      have hmem := ih _ hc
      split at hmem
      · exact List.mem_cons_of_mem first hmem
      · rcases List.mem_cons.1 hmem with rfl | hmem
        · exact List.mem_cons_self
        · exact List.mem_cons_of_mem first (List.mem_cons_of_mem next hmem)

theorem eligible_subperm (members : List Member) (target : Nat) :
    (eligible members target).Subperm ((List.range members.length).zip members) := by
  unfold eligible
  refine (List.take_sublist _ _).subperm.trans ?_
  exact (List.mergeSort_perm _ _).subperm.trans List.filter_sublist.subperm

/-- The members that go for an excess have that many entries. -/
theorem exists_of_bestSubset {removed : List Nat} (h : bestSubset members target = some removed) :
    ∃ gone : Places, gone.Subperm ((List.range members.length).zip members) ∧
      (∀ i, i ∈ removed ↔ i ∈ gone.map Prod.fst) ∧
      (gone.map fun m => m.2.count).sum = target := by
  obtain ⟨c, hbest, rfl⟩ := Option.map_eq_some_iff.1 h
  obtain ⟨hc, hexact⟩ := List.mem_filter.1 (mem_of_best hbest)
  obtain ⟨gone, hsub, rfl, -⟩ := mem_choices_iff.1 hc
  simp only [Bool.and_eq_true, decide_eq_true_eq] at hexact
  refine ⟨gone, hsub.subperm.trans (eligible_subperm members target), fun i => ?_, ?_⟩
  · rw [(List.mergeSort_perm _ _).mem_iff, members_ofPlaces]
  · rw [← count_ofPlaces, hexact.1]

/-- The members that go under a plan have as many entries as it says. -/
theorem exists_of_mem_plans {size multiple floor : Nat} {plan : Plan}
    (h : plan ∈ plans members size multiple floor) :
    ∃ gone : Places, gone.Subperm ((List.range members.length).zip members) ∧
      (∀ i, i ∈ plan.removed ↔ i ∈ gone.map Prod.fst) ∧
      (gone.map fun m => m.2.count).sum = plan.excess := by
  unfold plans at h
  split at h
  · cases h
  · obtain ⟨excess, -, hplan⟩ := List.mem_filterMap.1 h
    unfold plan? at hplan
    split at hplan
    · rw [← Option.some.inj hplan]
      exact ⟨[], List.nil_subperm, by simp, rfl⟩
    · obtain ⟨removed, hremoved, rfl⟩ := Option.map_eq_some_iff.1 hplan
      exact exists_of_bestSubset hremoved

end Surplus

/-! ## Parts of a list with positions -/

section Positions

variable {α : Type} {l part : List (Nat × α)}

/-- Some elements of a list without repeated positions are those at their positions. -/
theorem perm_filter_positions (hl : (l.map Prod.fst).Nodup) (h : part.Subperm l) :
    (l.filter fun e => (part.map Prod.fst).contains e.1).Perm part := by
  have hnodup : l.Nodup := .of_map Prod.fst hl
  obtain ⟨part', hperm, hsub⟩ := h
  refine (List.perm_ext_iff_of_nodup (hnodup.filter _) (hperm.nodup_iff.1 (hnodup.sublist hsub))).2
    fun e => ?_
  rw [List.mem_filter, List.contains_iff_mem]
  constructor
  · rintro ⟨hel, hpos⟩
    obtain ⟨e', he', heq⟩ := List.mem_map.1 hpos
    rw [← List.inj_on_of_nodup_map hl (hsub.subset (hperm.mem_iff.2 he')) hel heq]
    exact he'
  · intro he
    exact ⟨hsub.subset (hperm.mem_iff.2 he), List.mem_map.2 ⟨e, he, rfl⟩⟩

/-- A sum over a list is the sum over some of its elements and over those at other positions. -/
theorem sum_positions (f : Nat × α → Nat) (hl : (l.map Prod.fst).Nodup) (h : part.Subperm l) :
    (part.map f).sum + ((l.filter fun e => !(part.map Prod.fst).contains e.1).map f).sum =
      (l.map f).sum := by
  have hsplit := ((List.filter_append_perm (fun e => (part.map Prod.fst).contains e.1) l).map f)
  rw [← hsplit.sum_nat, List.map_append, List.sum_append,
    ((perm_filter_positions hl h).map f).sum_nat]

end Positions

/-! ## Trimmed buffers -/

namespace Greedy

/-- A plan takes exactly its excess away from a buffer. -/
theorem entryCount_kept {b : List Pooled} {size multiple floor : Nat} {plan : Surplus.Plan}
    (h : plan ∈ Surplus.plans (members b) size multiple floor) :
    plan.excess + entryCount (kept plan b) = entryCount b := by
  obtain ⟨gone, hgone, hremoved, hsum⟩ := Surplus.exists_of_mem_plans h
  have hlength : (members b).length = b.length := by simp [members]
  have hnodup : (((List.range b.length).zip (members b)).map Prod.fst).Nodup := by
    rw [List.map_fst_zip (by simp [members])]
    exact List.nodup_range
  rw [hlength] at hgone
  have hparts := sum_positions (fun m => m.2.count) hnodup hgone
  -- members and tickets stand at the same positions
  rw [hsum, members, List.zip_map_right, List.filter_map, List.map_map, List.map_map] at hparts
  have hkeeps : ((List.range b.length).zip b).filter (fun e => plan.keeps e.1) =
      ((List.range b.length).zip b).filter fun e => !(gone.map Prod.fst).contains e.1 := by
    refine List.filter_congr fun e _ => ?_
    rw [Surplus.Plan.keeps, Bool.eq_iff_iff]
    simp [hremoved]
  have hkept : entryCount (kept plan b) =
      ((((List.range b.length).zip b).filter fun e => !(gone.map Prod.fst).contains e.1).map
        fun e => e.2.ticket.count).sum := by
    rw [entryCount_eq_sum, kept_eq, List.map_map, hkeeps]
    rfl
  have hall : (((List.range b.length).zip b).map fun e => e.2.ticket.count).sum = entryCount b := by
    rw [entryCount]
    nth_rewrite 3 [← @List.map_snd_zip _ _ (List.range b.length) b (by simp)]
    rw [List.map_map]
    rfl
  rw [hkept, ← hall]
  exact hparts

/-- The group that comes of a buffer: the outer ticket and some members of the buffer, all of whom
accept its size. -/
theorem finalize_spec {outer : Pooled} {b members : List Pooled}
    (h : finalize outer b = some members) :
    ∃ others, members = outer :: others ∧ others ≠ [] ∧ others.Sublist b ∧
      ∀ m ∈ outer :: others, m.ticket.acceptsSize (entryCount (outer :: others)) = true := by
  obtain ⟨plan, hplan, rfl, hne, haccepted⟩ := finalize_eq_some h
  refine ⟨kept plan b, rfl, hne, kept_sublist plan b, ?_⟩
  -- the size that was checked is what remains after trimming
  have hsize : outer.ticket.count + entryCount b - plan.excess =
      entryCount (outer :: kept plan b) := by
    have := entryCount_kept hplan
    rw [entryCount_cons]
    omega
  rw [← hsize]
  exact haccepted

end Greedy

end Matchmaking
