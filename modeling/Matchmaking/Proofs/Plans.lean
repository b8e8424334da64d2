import Mathlib.Algebra.Order.BigOperators.Group.List
import Matchmaking.Proofs.Carriers

/-!
# The plans for a group that is too large

The excesses that are tried for a group are those that leave a multiple, leave somebody and do not
leave too few, by increasing excess. For nobody to go there is always a plan, and for any other
excess exactly if some of the members that are considered carry it; then the best of these go. Main
statement: `plans_optimal`.
-/

namespace Matchmaking

namespace Surplus

variable {size multiple floor excess : Nat} {members : List Member}

/-! ## The excesses -/

/-- An excess is tried for a group of `size` entries: a multiple stays, and what stays is not
nothing and not below `floor`. -/
structure Tried (size multiple floor excess : Nat) : Prop where
  multiple : excess % multiple = size % multiple
  some_stay : excess < size
  enough_stay : floor ≤ size - excess

/-- The number of steps from the first excess to the last one. -/
theorem lt_steps_iff (hpos : 0 < multiple) (hfloor : size % multiple + floor ≤ size) (k : Nat) :
    k < min (size / multiple) ((size - size % multiple - floor) / multiple + 1) ↔
      size % multiple + k * multiple < size ∧
        floor ≤ size - (size % multiple + k * multiple) := by
  have hsize : size / multiple * multiple = size - size % multiple := by
    rw [Nat.mul_comm, Nat.mul_div_self_eq_mod_sub_self]
  have hlt : k < size / multiple ↔ k * multiple < size - size % multiple := by
    rw [← hsize]
    exact (Nat.mul_lt_mul_right hpos).symm
  have hle : k ≤ (size - size % multiple - floor) / multiple ↔
      k * multiple ≤ size - size % multiple - floor := Nat.le_div_iff_mul_le hpos
  rw [Nat.lt_min, Nat.lt_succ_iff, hlt, hle]
  omega

theorem mem_excesses_iff (hpos : 0 < multiple) :
    excess ∈ excesses size multiple floor ↔ Tried size multiple floor excess := by
  unfold excesses
  split
  · rename_i hfloor
    rw [List.mem_map]
    constructor
    · rintro ⟨k, hk, rfl⟩
      obtain ⟨hlt, hstay⟩ := (lt_steps_iff hpos hfloor k).1 (List.mem_range.1 hk)
      exact ⟨by rw [Nat.add_mul_mod_self_right, Nat.mod_mod], hlt, hstay⟩
    · rintro ⟨hmod, hlt, hstay⟩
      have hsum : size % multiple + excess / multiple * multiple = excess := by
        rw [← hmod, Nat.mul_comm, Nat.mod_add_div]
      refine ⟨excess / multiple, List.mem_range.2 ((lt_steps_iff hpos hfloor _).2 ?_), hsum⟩
      rw [hsum]
      exact ⟨hlt, hstay⟩
  · rename_i hfloor
    refine iff_of_false List.not_mem_nil fun h => hfloor ?_
    have hle : size % multiple ≤ excess := h.multiple ▸ Nat.mod_le excess multiple
    have := h.some_stay
    have := h.enough_stay
    omega

theorem pairwise_excesses (hpos : 0 < multiple) :
    (excesses size multiple floor).Pairwise (· < ·) := by
  unfold excesses
  split
  · rw [List.pairwise_map]
    refine List.pairwise_lt_range.imp fun {a b} hab => ?_
    exact Nat.add_lt_add_left (Nat.mul_lt_mul_of_pos_right hab hpos) _
  · exact .nil

/-! ## The plan for an excess -/

/-- Who goes under a plan has as many entries as it says. Nobody goes if no entry has to, and
otherwise the best go. -/
structure Plan.Optimal (members : List Member) (p : Plan) : Prop where
  increasing : p.removed.Pairwise (· < ·)
  valid : ∀ i ∈ p.removed, i < members.length
  entries : entriesAt members p.removed = p.excess
  nobody : p.excess = 0 → p.removed = []
  best : p.excess ≠ 0 → Best members p.excess p.removed

theorem excess_of_plan {p : Plan} (h : plan? members excess = some p) : p.excess = excess := by
  unfold plan? at h
  split at h
  · rename_i hzero
    rw [← Option.some.inj h, hzero]
  · obtain ⟨removed, -, rfl⟩ := Option.map_eq_some_iff.1 h
    rfl

theorem optimal_of_plan {p : Plan} (h : plan? members excess = some p) : p.Optimal members := by
  unfold plan? at h
  split at h
  · rw [← Option.some.inj h]
    exact ⟨.nil, by simp, rfl, fun _ => rfl, fun hne => absurd rfl hne⟩
  · rename_i hne
    obtain ⟨removed, hremoved, rfl⟩ := Option.map_eq_some_iff.1 h
    have hbest := best_of_bestSubset hremoved
    exact ⟨hbest.carries.increasing, fun i hi => (hbest.carries.considered i hi).valid,
      hbest.carries.entries, fun hzero => absurd hzero hne, fun _ => hbest⟩

theorem exists_plan_iff : (∃ p, plan? members excess = some p) ↔
    excess = 0 ∨ ∃ S, Carries members excess S := by
  unfold plan?
  split
  · rename_i hzero
    exact iff_of_true ⟨_, rfl⟩ (.inl hzero)
  · rename_i hne
    rw [or_iff_right hne]
    constructor
    · rintro ⟨p, hp⟩
      obtain ⟨removed, hremoved, -⟩ := Option.map_eq_some_iff.1 hp
      exact ⟨removed, (best_of_bestSubset hremoved).carries⟩
    · rintro ⟨S, hS⟩
      obtain ⟨removed, hremoved⟩ := exists_bestSubset hS
      exact ⟨⟨excess, removed⟩, Option.map_eq_some_iff.2 ⟨removed, hremoved, rfl⟩⟩

/-! ## All plans -/

theorem plans_eq_filterMap (hpos : 0 < multiple) :
    plans members size multiple floor =
      (excesses size multiple floor).filterMap (plan? members) := by
  unfold plans
  split
  · rename_i hnone
    have hzero : size = 0 := by
      simp only [Bool.or_eq_true, decide_eq_true_eq] at hnone
      omega
    -- of an empty group nobody can stay
    have hnil : excesses size multiple floor = [] := List.eq_nil_iff_forall_not_mem.2 fun e he => by
      have := ((mem_excesses_iff hpos).1 he).some_stay
      omega
    rw [hnil, List.filterMap_nil]
  · rfl

theorem mem_plans_iff (hpos : 0 < multiple) {p : Plan} : p ∈ plans members size multiple floor ↔
    Tried size multiple floor p.excess ∧ plan? members p.excess = some p := by
  rw [plans_eq_filterMap hpos, List.mem_filterMap]
  constructor
  · rintro ⟨e, he, hp⟩
    rw [excess_of_plan hp]
    exact ⟨(mem_excesses_iff hpos).1 he, hp⟩
  · rintro ⟨htried, hp⟩
    exact ⟨p.excess, (mem_excesses_iff hpos).2 htried, hp⟩

theorem pairwise_plans (members : List Member) (size multiple floor : Nat) :
    (plans members size multiple floor).Pairwise fun p q => p.excess < q.excess := by
  rcases Nat.eq_zero_or_pos multiple with rfl | hpos
  · exact .nil
  · rw [plans_eq_filterMap hpos]
    refine (pairwise_excesses hpos).filterMap _ fun e e' hlt p hp q hq => ?_
    rw [excess_of_plan hp, excess_of_plan hq]
    exact hlt

theorem sum_eligible_le (members : List Member) (excess : Nat) :
    ((eligible members excess).map fun m => m.2.count).sum ≤ (members.map Member.count).sum := by
  obtain ⟨l, hperm, hsub⟩ := eligible_subperm members excess
  have hall : (places members).map (fun m => m.2.count) = members.map Member.count := by
    conv_rhs => rw [← map_snd_places members, List.map_map]
    rfl
  rw [← (hperm.map _).sum_nat, ← hall]
  exact (hsub.map _).sum_le_sum fun _ _ => Nat.zero_le _

/-- The plans for a group whose members have no more entries than it: they are listed by increasing
excess, each is optimal, and there is one for every excess that is tried and that nobody has to
carry or somebody can. -/
theorem plans_optimal (hsize : size < 2 ^ 63) (hmultiple : 0 < multiple)
    (hmembers : (members.map Member.count).sum ≤ size) :
    ∃ ps, plans? members size multiple floor = some ps ∧
      ps.Pairwise (fun a b => a.excess < b.excess) ∧
      (∀ p ∈ ps, Tried size multiple floor p.excess ∧ p.Optimal members) ∧
      ∀ e, Tried size multiple floor e →
        ((∃ p ∈ ps, p.excess = e) ↔ e = 0 ∨ ∃ S, Carries members e S) := by
  have hfits : ∀ e ∈ excesses size multiple floor, fits members e = true := by
    intro e _
    have hsum := sum_eligible_le members e
    have hlt : ((eligible members e).map fun m => m.2.count).sum < 2 ^ 64 := by omega
    rw [fits, Bool.or_eq_true, decide_eq_true_eq, ← List.sum_eq_foldr]
    exact .inr hlt
  have hplans : plans? members size multiple floor = some (plans members size multiple floor) := by
    rw [plans?, List.all_eq_true.2 hfits, Bool.or_true, if_pos rfl]
  refine ⟨_, hplans, pairwise_plans members size multiple floor, fun p hp => ?_, fun e he => ?_⟩
  · obtain ⟨htried, hplan⟩ := (mem_plans_iff hmultiple).1 hp
    exact ⟨htried, optimal_of_plan hplan⟩
  · rw [← exists_plan_iff]
    constructor
    · rintro ⟨p, hp, rfl⟩
      exact ⟨p, ((mem_plans_iff hmultiple).1 hp).2⟩
    · rintro ⟨p, hplan⟩
      have hexcess := excess_of_plan hplan
      rw [← hexcess] at he hplan
      exact ⟨p, (mem_plans_iff hmultiple).2 ⟨he, hplan⟩, hexcess⟩

/-- A member with two entries and two with one, of whom the last is the youngest. -/
def pairAndSingles : List Member := [⟨2, 50⟩, ⟨1, 40⟩, ⟨1, 60⟩]

theorem carries_pair : Carries pairAndSingles 2 [0] where
  ne := List.cons_ne_nil 0 []
  increasing := List.pairwise_singleton _ 0
  considered := by
    intro i hi
    rw [List.mem_singleton.1 hi]
    exact ⟨by decide, by decide, by decide⟩
  entries := rfl

/-- Of six entries four are to stay: the best two that can go do so. -/
theorem plans_pairAndSingles :
    ∃ ps, plans? pairAndSingles 6 4 4 = some ps ∧
      ∃ p ∈ ps, p.excess = 2 ∧ Best pairAndSingles 2 p.removed := by
  obtain ⟨ps, hps, -, hoptimal, hexists⟩ :=
    @plans_optimal 6 4 4 pairAndSingles (by decide) (by decide) (by decide)
  have htried : Tried 6 4 4 2 := ⟨by decide, by decide, by decide⟩
  obtain ⟨p, hp, hexcess⟩ := (hexists 2 htried).2 (.inr ⟨[0], carries_pair⟩)
  have hbest := (hoptimal p hp).2.best (by omega)
  rw [hexcess] at hbest
  exact ⟨ps, hps, p, hp, hexcess, hbest⟩

end Surplus

end Matchmaking
