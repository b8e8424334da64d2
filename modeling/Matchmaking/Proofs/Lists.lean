import Mathlib.Algebra.BigOperators.Group.List.Basic
import Mathlib.Algebra.Ring.Nat

/-!
# Lists

What is needed of lists in general: how a total changes when one element is replaced, where the
elements stand of which there are few, and what erasing repetitions depends on.
-/

namespace Matchmaking

section Lists

variable {α : Type} {l : List α}

/-! ## Totals -/

/-- One thing in a list is replaced. -/
theorem sum_map_set_add {f : α → Nat} {i : Nat} {a : α} (h : l[i]? = some a) (b : α) :
    ((l.set i b).map f).sum + f a = (l.map f).sum + f b := by
  induction l generalizing i with
  | nil => cases h
  | cons x rest ih =>
    cases i with
    | zero =>
      obtain rfl := Option.some.inj h
      simp only [List.set_cons_zero, List.map_cons, List.sum_cons]
      omega
    | succ i =>
      have hrest := ih h
      simp only [List.set_cons_succ, List.map_cons, List.sum_cons]
      omega

theorem countP_eq_sum_map (p : α → Bool) (l : List α) :
    l.countP p = (l.map fun a => (p a).toNat).sum := by
  induction l with
  | nil => rfl
  | cons a rest ih =>
    rw [List.countP_cons, ih, List.map_cons, List.sum_cons, Nat.add_comm]
    cases p a <;> rfl

theorem countP_set_add {p : α → Bool} {i : Nat} {a : α} (h : l[i]? = some a) (b : α) :
    (l.set i b).countP p + (p a).toNat = l.countP p + (p b).toNat := by
  rw [countP_eq_sum_map, countP_eq_sum_map]
  exact sum_map_set_add h b

/-! ## Places -/

/-- If one thing only has a property, in a list or beside it, and it is in the list, then nothing
beside it has the property. -/
theorem eq_zero_of_countP_add {p : α → Bool} {n : Nat} (h : l.countP p + n = 1) {a : α}
    (hmem : a ∈ l) (ha : p a = true) : n = 0 := by
  have hpos : 0 < l.countP p := List.countP_pos_iff.2 ⟨a, hmem, ha⟩
  omega

/-- If at most one thing in a list has a property, it is in one place only. -/
theorem eq_of_countP_le_one {p : α → Bool} (h : l.countP p ≤ 1) {i j : Nat}
    {a b : α} (hi : l[i]? = some a) (ha : p a = true) (hj : l[j]? = some b) (hb : p b = true) :
    i = j := by
  induction l generalizing i j with
  | nil => cases hi
  | cons x rest ih =>
    rw [List.countP_cons] at h
    have hnone : ∀ {k y}, rest[k]? = some y → p y = true → 0 < rest.countP p := fun hk hy =>
      List.countP_pos_iff.2 ⟨_, List.mem_of_getElem? hk, hy⟩
    cases i with
    | zero =>
      cases j with
      | zero => rfl
      | succ j =>
        cases hi
        have := hnone hj hb
        rw [if_pos ha] at h
        omega
    | succ i =>
      cases j with
      | zero =>
        cases hj
        have := hnone hi ha
        rw [if_pos hb] at h
        omega
      | succ j => rw [ih (Nat.le_of_add_right_le h) hi hj]

/-- If fewer than `k` of a list lack a property that some have, one of the first `k` has it. -/
theorem exists_mem_take {q : α → Bool} {k : Nat}
    (hfew : (l.countP fun a => !q a) < k) (hsome : ∃ a ∈ l, q a = true) :
    ∃ a ∈ l.take k, q a = true := by
  by_contra hnone
  have hlack : ∀ a ∈ l.take k, (!q a) = true := by
    intro a ha
    rw [Bool.not_eq_true', ← Bool.not_eq_true]
    intro hq
    exact hnone ⟨a, ha, hq⟩
  have hall := List.countP_eq_length.2 hlack
  have hle := @List.Sublist.countP_le _ (fun a => !q a) _ _ (List.take_sublist k l)
  rw [hall, List.length_take] at hle
  -- the whole list is no longer than `k`
  have hshort : l.length ≤ k := by omega
  obtain ⟨a, ha, hq⟩ := hsome
  refine hnone ⟨a, ?_, hq⟩
  rwa [List.take_of_length_le hshort]

/-- A relation holds along a list if it holds between each element and everything before it. -/
theorem pairwise_of_split {P : α → α → Prop}
    (h : ∀ pre c post, l = pre ++ c :: post → ∀ b ∈ pre, P b c) : l.Pairwise P := by
  induction l with
  | nil => exact .nil
  | cons b rest ih =>
    refine List.pairwise_cons.2 ⟨fun c hc => ?_, ih fun pre c post hsplit d hd => ?_⟩
    · obtain ⟨pre, post, hsplit⟩ := List.append_of_mem hc
      exact h (b :: pre) c post (by rw [hsplit]; rfl) b List.mem_cons_self
    · exact h (b :: pre) c post (by rw [hsplit]; rfl) d (List.mem_cons_of_mem b hd)

/-! ## Repetitions -/

/-- Erasing repetitions depends only on how the elements of the list are compared. -/
theorem eraseDupsBy_congr {same same' : α → α → Bool}
    (h : ∀ a ∈ l, ∀ b ∈ l, same a b = same' a b) : l.eraseDupsBy same = l.eraseDupsBy same' := by
  induction hlength : l.length using Nat.strongRecOn generalizing l with
  | _ n ih =>
    cases l with
    | nil => rfl
    | cons a rest =>
      have hkept : (rest.filter fun b => decide (same b a = false)) =
          rest.filter fun b => decide (same' b a = false) := by
        refine List.filter_congr fun b hb => ?_
        rw [h b (List.mem_cons_of_mem a hb) a List.mem_cons_self]
      have hshorter : (rest.filter fun b => decide (same' b a = false)).length < n := by
        have := List.length_filter_le (fun b => decide (same' b a = false)) rest
        rw [List.length_cons] at hlength
        omega
      have hparts : ∀ b ∈ rest.filter fun b => decide (same' b a = false), b ∈ a :: rest :=
        fun b hb => List.mem_cons_of_mem a (List.mem_filter.1 hb).1
      rw [List.eraseDupsBy_cons, List.eraseDupsBy_cons, hkept,
        ih _ hshorter (fun b hb c hc => h b (hparts b hb) c (hparts c hc)) rfl]

theorem nodup_eraseDups [BEq α] [LawfulBEq α] (l : List α) : l.eraseDups.Nodup := by
  cases l with
  | nil => simp
  | cons a rest =>
    rw [List.eraseDups_cons, List.nodup_cons]
    refine ⟨by simp, nodup_eraseDups _⟩
termination_by l.length
decreasing_by
  rename_i h
  subst h
  exact Nat.lt_succ_of_le (List.length_filter_le _ _)

end Lists

end Matchmaking
