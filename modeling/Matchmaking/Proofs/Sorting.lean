import Mathlib.Data.List.Pairwise
import Mathlib.Data.List.Perm.Basic

/-!
# Stable sorting

Sorting leaves elements that are equal for its order as they stood. So if a list stands in some
order, sorting it by another one gives the order that asks first for the latter and then for the
former. A strict order of the elements is the only one that sorting can give. In a list that stands
in a strict order, the first `k` elements are those before which fewer than `k` come.
-/

namespace Matchmaking

section Sorting

variable {α : Type} {le : α → α → Bool} {l : List α}

/-- Sorting leaves elements in their order that are equal for the order by which it sorts. -/
theorem filter_mergeSort (htrans : ∀ a b c, le a b = true → le b c = true → le a c = true)
    (htotal : ∀ a b, (le a b || le b a) = true) (p : α → Bool)
    (hequal : ∀ a b, p a = true → p b = true → le a b = true) (l : List α) :
    (l.mergeSort le).filter p = l.filter p := by
  have hpairwise : (l.filter p).Pairwise fun a b => le a b = true := by
    apply List.pairwise_of_forall_mem_list
    intro a ha b hb
    exact hequal a b (List.mem_filter.1 ha).2 (List.mem_filter.1 hb).2
  have hsub : (l.filter p).Sublist (l.mergeSort le) :=
    List.sublist_mergeSort htrans htotal hpairwise List.filter_sublist
  have hinside := hsub.filter p
  rw [List.filter_filter] at hinside
  simp only [Bool.and_self] at hinside
  have hlength := ((List.mergeSort_perm l le).filter p).length_eq
  exact (hinside.eq_of_length hlength.symm).symm

/-- Of two elements in a sorted list, the first comes before the second in the order by which the
list was sorted, and if they are equal for it, it stood before the second. -/
theorem pairwise_mergeSort_of_pairwise
    (htrans : ∀ a b c, le a b = true → le b c = true → le a c = true)
    (htotal : ∀ a b, (le a b || le b a) = true) {R : α → α → Prop} (hl : l.Pairwise R) :
    (l.mergeSort le).Pairwise fun a b => le a b = true ∧ (le b a = true → R a b) := by
  have hsorted := List.pairwise_mergeSort htrans htotal l
  refine List.pairwise_iff_forall_sublist.2 fun {a b} hab => ?_
  have hle : le a b = true := List.pairwise_iff_forall_sublist.1 hsorted hab
  refine ⟨hle, fun hba => ?_⟩
  -- the elements that are equal to the first one stand as they stood
  have hself : le a a = true := by simpa using htotal a a
  have hclass := filter_mergeSort htrans htotal (fun x => le a x && le x a) (fun x y hx hy => by
    rw [Bool.and_eq_true] at hx hy
    exact htrans x a y hx.2 hy.1) l
  have hfiltered := hab.filter fun x => le a x && le x a
  rw [hclass] at hfiltered
  have hboth : [a, b].filter (fun x => le a x && le x a) = [a, b] := by simp [hself, hle, hba]
  rw [hboth] at hfiltered
  exact List.pairwise_iff_forall_sublist.1 hl (hfiltered.trans List.filter_sublist)

/-- Sorting gives the one order in which each element comes strictly before all later ones. -/
theorem mergeSort_eq_of_perm (htrans : ∀ a b c, le a b = true → le b c = true → le a c = true)
    (htotal : ∀ a b, (le a b || le b a) = true) {sorted : List α} (hperm : l.Perm sorted)
    (hstrict : sorted.Pairwise fun a b => le b a = false) : l.mergeSort le = sorted := by
  have hle : sorted.Pairwise fun a b => le a b = true := by
    refine hstrict.imp fun {a b} hba => ?_
    have hab := htotal a b
    rwa [hba, Bool.or_false] at hab
  have hsymm : Std.Symm fun a b : α => ¬(le a b = true ∧ le b a = true) :=
    ⟨fun a b hab hba => hab ⟨hba.2, hba.1⟩⟩
  have hone : sorted.Pairwise fun a b => ¬(le a b = true ∧ le b a = true) := by
    refine hstrict.imp fun {a b} hba h => ?_
    rw [hba] at h
    cases h.2
  have hsort := (List.mergeSort_perm l le).trans hperm
  refine List.Perm.eq_of_pairwise (fun a b ha hb hab hba => ?_)
    (List.pairwise_mergeSort htrans htotal l) hle hsort
  by_contra hne
  exact hone.forall (hsort.mem_iff.1 ha) hb hne ⟨hab, hba⟩

/-- In a list that stands in a strict order, the first `k` elements are those before which fewer
than `k` come. -/
theorem mem_take_iff_countP {R : α → α → Bool} (hasymm : ∀ a b, R a b = true → R b a = false)
    (hl : l.Pairwise fun a b => R a b = true) {k : Nat} {a : α} :
    a ∈ l.take k ↔ a ∈ l ∧ (l.countP fun b => R b a) < k := by
  have hirrefl : ∀ x, R x x = false := by
    intro x
    cases hx : R x x with
    | false => rfl
    | true => exact hx.symm.trans (hasymm x x hx)
  induction l generalizing k with
  | nil => simp
  | cons x rest ih =>
    obtain ⟨hfirst, hrest⟩ := List.pairwise_cons.1 hl
    cases k with
    | zero => simp
    | succ k =>
      have hcount : a ∈ rest →
          ((x :: rest).countP fun b => R b a) = (rest.countP fun b => R b a) + 1 := by
        intro hmem
        rw [List.countP_cons, if_pos (hfirst a hmem)]
      have hnext : a ∈ rest.take k ↔ a ∈ rest ∧ (rest.countP fun b => R b a) < k := ih hrest
      rw [List.take_succ_cons, List.mem_cons, List.mem_cons, hnext]
      constructor
      · rintro (rfl | ⟨hmem, hfew⟩)
        · -- nothing comes before the first element
          have hnone : ((a :: rest).countP fun b => R b a) = 0 := by
            refine List.countP_eq_zero.2 fun b hb => ?_
            rcases List.mem_cons.1 hb with rfl | hb
            · simp [hirrefl]
            · simp [hasymm a b (hfirst b hb)]
          exact ⟨.inl rfl, by omega⟩
        · exact ⟨.inr hmem, by rw [hcount hmem]; omega⟩
      · rintro ⟨rfl | hmem, hfew⟩
        · exact .inl rfl
        · rw [hcount hmem] at hfew
          exact .inr ⟨hmem, by omega⟩

end Sorting

end Matchmaking
