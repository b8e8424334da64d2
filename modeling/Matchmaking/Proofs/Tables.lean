import Mathlib.Data.List.Nodup
import Matchmaking.Table

/-!
# Tables of several pairs

If no key occurs twice, it does not matter in which order pairs are stored: the table of a list has
the pairs of the list, and every order of the pairs of a table gives this table.
-/

namespace Matchmaking.Table

variable {α β : Type} {l : List (String × α)} {k : String}

/-- Storing some values under different keys, one after the other, puts them before what was there.
-/
theorem get?_foldl_insert (f : α → β) (hkeys : (l.map Prod.fst).Nodup) (t : Table β) (k : String) :
    (l.foldl (fun t e => t.insert e.1 (f e.2)) t).get? k =
      ((l.lookup k).map f).or (t.get? k) := by
  induction l generalizing t with
  | nil => rfl
  | cons e rest ih =>
    obtain ⟨hfresh, hrest⟩ := List.nodup_cons.1 hkeys
    rw [List.foldl_cons, ih hrest, get?_insert, List.lookup_cons]
    by_cases hk : k = e.1
    · have hnone : rest.lookup k = none := by
        refine lookup_eq_none fun p hp hpk => hfresh ?_
        rw [← hk, ← hpk]
        exact List.mem_map_of_mem hp
      rw [hnone, if_pos hk, hk, beq_self_eq_true]
      rfl
    · rw [if_neg hk, beq_false_of_ne hk]

theorem get?_ofList (hkeys : (l.map Prod.fst).Nodup) (k : String) :
    (ofList l).get? k = l.lookup k := by
  have hget := get?_foldl_insert (fun x : α => x) hkeys empty k
  rw [get?_empty, Option.or_none, Option.map_id'] at hget
  exact hget

theorem lookup_eq_some_iff_mem (hkeys : (l.map Prod.fst).Nodup) {v : α} :
    l.lookup k = some v ↔ (k, v) ∈ l := by
  rw [List.lookup_eq_some_iff]
  constructor
  · rintro ⟨before, after, rfl, -⟩
    exact List.mem_append_right before List.mem_cons_self
  · intro h
    obtain ⟨before, after, rfl⟩ := List.append_of_mem h
    rw [List.map_append, List.nodup_append] at hkeys
    refine ⟨before, after, rfl, fun p hp => bne_iff_ne.2 fun heq => ?_⟩
    exact hkeys.2.2 p.1 (List.mem_map_of_mem hp) k (by simp) heq.symm

theorem mem_entries_ofList (hkeys : (l.map Prod.fst).Nodup) {p : String × α} :
    p ∈ (ofList l).entries ↔ p ∈ l := by
  rw [← get?_eq_some_iff, get?_ofList hkeys, lookup_eq_some_iff_mem hkeys]

theorem nodup_entries (t : Table α) : t.entries.Nodup := List.Nodup.of_map Prod.fst t.nodup_keys

theorem ofList_perm (hkeys : (l.map Prod.fst).Nodup) : (ofList l).entries.Perm l := by
  refine (List.perm_ext_iff_of_nodup (nodup_entries _) (List.Nodup.of_map Prod.fst hkeys)).2 ?_
  exact fun p => mem_entries_ofList hkeys

/-- Every order of the pairs of a table gives this table. -/
theorem ofList_of_perm {t : Table α} (h : l.Perm t.entries) : ofList l = t := by
  have hkeys : (l.map Prod.fst).Nodup := (h.map Prod.fst).nodup_iff.2 t.nodup_keys
  refine ext_get? fun k => Option.ext fun v => ?_
  rw [get?_eq_some_iff, get?_eq_some_iff, mem_entries_ofList hkeys]
  exact h.mem_iff

end Matchmaking.Table
