import Mathlib.Data.List.Forall2
import Matchmaking.Assembly.Exhaustive
import Matchmaking.Proofs.Buffers

/-!
# Combinations

The table of an outer ticket allows two candidates together only if they do not conflict. A pick
takes or skips every candidate, and takes one only if its row allows all that were taken before, so
that no two members of a pick conflict. Whatever is enumerated for an outer ticket is therefore made
of candidates without conflicts, and all of them accept its size.
-/

namespace Matchmaking.Exhaustive

open Greedy (entryCount clash)

/-! ## The table -/

/-- Whether a candidate can be together with each of the candidates after it: a row that says so is
right about conflicts. -/
abbrev RowSound (a : Pooled) (oks : List Bool) (others : List Pooled) : Prop :=
  List.Forall₂ (fun ok b => ok = true → conflict a b = false) oks others

/-- A table all of whose rows are right about conflicts. -/
def TableSound : List (Pooled × List Bool) → Prop
  | [] => True
  | (a, oks) :: rest => RowSound a oks (rest.map Prod.fst) ∧ TableSound rest

theorem rowSound_row (a : Pooled) (others : List Pooled) (r : Round) :
    RowSound a (row a others r).1 others := by
  induction others generalizing r with
  | nil => exact .nil
  | cons b rest ih =>
    unfold row
    refine .cons (fun hok => ?_) (ih _)
    cases hconflict : conflict a b with
    | false => rfl
    | true => simp [hconflict] at hok

/-- The table has a row for each candidate, and its rows are right. -/
theorem tableSound_rows (cs : List Pooled) (r : Round) :
    (rows cs r).1.map Prod.fst = cs ∧ TableSound (rows cs r).1 := by
  induction cs generalizing r with
  | nil => exact ⟨rfl, trivial⟩
  | cons a rest ih =>
    obtain ⟨hfst, hsound⟩ := ih (row a rest r).2
    unfold rows
    refine ⟨by rw [List.map_cons, hfst], ?_, hsound⟩
    rw [hfst]
    exact rowSound_row a rest r

/-! ## Picks -/

/-- How a pick is made: every candidate is skipped or taken. -/
inductive Picked : List Pooled → Pick → Prop
  /-- There is no candidate. -/
  | none : Picked [] .none
  /-- The first candidate is skipped. -/
  | skip {c : Pooled} {cs : List Pooled} {p : Pick} (h : Picked cs p) : Picked (c :: cs) p.skip
  /-- The first candidate is taken. -/
  | take {c : Pooled} {cs : List Pooled} {p : Pick} (h : Picked cs p) : Picked (c :: cs) (p.take c)

namespace Picked

variable {cs : List Pooled} {p : Pick}

theorem sublist (h : Picked cs p) : p.members.Sublist cs := by
  induction h with
  | none => exact .slnil
  | @skip c cs p h ih => exact ih.cons c
  | @take c cs p h ih => exact ih.cons_cons c

theorem count (h : Picked cs p) : p.count = entryCount p.members := by
  induction h with
  | none => rfl
  | skip h ih => exact ih
  | @take c cs p h ih => rw [Pick.take, Greedy.entryCount_cons, ih]

theorem conflict_of_allows (h : Picked cs p) {a : Pooled} {oks : List Bool}
    (hrow : RowSound a oks cs) (hallows : allows oks p.chosen = true) :
    ∀ m ∈ p.members, conflict a m = false := by
  induction h generalizing oks with
  | none => simp [Pick.none]
  | @skip c cs p h ih =>
    obtain ⟨_, hrest⟩ | ⟨hok, hrest⟩ := hrow
    rw [Pick.skip, allows, Bool.and_eq_true] at hallows
    exact ih hrest hallows.2
  | @take c cs p h ih =>
    obtain ⟨_, hrest⟩ | ⟨hok, hrest⟩ := hrow
    rw [Pick.take, allows, Bool.and_eq_true] at hallows
    intro m hm
    rcases List.mem_cons.1 hm with rfl | hm
    · exact hok (by simpa using hallows.1)
    · exact ih hrest hallows.2 m hm

end Picked

/-- A pick of a table is made of its candidates, and no two of its members conflict. -/
theorem picked_of_mem_picks {room : Nat} {table : List (Pooled × List Bool)} (ht : TableSound table)
    {p : Pick} (h : p ∈ picks room table) :
    Picked (table.map Prod.fst) p ∧ p.members.Pairwise fun a b => conflict a b = false := by
  induction table generalizing p with
  | nil =>
    rw [List.mem_singleton.1 h]
    exact ⟨.none, .nil⟩
  | cons e rest ih =>
    obtain ⟨c, oks⟩ := e
    obtain ⟨hrow, hrest⟩ := ht
    obtain ⟨q, hq, hp⟩ := List.mem_flatMap.1 h
    obtain ⟨hpicked, hpairwise⟩ := ih hrest hq
    -- the first candidate is taken only if its row allows all members of the pick so far
    split at hp
    · rename_i hcond
      rw [Bool.and_eq_true] at hcond
      rcases List.mem_cons.1 hp with rfl | hp
      · exact ⟨hpicked.skip, hpairwise⟩
      · rw [List.mem_singleton.1 hp]
        exact ⟨hpicked.take,
          List.pairwise_cons.2 ⟨hpicked.conflict_of_allows hrow hcond.1, hpairwise⟩⟩
    · rw [List.mem_singleton.1 hp]
      exact ⟨hpicked.skip, hpairwise⟩

/-! ## Groups -/

theorem clash_of_conflict {a b : Pooled} (h : conflict a b = false) : clash a b = false := by
  rw [conflict, Bool.or_eq_false_iff] at h
  exact h.1

/-- What is enumerated for an outer ticket: it is together with some of the candidates, none of whom
clash, and all of them accept the size. -/
theorem enumerate_spec {outer : Pooled} {cs : List Pooled} {last : Bool} {r : Round}
    {group : List Pooled} (h : group ∈ (enumerate outer cs last r).1) :
    ∃ others, group = outer :: others ∧ others ≠ [] ∧ others.Sublist cs ∧
      (others.Pairwise fun a b => clash a b = false) ∧
      ∀ m ∈ group, m.ticket.acceptsSize (entryCount group) = true := by
  obtain ⟨hfst, hsound⟩ := tableSound_rows cs r
  obtain ⟨p, hp, rfl⟩ := List.mem_map.1 h
  obtain ⟨hpick, hfits⟩ := List.mem_filter.1 hp
  obtain ⟨hpicked, hpairwise⟩ := picked_of_mem_picks hsound hpick
  rw [hfst] at hpicked
  simp only [fits, hpicked.count, Bool.and_eq_true, Bool.not_eq_true', List.isEmpty_eq_false_iff,
    List.all_eq_true] at hfits
  obtain ⟨⟨⟨hne, -⟩, houter⟩, hothers⟩ := hfits
  refine ⟨p.members, rfl, hne, hpicked.sublist, hpairwise.imp clash_of_conflict, fun m hm => ?_⟩
  rw [Greedy.entryCount_cons]
  rcases List.mem_cons.1 hm with rfl | hm
  · exact houter
  · exact hothers m hm

/-! ## What was found -/

theorem Found.mem_of_members? {f : Found} {key : List String} {members : List Pooled}
    (h : f.members? key = some members) : (key, members) ∈ f.latestFirst := by
  rw [Found.members?, f.getElem?_index] at h
  obtain ⟨before, after, hlist, -⟩ := List.lookup_eq_some_iff.1 h
  rw [hlist]
  exact List.mem_append_right before List.mem_cons_self

/-- Adding keeps what is true of all that was added. -/
theorem Found.forall_foldl_add {P : List Pooled → Prop} {added : List (List Pooled)} {f : Found}
    (hf : ∀ c ∈ f.latestFirst, P c.2) (ha : ∀ members ∈ added, P members) :
    ∀ c ∈ (added.foldl Found.add f).latestFirst, P c.2 := by
  induction added generalizing f with
  | nil => exact hf
  | cons members rest ih =>
    refine ih (fun c hc => ?_) fun m hm => ha m (List.mem_cons_of_mem members hm)
    unfold Found.add at hc
    simp only at hc
    split at hc
    · exact hf c hc
    · rcases List.mem_cons.1 hc with rfl | hc
      · exact ha members List.mem_cons_self
      · exact hf c hc

end Matchmaking.Exhaustive
