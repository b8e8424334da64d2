import Matchmaking.Proofs.Arithmetic
import Matchmaking.Proofs.Combinations

/-!
# Trying combinations in machine numbers

The combinations of an outer ticket as they are enumerated in machine numbers: for each candidate a
half word says with which others it can be together, and counting through all sets of candidates
each set is tested by its bits and its entries are added up. If there are fewer candidates than a
half word has bits, and they and the outer ticket have fewer than 2 ^ 63 entries altogether, no
operation leaves the machine numbers, and those combinations are found that are calculated exactly
(`Exhaustive.checkedEnumerate_eq`).
-/

namespace Matchmaking

namespace Exhaustive

open Machine
open Greedy (entryCount Bounded)

/-! ## What is calculated -/

/-- The pairs of the i-th candidate and those after it with whom it can be together; the first of
these is the j-th one. -/
def partners (i : Nat) : Nat → List Bool → List (Nat × Nat)
  | _, [] => []
  | j, ok :: oks => if ok then (i, j) :: partners i (j + 1) oks else partners i (j + 1) oks

/-- The pairs of candidates that can be together; the first row is that of the i-th candidate. -/
def pairs : Nat → List (Pooled × List Bool) → List (Nat × Nat)
  | _, [] => []
  | i, (_, oks) :: rest => partners i (i + 1) oks ++ pairs (i + 1) rest

/-- Notes of two candidates that each can be together with the other one. -/
def note (sets : List Nat) (pair : Nat × Nat) : Option (List Nat) := do
  let other ← bit? pair.2
  let one ← bit? pair.1
  return (sets.modify pair.1 (· ||| other)).modify pair.2 (· ||| one)

/-- The size of a group with the candidates of a set, added up from a size, unless one of them
cannot be together with the others; the first candidate is the i-th one. -/
def checkedSum (sets : List Nat) (mask : Nat) : Nat → List Pooled → Nat → Option (Option Nat)
  | _, [], size => some (some size)
  | i, c :: rest, size => do
    if ← has? mask i then
      let bit ← bit? i
      let others := mask.ldiff bit
      if sets.getD i 0 &&& others = others then
        let size ← add? size c.ticket.count
        checkedSum sets mask (i + 1) rest size
      else return none
    else checkedSum sets mask (i + 1) rest size

/-- The group of an outer ticket and the candidates of a set, if they can form one. -/
def checkedGroup (outer : Pooled) (last : Bool) (candidates : List Pooled) (sets : List Nat)
    (mask : Nat) : Option (Option (List Pooled)) := do
  match ← checkedSum sets mask 0 candidates outer.ticket.count with
  | none => return none
  | some size =>
    if outer.ticket.maxCount < size || !last && size != outer.ticket.maxCount then return none
    else if ← outer.ticket.checkedAcceptsSize size then
      let members ← pick? mask 0 candidates
      if ← members.allM fun m => m.ticket.checkedAcceptsSize size then
        return some (outer :: members)
      else return none
    else return none

/-- All groups that an outer ticket can form with some of its candidates: one more than the greatest
set is a bit of a half word, and each set of some of them is tested. -/
def checkedEnumerate (outer : Pooled) (candidates : List Pooled) (last : Bool) (r : Round) :
    Option (List (List Pooled) × Round) := do
  let (table, r) := rows candidates r
  let sets ← (pairs 0 table).foldlM note (List.replicate candidates.length 0)
  let limit ← bit? candidates.length
  let found ← (List.range' 1 (limit - 1)).mapM (checkedGroup outer last candidates sets)
  return (found.filterMap id, r)

variable {outer : Pooled} {last : Bool} {candidates cs : List Pooled} {oks : List Bool}
  {table : List (Pooled × List Bool)} {sets : List Nat} {a b i j k mask room size total : Nat}

/-! ## Pairs -/

theorem mem_partners_iff :
    (a, b) ∈ partners i j oks ↔ a = i ∧ ∃ l, b = j + l ∧ oks[l]? = some true := by
  induction oks generalizing j with
  | nil => simp [partners]
  | cons ok oks ih =>
    have hsplit : (∃ l, b = j + l ∧ (ok :: oks)[l]? = some true) ↔
        b = j ∧ ok = true ∨ ∃ l, b = j + 1 + l ∧ oks[l]? = some true := by
      constructor
      · rintro ⟨l, hb, hok⟩
        cases l with
        | zero => exact .inl ⟨hb, Option.some.inj hok⟩
        | succ l => exact .inr ⟨l, by omega, hok⟩
      · rintro (⟨hb, hok⟩ | ⟨l, hb, hok⟩)
        · exact ⟨0, hb, congrArg some hok⟩
        · exact ⟨l + 1, by omega, hok⟩
    rw [partners, hsplit]
    split
    · rename_i hok
      rw [List.mem_cons, ih, Prod.mk.injEq]
      simp only [hok, and_true]
      tauto
    · rename_i hok
      rw [ih, or_iff_right fun h => hok h.2]

/-- In a pair the earlier candidate comes first. -/
theorem bounds_of_mem_pairs (ht : TableSound table) (h : (a, b) ∈ pairs i table) :
    i ≤ a ∧ a < b ∧ b < i + table.length := by
  induction table generalizing i with
  | nil => cases h
  | cons row rest ih =>
    obtain ⟨c, oks⟩ := row
    obtain ⟨hrow, hrest⟩ := ht
    have hlength := hrow.length_eq
    rw [List.length_map] at hlength
    rw [List.length_cons]
    rcases List.mem_append.1 h with h | h
    · obtain ⟨rfl, l, rfl, hok⟩ := mem_partners_iff.1 h
      have hl := (List.getElem?_eq_some_iff.1 hok).1
      omega
    · have := ih hrest h
      omega

/-! ## Sets of candidates that can be together -/

/-- What is noted of two candidates. -/
def noted (sets : List Nat) (pair : Nat × Nat) : List Nat :=
  (sets.modify pair.1 (· ||| 2 ^ pair.2)).modify pair.2 (· ||| 2 ^ pair.1)

theorem length_noted (sets : List Nat) (pair : Nat × Nat) :
    (noted sets pair).length = sets.length := by
  rw [noted, List.length_modify, List.length_modify]

theorem note_eq (ha : a < 32) (hb : b < 32) : note sets (a, b) = some (noted sets (a, b)) := by
  rw [note, bit?_eq hb, bit?_eq ha]
  rfl

theorem testBit_modify_or (sets : List Nat) (hi : i < sets.length) :
    ((sets.modify i (· ||| 2 ^ j)).getD a 0).testBit b = true ↔
      (sets.getD a 0).testBit b = true ∨ a = i ∧ b = j := by
  rw [List.getD_eq_getElem?_getD, List.getD_eq_getElem?_getD, List.getElem?_modify]
  by_cases ha : i = a
  · subst ha
    rw [List.getElem?_eq_getElem hi]
    simp [Nat.testBit_or, Nat.testBit_two_pow, @eq_comm _ b j]
  · have ha' : a ≠ i := fun h => ha h.symm
    simp [ha, ha']

theorem testBit_noted (hi : i < sets.length) (hj : j < sets.length) :
    ((noted sets (i, j)).getD a 0).testBit b = true ↔
      (sets.getD a 0).testBit b = true ∨ (a, b) = (i, j) ∨ (b, a) = (i, j) := by
  have hj' : j < (sets.modify i (· ||| 2 ^ j)).length := by rwa [List.length_modify]
  rw [noted, testBit_modify_or _ hj', testBit_modify_or _ hi, Prod.mk.injEq, Prod.mk.injEq]
  tauto

/-- Two candidates are noted if they are among the pairs, in either order. -/
theorem testBit_foldl_noted {ps : List (Nat × Nat)}
    (hps : ∀ p ∈ ps, p.1 < sets.length ∧ p.2 < sets.length) :
    ((ps.foldl noted sets).getD a 0).testBit b = true ↔
      (sets.getD a 0).testBit b = true ∨ (a, b) ∈ ps ∨ (b, a) ∈ ps := by
  induction ps generalizing sets with
  | nil => simp
  | cons p rest ih =>
    obtain ⟨⟨hi, hj⟩, hrest⟩ := List.forall_mem_cons.1 hps
    rw [List.foldl_cons, ih (by rw [length_noted]; exact hrest), testBit_noted hi hj,
      List.mem_cons, List.mem_cons]
    tauto

theorem and_eq_right_iff (m n : Nat) :
    m &&& n = n ↔ ∀ k, n.testBit k = true → m.testBit k = true := by
  constructor
  · intro h k hk
    have hbit := congrArg (fun n : Nat => n.testBit k) h
    simp only [Nat.testBit_and, hk, Bool.and_true] at hbit
    exact hbit
  · intro h
    refine Nat.eq_of_testBit_eq fun k => ?_
    rw [Nat.testBit_and]
    cases hk : n.testBit k with
    | false => exact Bool.and_false _
    | true => rw [h k hk, Bool.and_true]

/-- Whether the i-th candidate, if it is in a set, can be together with the others. -/
def fitsAt (sets : List Nat) (mask i : Nat) : Bool :=
  !mask.testBit i || sets.getD i 0 &&& mask.ldiff (2 ^ i) == mask.ldiff (2 ^ i)

theorem fitsAt_iff : fitsAt sets mask i = true ↔ (mask.testBit i = true →
    ∀ j, j ≠ i → mask.testBit j = true → (sets.getD i 0).testBit j = true) := by
  rw [fitsAt, Bool.or_eq_true, Bool.not_eq_true', beq_iff_eq, and_eq_right_iff]
  simp only [Nat.testBit_ldiff, Nat.testBit_two_pow, Bool.and_eq_true, Bool.not_eq_true',
    decide_eq_false_iff_not]
  cases mask.testBit i with
  | false => simp
  | true =>
    simp only [Bool.true_eq_false, false_or, true_implies]
    exact ⟨fun h j hne hj => h j ⟨hj, hne.symm⟩, fun h j hj => h j (fun e => hj.2 e.symm) hj.1⟩

theorem checkedSum_eq (hlength : i + cs.length ≤ 32)
    (hsize : size + entryCount (pick (mask / 2 ^ i) cs) < 2 ^ 64) :
    checkedSum sets mask i cs size =
      some (if (List.range' i cs.length).all (fitsAt sets mask)
        then some (size + entryCount (pick (mask / 2 ^ i) cs)) else none) := by
  induction cs generalizing i size with
  | nil => rfl
  | cons c rest ih =>
    rw [List.length_cons] at hlength ⊢
    rw [pick, testBit_zero_div_two_pow, half_div_two_pow] at hsize ⊢
    rw [checkedSum, has?_eq (by omega), List.range'_succ, List.all_cons]
    simp only [Option.bind_eq_bind, Option.bind_some]
    cases hchosen : mask.testBit i with
    | false =>
      rw [hchosen] at hsize
      simp only [Bool.false_eq_true, if_false] at hsize ⊢
      rw [ih (by omega) hsize, fitsAt, hchosen]
      rfl
    | true =>
      rw [hchosen] at hsize
      simp only [if_true, Greedy.entryCount_cons] at hsize ⊢
      rw [bit?_eq (by omega), fitsAt, hchosen]
      simp only [Option.bind_some, Bool.not_true, Bool.false_or]
      by_cases hfits : sets.getD i 0 &&& mask.ldiff (2 ^ i) = mask.ldiff (2 ^ i)
      · rw [if_pos hfits, beq_iff_eq.2 hfits, add?_eq (by omega), Bool.true_and]
        simp only [Option.bind_some]
        rw [ih (by omega) (by omega), Nat.add_assoc]
      · rw [if_neg hfits, beq_eq_false_iff_ne.2 hfits]
        rfl

/-! ## Picks -/

/-- The pick that takes the candidates of a set; the first one has the lowest bit. -/
def pickOf : Nat → List (Pooled × List Bool) → Pick
  | _, [] => .none
  | mask, (c, _) :: rest =>
    if mask.testBit 0 then (pickOf (mask / 2) rest).take c else (pickOf (mask / 2) rest).skip

/-- Whether every candidate of a set can be together with those after it. -/
def agrees : Nat → List (Pooled × List Bool) → Bool
  | _, [] => true
  | mask, (_, oks) :: rest =>
    (!mask.testBit 0 || allows oks (pickOf (mask / 2) rest).chosen) && agrees (mask / 2) rest

theorem members_pickOf (mask : Nat) (table : List (Pooled × List Bool)) :
    (pickOf mask table).members = pick mask (table.map Prod.fst) := by
  induction table generalizing mask with
  | nil => rfl
  | cons row rest ih =>
    rw [pickOf, List.map_cons, pick, ← ih]
    split <;> rfl

theorem count_pickOf (mask : Nat) (table : List (Pooled × List Bool)) :
    (pickOf mask table).count = entryCount (pickOf mask table).members := by
  induction table generalizing mask with
  | nil => rfl
  | cons row rest ih =>
    rw [pickOf]
    split
    · rw [Pick.take, Greedy.entryCount_cons, ih]
    · exact ih _

theorem getElem?_chosen_pickOf (mask : Nat) (table : List (Pooled × List Bool)) (j : Nat) :
    (pickOf mask table).chosen[j]? = if j < table.length then some (mask.testBit j) else none := by
  induction table generalizing mask j with
  | nil => rfl
  | cons row rest ih =>
    have hnext : ∀ l, mask.testBit (l + 1) = (mask / 2).testBit l := Nat.testBit_add_one mask
    rw [pickOf, List.length_cons]
    cases j with
    | zero =>
      rw [if_pos (Nat.succ_pos _)]
      split
      · rename_i hbit
        exact congrArg some hbit.symm
      · rename_i hbit
        exact congrArg some (Bool.eq_false_iff.2 hbit).symm
    | succ j =>
      simp only [Nat.add_lt_add_iff_right, hnext, ← ih]
      split <;> rfl

theorem allows_iff {chosen : List Bool} (h : oks.length = chosen.length) :
    allows oks chosen = true ↔ ∀ j : Nat, chosen[j]? = some true → oks[j]? = some true := by
  induction oks generalizing chosen with
  | nil =>
    rw [List.eq_nil_of_length_eq_zero h.symm]
    simp [allows]
  | cons ok oks ih =>
    obtain ⟨c, chosen, rfl⟩ := List.exists_cons_of_length_eq_add_one h.symm
    rw [allows, Bool.and_eq_true, ih (by simpa using h)]
    constructor
    · rintro ⟨hfirst, hrest⟩ j hj
      cases j with
      | zero =>
        rw [Option.some.inj hj, Bool.not_true, Bool.or_false] at hfirst
        exact congrArg some hfirst
      | succ j => exact hrest j hj
    · refine fun hall => ⟨?_, fun j hj => hall (j + 1) hj⟩
      cases c with
      | false => rw [Bool.not_false, Bool.or_true]
      | true => rw [Option.some.inj (hall 0 rfl), Bool.true_or]

theorem length_chosen_pickOf (mask : Nat) (table : List (Pooled × List Bool)) :
    (pickOf mask table).chosen.length = table.length := by
  induction table generalizing mask with
  | nil => rfl
  | cons row rest ih =>
    rw [pickOf, List.length_cons, ← ih (mask / 2)]
    split <;> rfl

/-- A pair is the first candidate and a partner of it, or it is a pair of the others. -/
theorem mem_pairs_cons_iff {c : Pooled} {rest : List (Pooled × List Bool)}
    (ht : TableSound rest) : (i + a, i + b) ∈ pairs i ((c, oks) :: rest) ↔
      (a = 0 ∧ ∃ l, b = l + 1 ∧ oks[l]? = some true) ∨
        ∃ a' b', a = a' + 1 ∧ b = b' + 1 ∧ (i + 1 + a', i + 1 + b') ∈ pairs (i + 1) rest := by
  rw [pairs, List.mem_append, mem_partners_iff]
  constructor
  · rintro (⟨ha, l, hb, hok⟩ | h)
    · exact .inl ⟨by omega, l, by omega, hok⟩
    · obtain ⟨hi, hlt, -⟩ := bounds_of_mem_pairs ht h
      have ha' : i + 1 + (a - 1) = i + a := by omega
      have hb' : i + 1 + (b - 1) = i + b := by omega
      refine .inr ⟨a - 1, b - 1, by omega, by omega, ?_⟩
      rwa [ha', hb']
  · rintro (⟨ha, l, hb, hok⟩ | ⟨a', b', rfl, rfl, h⟩)
    · exact .inl ⟨by omega, l, by omega, hok⟩
    · rw [Nat.add_assoc, Nat.add_assoc, Nat.add_comm 1, Nat.add_comm 1] at h
      exact .inr h

/-- Every candidate of a set can be together with those after it if any two of them are a pair. -/
theorem agrees_iff (ht : TableSound table) (mask i : Nat) : agrees mask table = true ↔
    ∀ a b, a < b → b < table.length → mask.testBit a = true → mask.testBit b = true →
      (i + a, i + b) ∈ pairs i table := by
  induction table generalizing mask i with
  | nil => simp [agrees]
  | cons row rest ih =>
    obtain ⟨c, oks⟩ := row
    obtain ⟨hrow, hrest⟩ := ht
    have hlength := hrow.length_eq
    rw [List.length_map] at hlength
    have hnext : ∀ l, mask.testBit (l + 1) = (mask / 2).testBit l := Nat.testBit_add_one mask
    rw [agrees, Bool.and_eq_true, ih hrest (mask / 2) (i + 1), Bool.or_eq_true, Bool.not_eq_true',
      allows_iff (hlength.trans (length_chosen_pickOf (mask / 2) rest).symm), List.length_cons]
    simp only [getElem?_chosen_pickOf, mem_pairs_cons_iff hrest]
    constructor
    · rintro ⟨hfirst, hothers⟩ a b hab hb hma hmb
      obtain ⟨b, rfl⟩ := Nat.exists_eq_succ_of_ne_zero (Nat.ne_zero_of_lt hab)
      rw [Nat.succ_eq_add_one, hnext] at hmb
      cases a with
      | zero =>
        rw [hma] at hfirst
        have hallowed := hfirst.resolve_left (by decide) b (by rw [if_pos (by omega), hmb])
        exact .inl ⟨rfl, b, rfl, hallowed⟩
      | succ a =>
        rw [hnext] at hma
        exact .inr ⟨a, b, rfl, rfl, hothers a b (by omega) (by omega) hma hmb⟩
    · intro hall
      constructor
      · cases hfirst : mask.testBit 0 with
        | false => exact .inl rfl
        | true =>
          refine .inr fun j hj => ?_
          split at hj
          · rename_i hlt
            have hbit := Option.some.inj hj
            rw [← hnext] at hbit
            obtain ⟨-, l, hl, hok⟩ | ⟨a, -, ha, -⟩ :=
              hall 0 (j + 1) (by omega) (by omega) hfirst hbit
            · rwa [Nat.succ.inj hl]
            · omega
          · cases hj
      · intro a b hab hb hma hmb
        rw [← hnext] at hma hmb
        obtain ⟨ha, -⟩ | ⟨a', b', ha, hb', hpair⟩ :=
          hall (a + 1) (b + 1) (by omega) (by omega) hma hmb
        · omega
        · rwa [Nat.succ.inj ha, Nat.succ.inj hb']

/-- The sets that are noted agree with the table. -/
theorem all_fitsAt_iff (ht : TableSound table) (hsets : sets.length = table.length)
    (hzero : ∀ a b, (sets.getD a 0).testBit b = false) (hmask : mask < 2 ^ table.length) :
    (List.range' 0 table.length).all (fitsAt ((pairs 0 table).foldl noted sets) mask) =
      agrees mask table := by
  have hpairs : ∀ p ∈ pairs 0 table, p.1 < sets.length ∧ p.2 < sets.length := by
    rintro ⟨a, b⟩ hp
    have := bounds_of_mem_pairs ht hp
    rw [hsets]
    omega
  have hbound : ∀ j, mask.testBit j = true → j < table.length := by
    intro j hj
    by_contra hge
    rw [Nat.testBit_lt_two_pow (hmask.trans_le (Nat.pow_le_pow_right (by decide)
      (Nat.not_lt.1 hge)))] at hj
    cases hj
  rw [Bool.eq_iff_iff, List.all_eq_true, agrees_iff ht mask 0]
  simp only [fitsAt_iff, testBit_foldl_noted hpairs, hzero, Bool.false_eq_true, false_or,
    Nat.zero_add]
  constructor
  · intro hall a b hab hb hma hmb
    rcases hall a (by simp; omega) hma b hab.ne' hmb with hpair | hpair
    · exact hpair
    · have := bounds_of_mem_pairs ht hpair
      omega
  · intro hall a ha hma b hne hmb
    rcases Nat.lt_or_gt_of_ne hne with hlt | hgt
    · exact .inr (hall b a hlt (hbound a hma) hmb hma)
    · exact .inl (hall a b hgt (hbound b hmb) hma hmb)

section

variable (c : Pooled) (oks : List Bool) (rest : List (Pooled × List Bool)) (mask : Nat)

theorem pickOf_two_mul : pickOf (2 * mask) ((c, oks) :: rest) = (pickOf mask rest).skip := by
  rw [pickOf, testBit_two_mul, if_neg Bool.false_ne_true, Nat.mul_div_cancel_left mask (by decide)]

theorem pickOf_two_mul_add_one :
    pickOf (2 * mask + 1) ((c, oks) :: rest) = (pickOf mask rest).take c := by
  rw [pickOf, testBit_two_mul_add_one, if_pos rfl, half_two_mul_add_one]

theorem agrees_two_mul : agrees (2 * mask) ((c, oks) :: rest) = agrees mask rest := by
  rw [agrees, testBit_two_mul, Nat.mul_div_cancel_left mask (by decide)]
  rfl

theorem agrees_two_mul_add_one : agrees (2 * mask + 1) ((c, oks) :: rest) =
    (allows oks (pickOf mask rest).chosen && agrees mask rest) := by
  rw [agrees, testBit_two_mul_add_one, half_two_mul_add_one]
  rfl

end

/-- The picks are the sets of candidates that can be together and have at most as many entries as
there is room, counting up. -/
theorem picks_eq_map (room : Nat) (table : List (Pooled × List Bool)) : picks room table =
    ((List.range (2 ^ table.length)).filter fun mask =>
      agrees mask table && (pickOf mask table).count ≤ room).map (pickOf · table) := by
  induction table with
  | nil => rfl
  | cons row rest ih =>
    obtain ⟨c, oks⟩ := row
    rw [picks, ih, List.length_cons, range_two_pow_succ, List.filter_flatMap, List.map_flatMap]
    generalize List.range (2 ^ rest.length) = masks
    induction masks with
    | nil => rfl
    | cons mask masks ih =>
      have hskip : (pickOf mask rest).skip.count = (pickOf mask rest).count := rfl
      have htake : ((pickOf mask rest).take c).count =
          c.ticket.count + (pickOf mask rest).count := rfl
      rw [List.flatMap_cons, ← ih, List.filter_cons, List.filter_cons, List.filter_cons,
        agrees_two_mul, agrees_two_mul_add_one, pickOf_two_mul, pickOf_two_mul_add_one, hskip,
        htake]
      -- what has no room has none with one more
      cases agrees mask rest with
      | false => simp
      | true =>
        by_cases hroom : (pickOf mask rest).count ≤ room
        · by_cases hmore : c.ticket.count + (pickOf mask rest).count ≤ room
          · cases hallows : allows oks (pickOf mask rest).chosen <;>
              simp [hroom, hmore, hallows, pickOf_two_mul, pickOf_two_mul_add_one]
          · simp [hroom, hmore, pickOf_two_mul]
        · have hmore : ¬ c.ticket.count + (pickOf mask rest).count ≤ room := by omega
          simp [hroom, hmore]

/-! ## Combinations -/

/-- The group of an outer ticket and the candidates of a set, if they can form one. -/
def groupOf (outer : Pooled) (last : Bool) (table : List (Pooled × List Bool)) (mask : Nat) :
    Option (List Pooled) :=
  let p := pickOf mask table
  if agrees mask table && fits outer last p.members p.count then some (outer :: p.members)
  else none

/-- What is larger than the outer ticket accepts is refused at once, and otherwise by its test. -/
theorem fits_eq (outer : Pooled) (last : Bool) {members : List Pooled} (hne : members ≠ [])
    (count : Nat) : fits outer last members count =
      (!(decide (outer.ticket.maxCount < outer.ticket.count + count) ||
          !last && outer.ticket.count + count != outer.ticket.maxCount) &&
        (outer.ticket.acceptsSize (outer.ticket.count + count) &&
          members.all fun m => m.ticket.acceptsSize (outer.ticket.count + count))) := by
  have hfew : members.isEmpty = false := List.isEmpty_eq_false_iff.2 hne
  simp only [fits, hfew, bne]
  by_cases hlarge : outer.ticket.maxCount < outer.ticket.count + count
  · have hrefused : outer.ticket.acceptsSize (outer.ticket.count + count) = false := by
      refine Bool.eq_false_iff.2 fun haccepts => ?_
      have := (Ticket.acceptsSize_iff.1 haccepts).2.1
      omega
    rw [hrefused, decide_eq_true hlarge, Bool.and_false]
    rfl
  · rw [decide_eq_false hlarge]
    cases last <;> cases outer.ticket.count + count == outer.ticket.maxCount <;> simp

theorem checkedGroup_eq (hagrees : (List.range' 0 candidates.length).all (fitsAt sets mask) =
      agrees mask table) (htable : table.map Prod.fst = candidates)
    (hlength : candidates.length ≤ 32) (hne : pick mask candidates ≠ [])
    (hsize : outer.ticket.count + entryCount (pick mask candidates) < 2 ^ 64) (last : Bool) :
    checkedGroup outer last candidates sets mask = some (groupOf outer last table mask) := by
  have hmask : mask / 2 ^ 0 = mask := by rw [Nat.pow_zero, Nat.div_one]
  have hsum : checkedSum sets mask 0 candidates outer.ticket.count = some (if agrees mask table
      then some (outer.ticket.count + entryCount (pick mask candidates)) else none) := by
    rw [checkedSum_eq (by omega) (by rwa [hmask]), hmask, hagrees]
  have hpick : pick? mask 0 candidates = some (pick mask candidates) := pick?_zero_eq hlength
  have hall := allM_eq_some (l := pick mask candidates) fun m _ => m.ticket.checkedAcceptsSize_eq
    (outer.ticket.count + entryCount (pick mask candidates))
  rw [checkedGroup, hsum, groupOf, count_pickOf, members_pickOf, htable, fits_eq outer last hne]
  cases agrees mask table with
  | false => rfl
  | true =>
    simp only [if_true, Bool.true_and, Option.bind_eq_bind, Option.bind_some,
      outer.ticket.checkedAcceptsSize_eq, hpick, hall]
    cases decide (outer.ticket.maxCount < outer.ticket.count + entryCount (pick mask candidates)) ||
        !last && outer.ticket.count + entryCount (pick mask candidates) != outer.ticket.maxCount <;>
      cases outer.ticket.acceptsSize
        (outer.ticket.count + entryCount (pick mask candidates)) <;>
      cases (pick mask candidates).all fun m =>
        m.ticket.acceptsSize (outer.ticket.count + entryCount (pick mask candidates)) <;> rfl

/-- The groups that are enumerated are those of the sets with some candidate, counting up. -/
theorem enumerate_eq_filterMap (hfew : candidates.length < tooMany) (outer : Pooled) (last : Bool)
    (r : Round) : enumerate outer candidates last r =
      ((List.range' 1 (2 ^ candidates.length - 1)).filterMap
        (groupOf outer last (rows candidates r).1), (rows candidates r).2) := by
  have hcandidates := (tableSound_rows candidates r).1
  have hlength : (rows candidates r).1.length = candidates.length :=
    (List.length_map _).symm.trans (congrArg List.length hcandidates)
  unfold enumerate
  generalize rows candidates r = result at hcandidates hlength ⊢
  obtain ⟨table, r₁⟩ := result
  simp only [if_pos hfew] at hcandidates hlength ⊢
  refine congrArg (·, r₁) ?_
  have hzero : groupOf outer last table 0 = none := by
    rw [groupOf, members_pickOf, hcandidates, pick_zero]
    simp [fits]
  have hcons : (List.range' 1 (2 ^ candidates.length - 1)).filterMap (groupOf outer last table) =
      (List.range (2 ^ candidates.length)).filterMap (groupOf outer last table) := by
    rw [range_two_pow_eq_cons, List.filterMap_cons, hzero]
  rw [hcons, picks_eq_map, hlength]
  generalize List.range (2 ^ candidates.length) = masks
  induction masks with
  | nil => rfl
  | cons mask masks ih =>
    -- what everybody accepts has room
    have hroom : fits outer last (pickOf mask table).members (pickOf mask table).count = true →
        (pickOf mask table).count ≤ outer.ticket.maxCount - outer.ticket.count := by
      intro h
      simp only [fits, Bool.and_eq_true] at h
      have := (Ticket.acceptsSize_iff.1 h.1.2).2.1
      omega
    rw [List.filterMap_cons, ← ih, groupOf, List.filter_cons]
    cases hagrees : agrees mask table with
    | false => simp
    | true =>
      cases hfits : fits outer last (pickOf mask table).members (pickOf mask table).count with
      | false =>
        by_cases hsmall : (pickOf mask table).count ≤ outer.ticket.maxCount - outer.ticket.count
        · simp [hsmall, hfits]
        · simp [hsmall]
      | true => simp [hroom hfits, hfits]

/-- The combinations of fewer candidates than a half word has bits are enumerated in machine
numbers. -/
theorem checkedEnumerate_eq (houter : outer.ticket.count + total < 2 ^ 63)
    (h : Bounded total candidates) (hlength : candidates.length < 32) (last : Bool) (r : Round) :
    checkedEnumerate outer candidates last r = some (enumerate outer candidates last r) := by
  obtain ⟨hcandidates, hsound⟩ := tableSound_rows candidates r
  have htable : (rows candidates r).1.length = candidates.length :=
    (List.length_map _).symm.trans (congrArg List.length hcandidates)
  rw [checkedEnumerate, enumerate_eq_filterMap hlength]
  generalize rows candidates r = result at hcandidates hsound htable ⊢
  obtain ⟨table, r₁⟩ := result
  simp only at hcandidates hsound htable ⊢
  have hsets : (pairs 0 table).foldlM note (List.replicate candidates.length 0) =
      some ((pairs 0 table).foldl noted (List.replicate candidates.length 0)) := by
    refine foldlM_eq_some (P := fun _ => True) trivial fun sets _ p hp => ⟨?_, trivial⟩
    have := bounds_of_mem_pairs hsound hp
    exact note_eq (by omega) (by omega)
  have hfound := mapM_eq_some (l := List.range' 1 (2 ^ candidates.length - 1))
    (f := checkedGroup outer last candidates
      ((pairs 0 table).foldl noted (List.replicate candidates.length 0)))
    (g := groupOf outer last table) fun mask hmask => by
      rw [List.mem_range'_1] at hmask
      have hentries := (h.sublist (pick_sublist mask candidates)).entries
      have hne : pick mask candidates ≠ [] := pick_ne_nil (by omega) (by omega)
      refine checkedGroup_eq ?_ hcandidates (by omega) hne (by omega) last
      rw [← htable]
      refine all_fitsAt_iff hsound (by rw [List.length_replicate]) (fun a b => ?_)
        (by rw [htable]; omega)
      rw [List.getD_eq_getElem?_getD, List.getElem?_replicate]
      split <;> exact Nat.zero_testBit b
  simp only [Option.bind_eq_bind, hsets, bit?_eq hlength, Option.bind_some, hfound,
    List.filterMap_map]
  rfl

end Exhaustive

end Matchmaking
