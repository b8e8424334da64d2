import Mathlib.Data.List.Sublists
import Matchmaking.Proofs.Masks
import Matchmaking.Proofs.Plans

/-!
# Plans in machine numbers

The plans for surplus entries as they are made in machine numbers: the members that go for an excess
are found by counting through all sets of those that may go, with their entries, their milliseconds
and their number added up for each set, and the excesses are reached one after the other. As long as
a group has fewer than 2 ^ 63 entries no operation leaves the machine numbers, and the plans are
those that are calculated exactly (`checkedPlans_eq`).
-/

namespace Matchmaking

namespace Surplus

open Machine

variable {members : List Member} {es : Places} {size multiple floor target excess mask : Nat}

/-! ## Choices -/

/-- The choice of the members of a set. -/
def checkedChoice (es : Places) (mask : Nat) : Option Choice := do
  let chosen ← pick? mask 0 es
  let count ← sum? 0 (chosen.map fun m => m.2.count)
  let created ← wideSum? 0 (chosen.map fun m => m.2.createdMillis)
  return ⟨chosen.map Prod.fst, count, created⟩

/-- Whether a choice is better than another one; the averages are compared by products of 128
bits. -/
def checkedBetter (a b : Choice) : Option Bool := do
  let picked ← length? a.members
  let others ← length? b.members
  let mine ← mulWide? a.created others
  let other ← mulWide? b.created picked
  return decide (other < mine) || (mine == other && picked < others)

/-- The better one of what was found so far and a set, if the set has as many entries as are to
go. -/
def checkedStep (es : Places) (target : Nat) (found : Option Choice) (mask : Nat) :
    Option (Option Choice) := do
  let c ← checkedChoice es mask
  if c.count = target then
    match found with
    | none => return some c
    | some b => return some (if ← checkedBetter c b then c else b)
  else return found

/-- The members to go for an excess, if some of them add up to it. -/
def checkedBestSubset (members : List Member) (target : Nat) : Option (Option (List Nat)) := do
  let es := eligible members target
  let limit ← bit? es.length
  let found ← (List.range' 1 (limit - 1)).foldlM (checkedStep es target) none
  return found.map fun c => c.members.mergeSort

/-- The sums over a list of members, and over parts of it, are machine numbers. -/
structure Countable (es : Places) : Prop where
  length : es.length ≤ 16
  entries : (es.map fun m => m.2.count).sum < 2 ^ 64
  millis : ∀ m ∈ es, IsMillis m.2.createdMillis

theorem Countable.sublist {part : Places} (h : Countable es) (hsub : part.Sublist es) :
    Countable part where
  length := hsub.length_le.trans h.length
  entries := ((hsub.map _).sum_le_sum fun _ _ => Nat.zero_le _).trans_lt h.entries
  millis m hm := h.millis m (hsub.subset hm)

theorem Countable.pick (h : Countable es) (mask : Nat) : Countable (pick mask es) :=
  h.sublist (pick_sublist mask es)

theorem checkedChoice_eq (h : Countable es) (mask : Nat) :
    checkedChoice es mask = some (.ofPlaces (pick mask es)) := by
  have hes := h.length
  obtain ⟨hlength, hentries, hmillis⟩ := h.pick mask
  have hpick : pick? mask 0 es = some (pick mask es) := pick?_zero_eq (by omega)
  have hcount : sum? 0 ((pick mask es).map fun m => m.2.count) =
      some (0 + ((pick mask es).map fun m => m.2.count).sum) := sum?_eq (by omega)
  have hcreated : wideSum? 0 ((pick mask es).map fun m => m.2.createdMillis) =
      some (0 + ((pick mask es).map fun m => m.2.createdMillis).sum) :=
    wideSum?_eq (n := 0) (by simp [IsMillisTimes]) (List.forall_mem_map.2 hmillis)
      (by rw [List.length_map]; omega)
  rw [Nat.zero_add, ← count_ofPlaces] at hcount
  rw [Int.zero_add, ← created_ofPlaces] at hcreated
  simp only [checkedChoice, hpick, hcount, hcreated, Option.bind_eq_bind, Option.bind_some,
    ← members_ofPlaces]
  rfl

/-- A choice of few members that were made in milliseconds that the machine keeps. -/
structure Choice.Comparable (c : Choice) : Prop where
  length : c.members.length ≤ 16
  created : IsMillisTimes c.members.length c.created

theorem comparable_ofPlaces (h : Countable es) : (Choice.ofPlaces es).Comparable := by
  have hlength : (Choice.ofPlaces es).members.length = es.length := by
    rw [members_ofPlaces, List.length_map]
  have hcreated := isMillisTimes_sum (List.forall_mem_map.2 h.millis)
  rw [List.length_map, ← created_ofPlaces, ← hlength] at hcreated
  exact ⟨hlength.trans_le h.length, hcreated⟩

theorem checkedBetter_eq {a b : Choice} (ha : a.Comparable) (hb : b.Comparable) :
    checkedBetter a b = some (a.better b) := by
  obtain ⟨halength, hacreated⟩ := ha
  obtain ⟨hblength, hbcreated⟩ := hb
  have hmine := mulWide?_eq (hacreated.isWide_mul halength hblength)
  have hother := mulWide?_eq (hbcreated.isWide_mul hblength halength)
  have hpicked : length? a.members = some a.members.length := length?_eq (by omega)
  have hothers : length? b.members = some b.members.length := length?_eq (by omega)
  simp only [checkedBetter, hpicked, hothers, Option.bind_eq_bind, Option.bind_some, hmine, hother]
  rfl

/-! ## The best choice -/

/-- The better one of what was found so far and another choice. -/
def keep (found : Option Choice) (c : Choice) : Option Choice :=
  match found with
  | none => some c
  | some b => some (if c.better b then c else b)

theorem best_eq_foldl (cs : List Choice) : best cs = cs.foldl keep none := by
  have hsome : ∀ (rest : List Choice) b, rest.foldl keep (some b) =
      some (rest.foldl (fun b c => if c.better b then c else b) b) := by
    intro rest
    induction rest with
    | nil => exact fun b => rfl
    | cons c rest ih => exact fun b => ih _
  cases cs with
  | nil => rfl
  | cons c rest => exact (hsome rest c).symm

theorem checkedStep_eq (h : Countable es) {found : Option Choice}
    (hfound : ∀ c ∈ found, c.Comparable) (target mask : Nat) :
    checkedStep es target found mask = some (if (Choice.ofPlaces (pick mask es)).count = target
      then keep found (.ofPlaces (pick mask es)) else found) ∧
    ∀ c ∈ if (Choice.ofPlaces (pick mask es)).count = target
      then keep found (.ofPlaces (pick mask es)) else found, c.Comparable := by
  have hnew := comparable_ofPlaces (h.pick mask)
  rw [checkedStep, checkedChoice_eq h]
  simp only [Option.bind_eq_bind, Option.bind_some]
  split
  · cases found with
    | none =>
      refine ⟨rfl, fun c hc => ?_⟩
      rw [← Option.some.inj hc]
      exact hnew
    | some b =>
      have hb := hfound b rfl
      refine ⟨?_, fun c hc => ?_⟩
      · simp only [checkedBetter_eq hnew hb, Option.bind_some]
        rfl
      · rw [← Option.some.inj hc]
        split
        · exact hnew
        · exact hb
  · exact ⟨rfl, hfound⟩

/-- The choices are the sets with at most as many entries as are to go, counting up. -/
theorem choices_eq_filter (target : Nat) (es : Places) : choices target es =
    ((List.range (2 ^ es.length)).map fun mask => Choice.ofPlaces (pick mask es)).filter
      fun c => c.count ≤ target := by
  induction es with
  | nil => rfl
  | cons m rest ih =>
    rw [choices, ih, List.length_cons, range_two_pow_succ]
    simp only [List.map_flatMap, List.map_cons, List.map_nil, pick_two_mul, pick_two_mul_add_one,
      List.filter_flatMap]
    generalize List.range (2 ^ rest.length) = masks
    induction masks with
    | nil => rfl
    | cons mask masks ih =>
      have hadd : Choice.ofPlaces (m :: pick mask rest) =
          (Choice.ofPlaces (pick mask rest)).add m.1 m.2 := rfl
      have hcount : ((Choice.ofPlaces (pick mask rest)).add m.1 m.2).count =
          m.2.count + (Choice.ofPlaces (pick mask rest)).count := rfl
      rw [List.map_cons, List.flatMap_cons, ← ih, List.filter_cons, hadd]
      -- what is too much already is too much with one more
      by_cases hfits : (Choice.ofPlaces (pick mask rest)).count ≤ target
      · by_cases hmore : m.2.count + (Choice.ofPlaces (pick mask rest)).count ≤ target
        · simp [hfits, hmore, hcount]
        · simp [hfits, hmore, hcount]
      · have hmore : ¬ m.2.count + (Choice.ofPlaces (pick mask rest)).count ≤ target := by omega
        simp [hfits, hmore, hcount]

/-- The choices with exactly as many entries as are to go are sets with some member. -/
theorem filter_choices_eq (target : Nat) (es : Places) :
    ((choices target es).filter fun c => c.count = target && !c.members.isEmpty) =
      ((List.range' 1 (2 ^ es.length - 1)).map fun mask => Choice.ofPlaces (pick mask es)).filter
        fun c => c.count = target := by
  have hnone : Choice.ofPlaces (pick 0 es) = .none := by rw [pick_zero]; rfl
  rw [choices_eq_filter, List.filter_filter, range_two_pow_eq_cons, List.map_cons, hnone,
    List.filter_cons, if_neg (by simp [Choice.none])]
  refine List.filter_congr fun c hc => ?_
  obtain ⟨mask, hmask, rfl⟩ := List.mem_map.1 hc
  rw [List.mem_range'_1] at hmask
  have hne : pick mask es ≠ [] := pick_ne_nil (by omega) (by omega)
  by_cases htarget : (Choice.ofPlaces (pick mask es)).count = target
  · simp [htarget, members_ofPlaces, hne]
  · simp [htarget]

theorem countable_eligible (hsum : (members.map Member.count).sum < 2 ^ 64)
    (hmillis : ∀ m ∈ members, IsMillis m.createdMillis) (target : Nat) :
    Countable (eligible members target) where
  length := List.length_take_le _ _
  entries := (sum_eligible_le members target).trans_lt hsum
  millis m hm := by
    obtain ⟨l, hperm, hsub⟩ := eligible_subperm members target
    have hplace : m ∈ places members := hsub.subset (hperm.mem_iff.2 hm)
    exact hmillis _ (List.of_mem_zip hplace).2

theorem checkedBestSubset_eq (hsum : (members.map Member.count).sum < 2 ^ 64)
    (hmillis : ∀ m ∈ members, IsMillis m.createdMillis) (target : Nat) :
    checkedBestSubset members target = some (bestSubset members target) := by
  have hes := countable_eligible hsum hmillis target
  have hlimit : bit? (eligible members target).length =
      some (2 ^ (eligible members target).length) := bit?_eq (by have := hes.length; omega)
  have hfound := foldlM_eq_some (l := List.range' 1 (2 ^ (eligible members target).length - 1))
    (P := fun found : Option Choice => ∀ c ∈ found, c.Comparable) (s := none)
    (by simp) fun found hfound mask _ => checkedStep_eq hes hfound target mask
  rw [checkedBestSubset, hlimit]
  simp only [Option.bind_eq_bind, Option.bind_some, hfound]
  rw [bestSubset, filter_choices_eq, best_eq_foldl, List.foldl_filter, List.foldl_map]
  simp only [decide_eq_true_eq]
  rfl

/-! ## Plans -/

/-- The plan for an excess, if there is one, with its members found in machine numbers. -/
def checkedPlan (members : List Member) (excess : Nat) : Option (Option Plan) :=
  if excess = 0 then some (some ⟨0, []⟩)
  else do
    let removed ← checkedBestSubset members excess
    return removed.map fun r => ⟨excess, r⟩

/-- The plans from an excess on. -/
def checkedPlansFrom (members : List Member) (size multiple floor : Nat) (hpos : 0 < multiple)
    (excess : Nat) : Option (List Plan) :=
  if excess < size then do
    let stay ← sub? size excess
    if floor ≤ stay then
      let plan ← checkedPlan members excess
      match _ : add? excess multiple with
      | none => none
      | some next =>
        let more ← checkedPlansFrom members size multiple floor hpos next
        return plan.toList ++ more
    else return []
  else some []
termination_by size - excess
decreasing_by
  have := eq_of_add? ‹_›
  omega

/-- All plans for a group; the first excess is the remainder of its size. -/
def checkedPlans (members : List Member) (size multiple floor : Nat) : Option (List Plan) :=
  if h : multiple = 0 ∨ size = 0 then some []
  else do
    let excess ← rem? size multiple
    checkedPlansFrom members size multiple floor (by omega) excess

theorem checkedPlan_eq (hsum : (members.map Member.count).sum < 2 ^ 64)
    (hmillis : ∀ m ∈ members, IsMillis m.createdMillis) (excess : Nat) :
    checkedPlan members excess = some (plan? members excess) := by
  unfold checkedPlan plan?
  split
  · rfl
  · rw [checkedBestSubset_eq hsum hmillis]
    rfl

/-- An excess is only tried for a group that is at least as large as the multiple. -/
theorem Tried.multiple_le (h : Tried size multiple floor excess) : multiple ≤ size := by
  by_contra hlt
  have hmod := h.multiple
  have hstay := h.some_stay
  rw [Nat.mod_eq_of_lt (by omega), Nat.mod_eq_of_lt (by omega)] at hmod
  omega

/-- No excess lies between one that is tried and the one a multiple further. -/
theorem filter_le_excesses (hpos : 0 < multiple) (h : Tried size multiple floor excess) :
    (excesses size multiple floor).filter (excess ≤ ·) =
      excess :: (excesses size multiple floor).filter (excess + multiple ≤ ·) := by
  have hall : ∀ e ∈ excesses size multiple floor, Tried size multiple floor e := fun e =>
    (mem_excesses_iff hpos).1
  have hsorted : (excesses size multiple floor).Pairwise (· < ·) := pairwise_excesses hpos
  obtain ⟨before, after, hlist⟩ := List.append_of_mem ((mem_excesses_iff hpos).2 h)
  rw [hlist] at hall hsorted ⊢
  obtain ⟨-, hsorted, hbefore⟩ := List.pairwise_append.1 hsorted
  have hless : ∀ e ∈ before, e < excess := fun e he => hbefore e he excess List.mem_cons_self
  have hgreater : ∀ e ∈ after, excess + multiple ≤ e := by
    intro e he
    have hlt := (List.pairwise_cons.1 hsorted).1 e he
    have hmod : e % multiple = excess % multiple :=
      (hall e (List.mem_append_right _ (List.mem_cons_of_mem _ he))).multiple.trans
        h.multiple.symm
    have hdvd : multiple ∣ e - excess := Nat.dvd_of_mod_eq_zero (Nat.sub_mod_eq_zero_of_mod_eq hmod)
    have := Nat.le_of_dvd (by omega) hdvd
    omega
  have hbefore₁ : before.filter (excess ≤ ·) = [] := by
    refine List.filter_eq_nil_iff.2 fun e he => ?_
    have := hless e he
    simpa using this
  have hbefore₂ : before.filter (excess + multiple ≤ ·) = [] := by
    refine List.filter_eq_nil_iff.2 fun e he => ?_
    have := hless e he
    simp only [decide_eq_true_eq]
    omega
  have hafter₁ : after.filter (excess ≤ ·) = after := by
    refine List.filter_eq_self.2 fun e he => ?_
    have := hgreater e he
    simp only [decide_eq_true_eq]
    omega
  have hafter₂ : after.filter (excess + multiple ≤ ·) = after :=
    List.filter_eq_self.2 fun e he => decide_eq_true (hgreater e he)
  rw [List.filter_append, List.filter_append, hbefore₁, hbefore₂, List.filter_cons,
    List.filter_cons, hafter₁, hafter₂, if_pos (by simp), if_neg (by simp; omega)]
  rfl

/-- From an excess on that is too much none is tried. -/
theorem filter_le_excesses_eq_nil (hpos : 0 < multiple)
    (h : ¬ (excess < size ∧ floor ≤ size - excess)) :
    (excesses size multiple floor).filter (excess ≤ ·) = [] := by
  refine List.filter_eq_nil_iff.2 fun e he => ?_
  have htried := (mem_excesses_iff hpos).1 he
  have := htried.some_stay
  have := htried.enough_stay
  simp only [decide_eq_true_eq]
  omega

theorem checkedPlansFrom_eq (hsize : size < 2 ^ 63)
    (hsum : (members.map Member.count).sum < 2 ^ 64)
    (hmillis : ∀ m ∈ members, IsMillis m.createdMillis) (hpos : 0 < multiple)
    (hmod : excess % multiple = size % multiple) :
    checkedPlansFrom members size multiple floor hpos excess =
      some (((excesses size multiple floor).filter (excess ≤ ·)).filterMap (plan? members)) := by
  -- each step comes closer to the size
  induction hleft : size - excess using Nat.strong_induction_on generalizing excess with
  | _ left ih =>
    unfold checkedPlansFrom
    split
    · rename_i hlt
      rw [sub?_eq hlt.le]
      simp only [Option.bind_eq_bind, Option.bind_some]
      split
      · rename_i hfloor
        have htried : Tried size multiple floor excess := ⟨hmod, hlt, hfloor⟩
        have hmultiple := htried.multiple_le
        have hnext : add? excess multiple = some (excess + multiple) := add?_eq (by omega)
        have hmore := ih (size - (excess + multiple)) (by omega)
          (by rw [Nat.add_mod_right, hmod]) rfl
        rw [checkedPlan_eq hsum hmillis, filter_le_excesses hpos htried, List.filterMap_cons]
        simp only [Option.bind_some]
        split
        · rename_i hnone
          rw [hnext] at hnone
          cases hnone
        · rename_i next hsome
          rw [hnext] at hsome
          rw [← Option.some.inj hsome, hmore]
          cases plan? members excess <;> rfl
      · rename_i hfloor
        rw [filter_le_excesses_eq_nil hpos fun h => hfloor h.2]
        rfl
    · rename_i hlt
      rw [filter_le_excesses_eq_nil hpos fun h => hlt h.1]
      rfl

/-- The plans of a group of fewer than 2 ^ 63 entries are made in machine numbers. -/
theorem checkedPlans_eq (hsize : size < 2 ^ 63) (hsum : (members.map Member.count).sum < 2 ^ 64)
    (hmillis : ∀ m ∈ members, IsMillis m.createdMillis) (multiple floor : Nat) :
    checkedPlans members size multiple floor = some (plans members size multiple floor) := by
  unfold checkedPlans plans
  split
  · rename_i hnone
    rw [if_pos (by simpa using hnone)]
  · rename_i hsome
    have hpos : 0 < multiple := by omega
    have hall : (excesses size multiple floor).filter (size % multiple ≤ ·) =
        excesses size multiple floor := by
      refine List.filter_eq_self.2 fun e he => decide_eq_true ?_
      rw [← ((mem_excesses_iff hpos).1 he).multiple]
      exact Nat.mod_le e multiple
    rw [if_neg (by simpa using hsome), rem?_eq hpos.ne']
    simp only [Option.bind_eq_bind, Option.bind_some]
    rw [checkedPlansFrom_eq hsize hsum hmillis hpos (Nat.mod_mod _ _), hall]

end Surplus

end Matchmaking
