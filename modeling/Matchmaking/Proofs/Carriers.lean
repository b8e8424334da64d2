import Mathlib.Algebra.BigOperators.Group.List.Basic
import Mathlib.Algebra.Order.Field.Basic
import Mathlib.Data.Prod.Lex
import Mathlib.Data.Rat.Cast.Order
import Matchmaking.Proofs.Sorting
import Matchmaking.Proofs.Youngest

/-!
# Who carries an excess

For an excess those members are considered that have no more entries than are to go, the youngest of
them and among equally old ones the first, up to a fixed number. Some of them carry the excess if
their entries add up to it. The members that go are the best that carry it: nobody else who carries
it was made later on average, nor as late and is fewer. Main statements: `best_of_bestSubset` and
`exists_bestSubset`.
-/

namespace Matchmaking

namespace Surplus

variable {target : Nat} {members : List Member} {cs : List Choice}
  {S T removed : List Nat}

/-! ## Members at positions -/

/-- The member at a position. -/
def memberAt (members : List Member) (i : Nat) : Member := members.getD i default

/-- A position with its member. -/
def placeOf (members : List Member) (i : Nat) : Nat × Member := (i, memberAt members i)

/-- The number of entries of the members at some positions. -/
def entriesAt (members : List Member) (S : List Nat) : Nat :=
  (S.map fun i => (memberAt members i).count).sum

/-- The average millisecond in which the members at some positions were made. -/
def averageAt (members : List Member) (S : List Nat) : ℚ :=
  ((S.map fun i => (memberAt members i).createdMillis).sum : ℤ) / S.length

/-- Whether one member goes before another: it is younger, or as old and stands before it. -/
def goesBefore (a b : Nat × Member) : Bool :=
  decide (b.2.createdMillis < a.2.createdMillis) ||
    (a.2.createdMillis == b.2.createdMillis && decide (a.1 < b.1))

/-- A member is considered for an excess: it has no more entries than that, and of those of whom
this is true fewer go before it than may be considered. -/
structure Considered (members : List Member) (excess i : Nat) : Prop where
  valid : i < members.length
  small : (memberAt members i).count ≤ excess
  early : ((List.range members.length).countP fun j =>
    decide ((memberAt members j).count ≤ excess) &&
      goesBefore (placeOf members j) (placeOf members i)) < maxMembers

/-- Some of the members that are considered for an excess have that many entries together. -/
structure Carries (members : List Member) (excess : Nat) (S : List Nat) : Prop where
  ne : S ≠ []
  increasing : S.Pairwise (· < ·)
  considered : ∀ i ∈ S, Considered members excess i
  entries : entriesAt members S = excess

/-- Nobody who carries an excess was made later on average than some who carry it, nor as late and
is fewer. -/
structure Best (members : List Member) (excess : Nat) (S : List Nat) : Prop where
  carries : Carries members excess S
  latest : ∀ T, Carries members excess T → averageAt members T ≤ averageAt members S
  fewest : ∀ T, Carries members excess T → averageAt members T = averageAt members S →
    S.length ≤ T.length

theorem entriesAt_perm (h : S.Perm T) : entriesAt members S = entriesAt members T :=
  (h.map _).sum_nat

theorem averageAt_perm (h : S.Perm T) : averageAt members S = averageAt members T := by
  rw [averageAt, averageAt, h.length_eq, (h.map _).sum_eq]

theorem places_eq_map (members : List Member) :
    places members = (List.range members.length).map (placeOf members) := by
  refine List.ext_getElem (by simp) fun i hi _ => ?_
  have hi' : i < members.length := by simpa using hi
  simp [placeOf, memberAt, hi']

theorem map_fst_places (members : List Member) :
    (places members).map Prod.fst = List.range members.length :=
  List.map_fst_zip (by simp)

/-! ## The members that are considered -/

theorem goesBefore_asymm (a b : Nat × Member) (h : goesBefore a b = true) :
    goesBefore b a = false := by
  rw [← Bool.not_eq_true]
  simp only [goesBefore, Bool.or_eq_true, Bool.and_eq_true, decide_eq_true_eq, beq_iff_eq] at h ⊢
  omega

/-- The members that have no more entries than are to go, the youngest first. -/
def youngest (members : List Member) (target : Nat) : Places :=
  ((places members).filter fun m => m.2.count ≤ target).mergeSort fun a b =>
    b.2.createdMillis ≤ a.2.createdMillis

theorem eligible_eq_take (members : List Member) (target : Nat) :
    eligible members target = (youngest members target).take maxMembers := rfl

/-- Among equally old members the first one goes first. -/
theorem pairwise_youngest (members : List Member) (target : Nat) :
    (youngest members target).Pairwise fun a b => goesBefore a b = true := by
  have hpositions : ((places members).filter fun m => m.2.count ≤ target).Pairwise
      fun a b => a.1 < b.1 := by
    refine List.Pairwise.sublist List.filter_sublist ?_
    rw [places_eq_map, List.pairwise_map]
    exact List.pairwise_lt_range
  have hsorted := @pairwise_mergeSort_of_pairwise _
    (fun a b : Nat × Member => decide (b.2.createdMillis ≤ a.2.createdMillis)) _
    (fun a b c hab hbc => by
      rw [decide_eq_true_eq] at hab hbc ⊢
      omega)
    (fun a b => by
      rw [Bool.or_eq_true, decide_eq_true_eq, decide_eq_true_eq]
      omega) _ hpositions
  refine hsorted.imp fun {a b} hab => ?_
  simp only [decide_eq_true_eq] at hab
  simp only [goesBefore, Bool.or_eq_true, Bool.and_eq_true, decide_eq_true_eq, beq_iff_eq]
  obtain ⟨hle, hequal⟩ := hab
  rcases Int.lt_or_eq_of_le hle with hlt | heq
  · exact .inl hlt
  · exact .inr ⟨heq.symm, hequal (by omega)⟩

theorem mem_eligible_iff {m : Nat × Member} : m ∈ eligible members target ↔
    Considered members target m.1 ∧ m = placeOf members m.1 := by
  have hperm : (youngest members target).Perm
      ((places members).filter fun m => m.2.count ≤ target) := List.mergeSort_perm _ _
  have hplace : m ∈ places members ↔ m.1 < members.length ∧ m = placeOf members m.1 := by
    rw [places_eq_map, List.mem_map]
    constructor
    · rintro ⟨i, hi, rfl⟩
      exact ⟨List.mem_range.1 hi, rfl⟩
    · rintro ⟨hi, heq⟩
      exact ⟨m.1, List.mem_range.2 hi, heq.symm⟩
  have hcount : m = placeOf members m.1 →
      ((youngest members target).countP fun b => goesBefore b m) =
      (List.range members.length).countP fun j =>
        decide ((memberAt members j).count ≤ target) &&
          goesBefore (placeOf members j) (placeOf members m.1) := by
    intro heq
    rw [hperm.countP_eq, List.countP_filter, places_eq_map, List.countP_map, ← heq]
    refine List.countP_congr fun j _ => ?_
    rw [Function.comp_apply, Bool.and_comm]
    rfl
  rw [eligible_eq_take, mem_take_iff_countP goesBefore_asymm (pairwise_youngest members target),
    hperm.mem_iff, List.mem_filter, hplace, decide_eq_true_eq]
  constructor
  · rintro ⟨⟨⟨hvalid, heq⟩, hsmall⟩, hearly⟩
    rw [hcount heq] at hearly
    rw [heq] at hsmall
    exact ⟨⟨hvalid, hsmall, hearly⟩, heq⟩
  · rintro ⟨hconsidered, heq⟩
    refine ⟨⟨⟨hconsidered.valid, heq⟩, ?_⟩, ?_⟩
    · rw [heq]
      exact hconsidered.small
    · rw [hcount heq]
      exact hconsidered.early

/-! ## Selections of members -/

/-- The positions of the members that are considered, the youngest first. -/
def contenders (members : List Member) (target : Nat) : List Nat :=
  (eligible members target).map Prod.fst

theorem nodup_contenders (members : List Member) (target : Nat) :
    (contenders members target).Nodup := by
  obtain ⟨l, hperm, hsub⟩ := eligible_subperm members target
  have hnodup : ((places members).map Prod.fst).Nodup := by
    rw [map_fst_places]
    exact List.nodup_range
  exact (hperm.map Prod.fst).nodup_iff.1 (hnodup.sublist (hsub.map Prod.fst))

theorem eligible_eq_map (members : List Member) (target : Nat) :
    eligible members target = (contenders members target).map (placeOf members) := by
  rw [contenders, List.map_map]
  exact (List.map_id' _).symm.trans
    (List.map_congr_left fun m hm => (mem_eligible_iff.1 hm).2)

theorem mem_contenders_iff {i : Nat} :
    i ∈ contenders members target ↔ Considered members target i := by
  rw [contenders, List.mem_map]
  constructor
  · rintro ⟨m, hm, rfl⟩
    exact (mem_eligible_iff.1 hm).1
  · exact fun h => ⟨placeOf members i, mem_eligible_iff.2 ⟨h, rfl⟩, rfl⟩

/-- The choice of the members at some positions. -/
def choiceOf (members : List Member) (S : List Nat) : Choice :=
  .ofPlaces (S.map (placeOf members))

@[simp]
theorem members_choiceOf (members : List Member) (S : List Nat) :
    (choiceOf members S).members = S := by
  simp [choiceOf, members_ofPlaces, placeOf, Function.comp_def]

@[simp]
theorem count_choiceOf (members : List Member) (S : List Nat) :
    (choiceOf members S).count = entriesAt members S := by
  simp [choiceOf, count_ofPlaces, placeOf, entriesAt, Function.comp_def]

@[simp]
theorem created_choiceOf (members : List Member) (S : List Nat) :
    (choiceOf members S).created = (S.map fun i => (memberAt members i).createdMillis).sum := by
  simp [choiceOf, created_ofPlaces, placeOf, Function.comp_def]

/-- The choices that have exactly as many entries as are to go. -/
def exactChoices (members : List Member) (target : Nat) : List Choice :=
  (choices target (eligible members target)).filter fun c =>
    c.count = target && !c.members.isEmpty

theorem mem_exactChoices_iff {c : Choice} : c ∈ exactChoices members target ↔
    ∃ S, S.Sublist (contenders members target) ∧ S ≠ [] ∧ entriesAt members S = target ∧
      c = choiceOf members S := by
  rw [exactChoices, List.mem_filter, mem_choices_iff, eligible_eq_map]
  constructor
  · rintro ⟨⟨gone, hsub, rfl, -⟩, hexact⟩
    obtain ⟨S, hS, rfl⟩ := List.sublist_map_iff.1 hsub
    have hchoice : Choice.ofPlaces (S.map (placeOf members)) = choiceOf members S := rfl
    rw [hchoice, count_choiceOf, members_choiceOf, Bool.and_eq_true, decide_eq_true_eq,
      Bool.not_eq_true', List.isEmpty_eq_false_iff] at hexact
    exact ⟨S, hS, hexact.2, hexact.1, rfl⟩
  · rintro ⟨S, hS, hne, hentries, rfl⟩
    refine ⟨⟨_, hS.map _, rfl, by rw [count_choiceOf]; omega⟩, ?_⟩
    rw [count_choiceOf, members_choiceOf, Bool.and_eq_true, decide_eq_true_eq,
      Bool.not_eq_true', List.isEmpty_eq_false_iff]
    exact ⟨hentries, hne⟩

/-- Who is chosen exactly carries the excess. -/
theorem carries_mergeSort (hsub : S.Sublist (contenders members target)) (hne : S ≠ [])
    (hentries : entriesAt members S = target) : Carries members target S.mergeSort := by
  have hperm : S.mergeSort.Perm S := List.mergeSort_perm _ _
  have hnodup : S.mergeSort.Nodup :=
    hperm.nodup_iff.2 ((nodup_contenders members target).sublist hsub)
  refine ⟨fun hnil => ?_, ?_, fun i hi => ?_, (entriesAt_perm hperm).trans hentries⟩
  · rw [hnil] at hperm
    exact hne hperm.nil_eq.symm
  · have hsorted := @List.pairwise_mergeSort _ (fun a b : Nat => decide (a ≤ b))
      (fun a b c hab hbc => by
        rw [decide_eq_true_eq] at hab hbc ⊢
        omega)
      (fun a b => by
        rw [Bool.or_eq_true, decide_eq_true_eq, decide_eq_true_eq]
        omega) S
    refine (hsorted.and hnodup).imp fun {a b} hab => ?_
    exact Nat.lt_of_le_of_ne (of_decide_eq_true hab.1) hab.2
  · exact mem_contenders_iff.1 (hsub.subset (hperm.mem_iff.1 hi))

/-- Whoever carries the excess is among the choices. -/
theorem Carries.exists_sublist (h : Carries members target T) :
    ∃ S : List Nat, S.Sublist (contenders members target) ∧ S.Perm T := by
  refine ⟨(contenders members target).filter (T.contains ·), List.filter_sublist, ?_⟩
  have hnodup : T.Nodup := h.increasing.imp fun {a b} hab => Nat.ne_of_lt hab
  refine (List.perm_ext_iff_of_nodup
    ((nodup_contenders members target).filter _) hnodup).2 fun i => ?_
  rw [List.mem_filter, List.contains_iff_mem, mem_contenders_iff]
  exact ⟨fun hi => hi.2, fun hi => ⟨h.considered i hi, hi⟩⟩

/-! ## The best choice -/

/-- How good a choice is: the later on average the better, and of equally late ones the fewer. -/
def Choice.merit (c : Choice) : ℚ ×ₗ ℕᵒᵈ :=
  toLex ((c.created : ℚ) / c.members.length, OrderDual.toDual c.members.length)

theorem better_iff_merit {a b : Choice} (ha : a.members ≠ []) (hb : b.members ≠ []) :
    a.better b = true ↔ b.merit < a.merit := by
  have hpos : ∀ {c : Choice}, c.members ≠ [] → (0 : ℚ) < c.members.length := fun h =>
    Nat.cast_pos.2 (List.length_pos_iff.2 h)
  -- fractions are compared by their cross products
  rw [Choice.merit, Choice.merit, Prod.Lex.toLex_lt_toLex]
  simp only [OrderDual.toDual_lt_toDual]
  rw [div_lt_div_iff₀ (hpos hb) (hpos ha), div_eq_div_iff (hpos hb).ne' (hpos ha).ne']
  simp only [Choice.better, Bool.or_eq_true, Bool.and_eq_true, decide_eq_true_eq, beq_iff_eq]
  norm_cast
  rw [@eq_comm _ (b.created * _)]

/-- Of two choices the one that is kept is as good as both. -/
theorem merit_le_kept {a b : Choice} (ha : a.members ≠ []) (hb : b.members ≠ []) :
    a.merit ≤ (if b.better a then b else a).merit ∧
      b.merit ≤ (if b.better a then b else a).merit ∧
        (if b.better a then b else a).members ≠ [] := by
  by_cases hbetter : b.better a = true
  · rw [if_pos hbetter]
    exact ⟨((better_iff_merit hb ha).1 hbetter).le, le_rfl, hb⟩
  · rw [if_neg hbetter]
    rw [better_iff_merit hb ha, not_lt] at hbetter
    exact ⟨le_rfl, hbetter, ha⟩

theorem merit_le_of_best {c : Choice} (h : best cs = some c) (hne : ∀ x ∈ cs, x.members ≠ []) :
    ∀ x ∈ cs, x.merit ≤ c.merit := by
  cases cs with
  | nil => cases h
  | cons first rest =>
    have hc := Option.some.inj h
    clear h
    induction rest generalizing first with
    | nil =>
      intro x hx
      rw [List.mem_singleton.1 hx, ← hc]
      exact le_rfl
    | cons next rest ih =>
      obtain ⟨hfirst, hnext, hrest⟩ : first.members ≠ [] ∧ next.members ≠ [] ∧
          ∀ x ∈ rest, x.members ≠ [] := by
        simpa only [List.forall_mem_cons] using hne
      obtain ⟨hle, hle', hkept⟩ := merit_le_kept hfirst hnext
      rw [List.foldl_cons] at hc
      obtain ⟨hbest, hothers⟩ := List.forall_mem_cons.1
        (ih _ (List.forall_mem_cons.2 ⟨hkept, hrest⟩) hc)
      exact List.forall_mem_cons.2
        ⟨hle.trans hbest, List.forall_mem_cons.2 ⟨hle'.trans hbest, hothers⟩⟩

/-- How good the members at some positions are as a choice. -/
def meritAt (members : List Member) (S : List Nat) : ℚ ×ₗ ℕᵒᵈ :=
  toLex (averageAt members S, OrderDual.toDual S.length)

theorem merit_choiceOf (members : List Member) (S : List Nat) :
    (choiceOf members S).merit = meritAt members S := by
  rw [Choice.merit, created_choiceOf, members_choiceOf]
  rfl

theorem meritAt_perm (h : S.Perm T) : meritAt members S = meritAt members T := by
  rw [meritAt, meritAt, averageAt_perm h, h.length_eq]

theorem meritAt_le_iff : meritAt members T ≤ meritAt members S ↔
    averageAt members T < averageAt members S ∨
      averageAt members T = averageAt members S ∧ S.length ≤ T.length :=
  Prod.Lex.toLex_le_toLex

theorem members_ne_of_mem_exactChoices {c : Choice} (h : c ∈ exactChoices members target) :
    c.members ≠ [] := by
  obtain ⟨S, -, hne, -, rfl⟩ := mem_exactChoices_iff.1 h
  rwa [members_choiceOf]

/-- Whoever carries the excess is as good as one of the choices. -/
theorem Carries.exists_choice (h : Carries members target T) :
    ∃ c ∈ exactChoices members target, c.merit = meritAt members T := by
  obtain ⟨S, hsub, hperm⟩ := h.exists_sublist
  have hne : S ≠ [] := by
    rintro rfl
    exact h.ne hperm.nil_eq.symm
  have hentries := (entriesAt_perm hperm).trans h.entries
  refine ⟨choiceOf members S, mem_exactChoices_iff.2 ⟨S, hsub, hne, hentries, rfl⟩, ?_⟩
  rw [merit_choiceOf, meritAt_perm hperm]

theorem bestSubset_eq (members : List Member) (target : Nat) : bestSubset members target =
    (best (exactChoices members target)).map fun c => c.members.mergeSort := rfl

/-- The members that go for an excess are the best that carry it. -/
theorem best_of_bestSubset (h : bestSubset members target = some removed) :
    Best members target removed := by
  rw [bestSubset_eq] at h
  obtain ⟨c, hbest, rfl⟩ := Option.map_eq_some_iff.1 h
  obtain ⟨S, hsub, hne, hentries, rfl⟩ := mem_exactChoices_iff.1 (mem_of_best hbest)
  have hperm : S.mergeSort.Perm S := List.mergeSort_perm _ _
  have hmerit : ∀ T, Carries members target T →
      meritAt members T ≤ meritAt members S.mergeSort := by
    intro T hT
    obtain ⟨c, hc, hmerit⟩ := hT.exists_choice
    rw [← hmerit, meritAt_perm hperm, ← merit_choiceOf]
    exact merit_le_of_best hbest (fun x => members_ne_of_mem_exactChoices) c hc
  rw [members_choiceOf]
  refine ⟨carries_mergeSort hsub hne hentries, fun T hT => ?_, fun T hT heq => ?_⟩
  · rcases meritAt_le_iff.1 (hmerit T hT) with hlt | ⟨heq, -⟩
    · exact hlt.le
    · exact heq.le
  · rcases meritAt_le_iff.1 (hmerit T hT) with hlt | ⟨-, hle⟩
    · exact absurd heq hlt.ne
    · exact hle

/-- If some members carry an excess, some go for it. -/
theorem exists_bestSubset (h : Carries members target T) :
    ∃ removed, bestSubset members target = some removed := by
  obtain ⟨c, hc, -⟩ := h.exists_choice
  obtain ⟨first, rest, hchoices⟩ := List.exists_cons_of_ne_nil (List.ne_nil_of_mem hc)
  rw [bestSubset_eq, hchoices]
  exact ⟨_, rfl⟩

end Surplus

end Matchmaking
