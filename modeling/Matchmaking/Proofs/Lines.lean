import Matchmaking.Proofs.Acts
import Matchmaking.Proofs.Youngest

/-!
# Users in a line

Users who ask for the same sizes and do not belong together stand in a line in the order of age. As
long as the pass does not insist, an outer ticket on its last interval fills one buffer with those
behind it until it is full or nobody is left, and then sends the youngest away until the rest is a
multiple. Main statement: `assembleFor_line` says which group comes of it.
-/

namespace Matchmaking

/-- A ticket of a single user without a party who asks for given sizes. -/
structure Plain (lo hi multiple : Nat) (p : Pooled) : Prop where
  single : p.ticket.count = 1
  alone : p.ticket.party = none
  minCount : p.ticket.minCount = lo
  maxCount : p.ticket.maxCount = hi
  multiple : p.ticket.multiple = multiple

/-- Such tickets in the order of age, no two of which were made in one millisecond or share a
session. -/
structure Line (lo hi multiple : Nat) (ts : List Pooled) : Prop where
  plain : ∀ p ∈ ts, Plain lo hi multiple p
  ages : ts.Pairwise fun p q => p.ticket.createdMillis < q.ticket.createdMillis
  sessions : ts.Pairwise fun p q => p.ticket.sharesSession q.ticket = false

theorem entryCount_of_plain {lo hi multiple : Nat} {ts : List Pooled}
    (h : ∀ p ∈ ts, Plain lo hi multiple p) : Greedy.entryCount ts = ts.length := by
  have hone : ∀ p ∈ ts, p.ticket.count = 1 := fun p hp => (h p hp).single
  rw [Greedy.entryCount_eq_sum, List.map_congr_left hone]
  simp

namespace Line

variable {lo hi multiple : Nat} {ts us : List Pooled}

theorem sublist (h : Line lo hi multiple ts) (hsub : us.Sublist ts) : Line lo hi multiple us :=
  ⟨fun p hp => h.plain p (hsub.subset hp), h.ages.sublist hsub, h.sessions.sublist hsub⟩

theorem entryCount (h : Line lo hi multiple ts) : Greedy.entryCount ts = ts.length :=
  entryCount_of_plain h.plain

theorem singleFile (h : Line lo hi multiple ts) : Surplus.SingleFile (Greedy.members ts) where
  single := by
    intro m hm
    obtain ⟨p, hp, rfl⟩ := List.mem_map.1 hm
    exact (h.plain p hp).single
  ages := by
    rw [Greedy.members, List.pairwise_map]
    exact h.ages

theorem acceptsSize (h : Line lo hi multiple ts) {size : Nat} (hlo : lo ≤ size) (hhi : size ≤ hi)
    (hpos : 0 < multiple) (hmultiple : size % multiple = 0) :
    ∀ p ∈ ts, p.ticket.acceptsSize size = true := by
  intro p hp
  have hplain := h.plain p hp
  rw [Ticket.acceptsSize_iff, hplain.minCount, hplain.maxCount, hplain.multiple]
  exact ⟨hlo, hhi, hpos, hmultiple⟩

end Line

/-- The size of the group that a number of users form: the greatest multiple that neither the number
nor the greatest size exceeds. -/
def groupSize (hi multiple n : Nat) : Nat := min n hi - min n hi % multiple

/-- A number up to another one is no greater than its greatest multiple, if it is a multiple. -/
theorem le_groupSize {hi multiple n size : Nat} (hn : size ≤ n) (hhi : size ≤ hi)
    (hmultiple : size % multiple = 0) : size ≤ groupSize hi multiple n := by
  have hdiv : size / multiple ≤ min n hi / multiple :=
    Nat.div_le_div_right (Nat.le_min.2 ⟨hn, hhi⟩)
  have hmul := Nat.mul_le_mul_left multiple hdiv
  have hsize := Nat.div_add_mod size multiple
  have hmin := Nat.div_add_mod (min n hi) multiple
  rw [groupSize]
  omega

theorem groupSize_mod (hi multiple n : Nat) : groupSize hi multiple n % multiple = 0 :=
  Nat.sub_mod_eq_zero_of_mod_eq (Nat.mod_mod _ _).symm

theorem groupSize_of_few {hi multiple n : Nat} (h : n ≤ hi) :
    groupSize hi multiple n = n - n % multiple := by
  rw [groupSize, Nat.min_eq_left h]

/-- No group is larger than a full one. -/
theorem groupSize_le (hi multiple n : Nat) : groupSize hi multiple n ≤ hi - hi % multiple := by
  have hle : groupSize hi multiple n ≤ hi := Nat.le_trans (Nat.sub_le _ _) (Nat.min_le_right _ _)
  have hfull := le_groupSize hle hle (groupSize_mod hi multiple n)
  rwa [groupSize_of_few (Nat.le_refl hi)] at hfull

theorem groupSize_of_full {hi multiple n : Nat} (h : hi - hi % multiple ≤ n) :
    groupSize hi multiple n = hi - hi % multiple := by
  refine Nat.le_antisymm (groupSize_le hi multiple n) (le_groupSize h (Nat.sub_le _ _) ?_)
  exact Nat.sub_mod_eq_zero_of_mod_eq (Nat.mod_mod _ _).symm

namespace Greedy

variable {lo hi multiple : Nat} {b candidates later : List Pooled} {outer hit : Pooled} {r : Round}

/-- Users in a line form a group with the greatest multiple of their number, provided it is large
enough. The oldest ones stay. -/
theorem finalize_line (h : Line lo hi multiple (outer :: b)) (hpos : 0 < multiple)
    (hfew : multiple ≤ Surplus.maxMembers + 1) (hhi : b.length + 1 ≤ hi) {size : Nat}
    (hsize : size = b.length + 1 - (b.length + 1) % multiple) (hlo : lo ≤ size)
    (htwo : 2 ≤ size) : finalize outer b = some (outer :: b.take (size - 1)) := by
  have hb : Line lo hi multiple b := h.sublist (List.sublist_cons_self outer b)
  have houter := h.plain outer List.mem_cons_self
  have hlength : (Greedy.members b).length = b.length := List.length_map _
  have hle : (b.length + 1) % multiple ≤ b.length + 1 := Nat.mod_le _ _
  obtain ⟨plan, rest, hplans, hexcess, hkeeps⟩ := @Surplus.SingleFile.plans_spec _ hb.singleFile
    multiple lo hpos hfew (by rw [hlength]; omega) (by rw [hlength]; omega)
  rw [hlength] at hplans hexcess hkeeps
  have hcount : outer.ticket.count + entryCount b = b.length + 1 := by
    rw [houter.single, hb.entryCount]
    omega
  have haccepted := h.acceptsSize hlo (by omega) hpos
    (hsize ▸ Nat.sub_mod_eq_zero_of_mod_eq (Nat.mod_mod _ _).symm)
  have hsettle : settle? outer b (b.length + 1) plan = some (outer :: b.take (size - 1)) := by
    have hfinal : b.length + 1 - plan.excess = size := by omega
    have hkept : kept plan b = b.take (size - 1) := by
      rw [kept_eq_take hkeeps]
      congr 1
      omega
    have hstay : (b.take (size - 1)).isEmpty = false := by
      rw [List.isEmpty_eq_false_iff]
      refine List.ne_nil_of_length_pos ?_
      rw [List.length_take]
      omega
    have hall : (b.take (size - 1)).all (fun p => p.ticket.acceptsSize size) = true :=
      List.all_eq_true.2 fun p hp =>
        haccepted p (List.mem_cons_of_mem outer (List.mem_of_mem_take hp))
    unfold settle?
    simp only [hkept, hfinal, hstay, hall, haccepted outer List.mem_cons_self, Bool.not_false,
      Bool.and_self, if_true]
  unfold finalize
  simp only [hcount, houter.multiple, houter.minCount, hplans, List.findSome?_cons, hsettle]

/-! ## Filling one buffer -/

theorem compatibleWithAll_of_closed (hgate : ∀ i, r.precision.isOpen i = false) (p : Pooled)
    (others : List Pooled) : (Round.compatibleWithAll p others r).1 = true := by
  induction others generalizing r with
  | nil => rfl
  | cons m rest ih =>
    have hanswer : r.compatible m p = (true, { r with asked := r.asked + 1 }) := by
      rw [Round.compatible, hgate]
      rfl
    rw [Round.compatibleWithAll, hanswer]
    exact ih hgate

/-- A buffer, unless it is empty. -/
def slot (b : List Pooled) : List (List Pooled) := if b.isEmpty then [] else [b]

/-- The next user in the line joins the one buffer. -/
theorem place_line (h : Line lo hi multiple (outer :: (b ++ hit :: later)))
    (hgate : ∀ i, r.precision.isOpen i = false) (hroom : b.length + 2 ≤ hi) :
    ∃ r', (∀ i, r'.precision.isOpen i = false) ∧
      place outer hit (slot b) r = (slot (b ++ [hit]), b ++ [hit], r') := by
  cases b with
  | nil => exact ⟨r, hgate, rfl⟩
  | cons first b =>
    have hbuffer : Line lo hi multiple (first :: b) :=
      h.sublist (((List.sublist_append_left _ _).cons outer))
    have houter := h.plain outer List.mem_cons_self
    have hhit := h.plain hit (by simp)
    have hfull : ¬outer.ticket.maxCount <
        outer.ticket.count + entryCount (first :: b) + hit.ticket.count := by
      rw [houter.maxCount, houter.single, hhit.single, hbuffer.entryCount]
      omega
    have hclash : (first :: b).any (fun m => clash m hit) = false := by
      refine List.any_eq_false.2 fun m hm => ?_
      have hapart := (List.pairwise_append.1 (List.pairwise_cons.1 h.sessions).2).2.2
      have halone := (hbuffer.plain m hm).alone
      rw [clash, hapart m hm hit List.mem_cons_self, Ticket.partyConflict, halone]
      simp
    have hanswer := compatibleWithAll_of_closed hgate hit (first :: b)
    have hdel := Round.deliberates_compatibleWithAll hit (first :: b) r
    have hslot : slot (first :: b) = [first :: b] := rfl
    rw [hslot, place]
    simp only [hfull, hclash, decide_false, Bool.or_self, Bool.false_eq_true, if_false]
    generalize Round.compatibleWithAll hit (first :: b) r = asked at hanswer hdel ⊢
    obtain ⟨answer, r'⟩ := asked
    simp only at hanswer
    rw [hanswer]
    exact ⟨r', by rwa [hdel.precision], rfl⟩

/-- On the last interval one buffer is filled until it is full or nobody is left. -/
theorem fill_line {hits group : List Pooled} (h : Line lo hi multiple (outer :: (b ++ hits)))
    (hgate : ∀ i, r.precision.isOpen i = false) (hne : hits ≠ []) (hroom : b.length + 2 ≤ hi)
    {size : Nat} (hsize : size = min (b.length + hits.length + 1) hi) (hlo : lo ≤ size)
    (hgroup : finalize outer ((b ++ hits).take (size - 1)) = some group) :
    (fill outer true hits (slot b) r).1 = .inl group := by
  induction hits generalizing b r with
  | nil => exact absurd rfl hne
  | cons hit rest ih =>
    have houter := h.plain outer List.mem_cons_self
    have hhit := h.plain hit (by simp)
    have htaken : Line lo hi multiple (b ++ [hit]) := by
      refine h.sublist (List.Sublist.cons outer ?_)
      exact (List.Sublist.refl b).append (by simp)
    have hadm : admissible outer hit = true := by
      rw [admissible, houter.single, hhit.single, houter.maxCount, Ticket.partyConflict,
        houter.alone]
      simp
      omega
    have hcount : outer.ticket.count + entryCount (b ++ [hit]) = b.length + 2 := by
      rw [houter.single, htaken.entryCount, List.length_append, List.length_singleton]
      omega
    obtain ⟨r', hgate', hplace⟩ := place_line h hgate hroom
    rw [List.length_cons] at hsize
    rw [fill, if_pos hadm, hplace]
    simp only
    by_cases hlast : b.length + 2 = hi ∨ rest = []
    · -- the buffer is complete, and the group is made of it
      have hcomplete : complete outer true rest (b ++ [hit]) = true := by
        unfold complete
        simp only [hcount, houter.maxCount, houter.minCount]
        rcases hlast with hfull | hnobody
        · rw [hfull, beq_self_eq_true, Bool.true_or]
        · rw [hnobody, List.length_nil] at hsize
          rw [hnobody, List.any_nil, Bool.true_and, Bool.not_false, Bool.and_true,
            decide_eq_true (by omega), Bool.or_true]
      have hbuffer : (b ++ hit :: rest).take (size - 1) = b ++ [hit] := by
        have hlength : size - 1 = (b ++ [hit]).length := by
          rw [List.length_append, List.length_singleton]
          rcases hlast with hfull | hnobody
          · omega
          · rw [hnobody, List.length_nil] at hsize
            omega
        rw [List.append_cons, hlength, List.take_left]
      rw [hbuffer] at hgroup
      rw [if_pos hcomplete, hgroup]
    · obtain ⟨hnotfull, hsomebody⟩ := not_or.1 hlast
      have hincomplete : ¬complete outer true rest (b ++ [hit]) = true := by
        unfold complete
        obtain ⟨next, later, hrest⟩ := List.exists_cons_of_ne_nil hsomebody
        have hnext := h.plain next (by simp [hrest])
        have hfits : rest.any (fun next => decide (b.length + 2 + next.ticket.count ≤ hi)) =
            true := by
          refine List.any_eq_true.2 ⟨next, by simp [hrest], ?_⟩
          rw [hnext.single, decide_eq_true_eq]
          omega
        rw [hcount, houter.maxCount]
        simp only [hfits, Bool.not_true, Bool.and_false, Bool.or_false, beq_iff_eq]
        exact hnotfull
      rw [if_neg hincomplete]
      rw [List.append_cons] at h hgroup
      refine ih h hgate' hsomebody ?_ ?_ hgroup
      · rw [List.length_append, List.length_singleton]
        omega
      · rw [List.length_append, List.length_singleton]
        omega

/-! ## The group of a line -/

/-- If there are too few users, no group is formed, in whatever order they stand. -/
theorem assembleFor_eq_none (h : ∀ p ∈ outer :: candidates, Plain lo hi multiple p)
    (hsmall : ¬max lo 2 ≤ groupSize hi multiple (candidates.length + 1)) (last : Bool) (r : Round) :
    (assembleFor outer candidates last r).1 = none := by
  cases hgroup : (assembleFor outer candidates last r).1 with
  | none => rfl
  | some group =>
    -- whatever is formed would be a multiple and large enough
    obtain ⟨b, hb, hfin⟩ := (assembleFor_spec outer candidates last r).2 group hgroup
    obtain ⟨others, -, hne, hsub, haccepted⟩ := finalize_spec hfin
    have hothers : ∀ p ∈ outer :: others, Plain lo hi multiple p := fun p hp =>
      h p (((hsub.trans hb.sub).cons_cons outer).subset hp)
    have houter := h outer List.mem_cons_self
    have hsize := haccepted outer List.mem_cons_self
    rw [entryCount_of_plain hothers, Ticket.acceptsSize_iff, houter.minCount, houter.maxCount,
      houter.multiple, List.length_cons] at hsize
    obtain ⟨hlo, hhi, -, hmultiple⟩ := hsize
    have hlength := (hsub.trans hb.sub).length_le
    have hle := le_groupSize (n := candidates.length + 1) (by omega) hhi hmultiple
    have hsome := List.length_pos_iff.2 hne
    omega

/-- On its last interval the first user in a line forms the group of the oldest ones whose number is
as great as it can be, or none if that is too small. -/
theorem assembleFor_line (h : Line lo hi multiple (outer :: candidates)) (hpos : 0 < multiple)
    (hfew : multiple ≤ Surplus.maxMembers + 1) (hgate : ∀ i, r.precision.isOpen i = false) :
    (assembleFor outer candidates true r).1 =
      if max lo 2 ≤ groupSize hi multiple (candidates.length + 1) then
        some ((outer :: candidates).take (groupSize hi multiple (candidates.length + 1)))
      else none := by
  split
  · rename_i hlarge
    have hsize := hlarge
    rw [groupSize] at hsize
    have hlength : (candidates.take (min (candidates.length + 1) hi - 1)).length + 1 =
        min (candidates.length + 1) hi := by
      rw [List.length_take]
      omega
    have hline : Line lo hi multiple
        (outer :: candidates.take (min (candidates.length + 1) hi - 1)) :=
      h.sublist ((List.take_sublist _ _).cons_cons outer)
    have hgroup : groupSize hi multiple (candidates.length + 1) =
        (candidates.take (min (candidates.length + 1) hi - 1)).length + 1 -
          ((candidates.take (min (candidates.length + 1) hi - 1)).length + 1) % multiple := by
      rw [hlength, groupSize]
    have hfinal := finalize_line hline hpos hfew (by omega) hgroup (by omega) (by omega)
    have hne : candidates ≠ [] := by
      rintro rfl
      rw [List.length_nil] at hsize
      omega
    have hfill := @fill_line lo hi multiple [] outer r candidates _ h hgate hne (by simp; omega)
      (min (candidates.length + 1) hi) (by simp) (by omega) hfinal
    have hslot : slot [] = [] := rfl
    rw [hslot] at hfill
    rw [assembleFor]
    generalize fill outer true candidates [] r = filled at hfill ⊢
    obtain ⟨result, r'⟩ := filled
    simp only at hfill
    rw [hfill]
    -- what stays of the buffer are the first ones of the line
    have htake : (candidates.take (min (candidates.length + 1) hi - 1)).take
        (groupSize hi multiple (candidates.length + 1) - 1) =
        candidates.take (groupSize hi multiple (candidates.length + 1) - 1) := by
      rw [List.take_take, groupSize]
      congr 1
      omega
    obtain ⟨n, hn⟩ := Nat.exists_eq_add_of_le' (show 1 ≤ groupSize hi multiple
      (candidates.length + 1) by omega)
    rw [htake, hn, Nat.add_sub_cancel, List.take_succ_cons]
  · rename_i hsmall
    exact assembleFor_eq_none h.plain hsmall true r

end Greedy

/-! ## All groups of a line -/

section LineGroups

variable {lo hi multiple : Nat} {α β : Type}

/-- The groups that a line of users forms. The size of a full group is the greatest multiple up to
the greatest size. There are as many full groups as the line has room for, the oldest users first,
and one more group of the oldest of those who are left over, as many of them as are a multiple; but
no group is too small. -/
def lineGroups (lo hi multiple : Nat) (ts : List α) : List (List α) :=
  let full := hi - hi % multiple
  if full < max lo 2 then []
  else
    let left := ts.length % full
    let last := left - left % multiple
    (List.range (ts.length / full)).map (fun i => (ts.drop (i * full)).take full) ++
      if max lo 2 ≤ last then [(ts.drop (ts.length / full * full)).take last] else []

theorem lineGroups_map (f : α → β) (ts : List α) :
    lineGroups lo hi multiple (ts.map f) = (lineGroups lo hi multiple ts).map (List.map f) := by
  unfold lineGroups
  simp only [List.length_map]
  split
  · rfl
  · split <;> simp [Function.comp_def, List.map_drop, List.map_take]

/-- As long as there are enough for a full group, the oldest ones form one. -/
theorem lineGroups_of_full {ts : List α} (hlarge : max lo 2 ≤ hi - hi % multiple)
    (hfull : hi - hi % multiple ≤ ts.length) :
    lineGroups lo hi multiple ts = ts.take (hi - hi % multiple) ::
      lineGroups lo hi multiple (ts.drop (hi - hi % multiple)) := by
  unfold lineGroups
  generalize hi - hi % multiple = full at hlarge hfull ⊢
  have hpos : 0 < full := by omega
  have hmod : ts.length % full = (ts.length - full) % full := Nat.mod_eq_sub_mod hfull
  have hdiv : ts.length / full = (ts.length - full) / full + 1 :=
    Nat.div_eq_sub_div hpos hfull
  have hnext : ∀ k, (k + 1) * full = full + k * full := fun k => by rw [Nat.succ_mul, Nat.add_comm]
  simp only [if_neg (Nat.not_lt.2 hlarge), List.length_drop, List.drop_drop, hmod, hdiv, hnext,
    List.range_succ_eq_map, List.map_cons, List.map_map, Function.comp_def, Nat.zero_mul,
    List.drop_zero, List.cons_append, Nat.succ_eq_add_one]

theorem lineGroups_of_few {ts : List α} (hlarge : max lo 2 ≤ hi - hi % multiple)
    (hfew : ts.length < hi - hi % multiple) :
    lineGroups lo hi multiple ts =
      if max lo 2 ≤ ts.length - ts.length % multiple then
        [ts.take (ts.length - ts.length % multiple)]
      else [] := by
  unfold lineGroups
  simp only [if_neg (Nat.not_lt.2 hlarge), Nat.div_eq_of_lt hfew, Nat.mod_eq_of_lt hfew,
    List.range_zero, List.map_nil, List.nil_append, Nat.zero_mul, List.drop_zero]

/-- The oldest users in a line form the first group, and the others the other ones. -/
theorem lineGroups_step (hpos : 0 < multiple) (ts : List α) :
    lineGroups lo hi multiple ts =
      if max lo 2 ≤ groupSize hi multiple ts.length then
        ts.take (groupSize hi multiple ts.length) ::
          lineGroups lo hi multiple (ts.drop (groupSize hi multiple ts.length))
      else [] := by
  by_cases hlarge : max lo 2 ≤ hi - hi % multiple
  · rcases Nat.lt_or_ge ts.length (hi - hi % multiple) with hfew | hfull
    · have hmod : ts.length % multiple < hi - hi % multiple :=
        Nat.lt_of_le_of_lt (Nat.mod_le _ _) hfew
      have hlt := Nat.mod_lt ts.length hpos
      have hleft : ts.length - (ts.length - ts.length % multiple) = ts.length % multiple :=
        Nat.sub_sub_self (Nat.mod_le _ _)
      have hnobody : ¬max lo 2 ≤ 0 := by omega
      rw [groupSize_of_few (by omega), lineGroups_of_few hlarge hfew,
        lineGroups_of_few hlarge (by rwa [List.length_drop, hleft]), List.length_drop, hleft,
        Nat.mod_mod, Nat.sub_self, if_neg hnobody]
    · rw [groupSize_of_full hfull, if_pos hlarge, lineGroups_of_full hlarge hfull]
  · have hsmall := groupSize_le hi multiple ts.length
    rw [if_neg (by omega)]
    unfold lineGroups
    simp only [if_pos (Nat.not_le.1 hlarge)]

example : lineGroups 2 5 2 (List.range 7) = [[0, 1, 2, 3], [4, 5]] := by decide

end LineGroups

end Matchmaking
