import Matchmaking.Proofs.Buffers
import Matchmaking.Proofs.Reckoning

/-!
# Filling groups in machine numbers

What an outer ticket does with its candidates, in machine numbers: the sizes of groups are added up
entry by entry whenever they are asked for, and what remains under a plan is a difference. If the
outer ticket and its candidates have fewer than 2 ^ 63 entries altogether no operation leaves the
machine numbers, and what comes of it is what is calculated exactly
(`Greedy.checkedAssembleFor_eq`).
-/

namespace Matchmaking

open Machine

/-- Whether a ticket accepts a size; the remainder by its multiple is only asked for if there is
one. -/
def Ticket.checkedAcceptsSize (t : Ticket) (size : Nat) : Option Bool :=
  if t.minCount ≤ size ∧ size ≤ t.maxCount ∧ 0 < t.multiple then do
    let rest ← rem? size t.multiple
    return rest == 0
  else some false

theorem Ticket.checkedAcceptsSize_eq (t : Ticket) (size : Nat) :
    t.checkedAcceptsSize size = some (t.acceptsSize size) := by
  unfold checkedAcceptsSize acceptsSize
  split
  · rename_i h
    rw [rem?_eq h.2.2.ne', decide_eq_true h.1, decide_eq_true h.2.1, decide_eq_true h.2.2]
    rfl
  · rename_i h
    refine congrArg some (Eq.symm (Bool.eq_false_iff.2 fun haccepts => h ?_))
    simp only [Bool.and_eq_true, decide_eq_true_eq] at haccepts
    exact ⟨haccepts.1.1.1, haccepts.1.1.2, haccepts.1.2⟩

namespace Greedy

/-! ## What is calculated -/

/-- The numbers of entries of some tickets. -/
def counts (ts : List Pooled) : List Nat := ts.map fun p => p.ticket.count

/-- The size of a group of an outer ticket and a buffer. -/
def checkedSize (outer : Pooled) (buffer : List Pooled) : Option Nat := do
  let count ← sum? 0 (counts buffer)
  add? outer.ticket.count count

/-- The members of the group under a plan, if all of them accept its size; what remains is a
difference. -/
def checkedSettle (outer : Pooled) (buffer : List Pooled) (size : Nat) (plan : Surplus.Plan) :
    Option (Option (List Pooled)) := do
  let final ← sub? size plan.excess
  let stay := kept plan buffer
  if stay.isEmpty then return none
  else if ← outer.ticket.checkedAcceptsSize final then
    if ← stay.allM fun p => p.ticket.checkedAcceptsSize final then return some (outer :: stay)
    else return none
  else return none

/-- The members of the group that an outer ticket and a buffer form, by the first plan that all of
them accept. -/
def checkedFinalize (outer : Pooled) (buffer : List Pooled) : Option (Option (List Pooled)) := do
  let size ← checkedSize outer buffer
  let plans ← Surplus.checkedPlans (members buffer) size outer.ticket.multiple outer.ticket.minCount
  plans.findSomeM? (checkedSettle outer buffer size)

/-- Puts a candidate into the first buffer that takes it; the size of each buffer is added up to see
whether there is room. -/
def checkedPlace (outer hit : Pooled) :
    List (List Pooled) → Round → Option (List (List Pooled) × List Pooled × Round)
  | [], r => some ([[hit]], [hit], r)
  | b :: rest, r => do
    let size ← checkedSize outer b
    let more ← add? size hit.ticket.count
    if outer.ticket.maxCount < more || b.any fun m => clash m hit then
      let (rest, taken, r) ← checkedPlace outer hit rest r
      return (b :: rest, taken, r)
    else match Round.compatibleWithAll hit b r with
      | (true, r) => return ((b ++ [hit]) :: rest, b ++ [hit], r)
      | (false, r) =>
        let (rest, taken, r) ← checkedPlace outer hit rest r
        return (b :: rest, taken, r)

/-- Whether there is room for a candidate beside the outer ticket at all. -/
def checkedAdmissible (outer hit : Pooled) : Option Bool := do
  let size ← add? outer.ticket.count hit.ticket.count
  return size ≤ outer.ticket.maxCount && !outer.ticket.partyConflict hit.ticket

/-- Whether a buffer is complete; on the last interval each later candidate is added to its size. -/
def checkedComplete (outer : Pooled) (last : Bool) (later buffer : List Pooled) : Option Bool := do
  let size ← checkedSize outer buffer
  if size = outer.ticket.maxCount then return true
  else if last && outer.ticket.minCount ≤ size then
    let fits ← later.anyM fun next => do
      let more ← add? size next.ticket.count
      return more ≤ outer.ticket.maxCount
    return !fits
  else return false

/-- Distributes candidates until a group is formed; gives back its members, or the buffers. -/
def checkedFill (outer : Pooled) (last : Bool) : List Pooled → List (List Pooled) → Round →
    Option ((List Pooled ⊕ List (List Pooled)) × Round)
  | [], buffers, r => some (.inr buffers, r)
  | hit :: rest, buffers, r => do
    if ← checkedAdmissible outer hit then
      let (buffers, taken, r) ← checkedPlace outer hit buffers r
      if ← checkedComplete outer last rest taken then
        match ← checkedFinalize outer taken with
        | some group => return (.inl group, r)
        | none => checkedFill outer last rest buffers r
      else checkedFill outer last rest buffers r
    else checkedFill outer last rest buffers r

/-- The members of the first group among some buffers, up to one that is not large enough. -/
def checkedFirst (outer : Pooled) : List (List Pooled) → Option (Option (List Pooled))
  | [] => some none
  | b :: rest => do
    let size ← checkedSize outer b
    if size < outer.ticket.minCount then return none
    else match ← checkedFinalize outer b with
      | some group => return some group
      | none => checkedFirst outer rest

/-- The members of the first group among the buffers that are large enough; the largest come first,
by sizes that are added up before. -/
def checkedSettleForLess (outer : Pooled) (buffers : List (List Pooled)) :
    Option (Option (List Pooled)) := do
  let sized ← buffers.mapM fun b => do
    let count ← sum? 0 (counts b)
    return (count, b)
  checkedFirst outer ((sized.mergeSort fun a b => b.1 ≤ a.1).map Prod.snd)

/-- The members of the group that an outer ticket forms with its candidates. -/
def checkedAssembleFor (outer : Pooled) (candidates : List Pooled) (last : Bool) (r : Round) :
    Option (Option (List Pooled) × Round) := do
  match ← checkedFill outer last candidates [] r with
  | (.inl group, r) => return (some group, r)
  | (.inr buffers, r) =>
    if last then
      let group ← checkedSettleForLess outer buffers
      return (group, r)
    else return (none, r)

/-! ## Groups -/

variable {outer hit : Pooled} {later taken b : List Pooled} {buffers : List (List Pooled)}
  {total : Nat}

theorem sum_counts (ts : List Pooled) : (counts ts).sum = entryCount ts :=
  (entryCount_eq_sum ts).symm

/-- Some tickets have no more than `total` entries, and were made in milliseconds that the machine
keeps. -/
structure Bounded (total : Nat) (ts : List Pooled) : Prop where
  entries : entryCount ts ≤ total
  millis : ∀ p ∈ ts, IsMillis p.ticket.createdMillis

theorem Bounded.sublist {ts us : List Pooled} (h : Bounded total ts) (hsub : us.Sublist ts) :
    Bounded total us := by
  refine ⟨?_, fun p hp => h.millis p (hsub.subset hp)⟩
  have hle : (counts us).sum ≤ (counts ts).sum :=
    (hsub.map _).sum_le_sum fun _ _ => Nat.zero_le _
  rw [sum_counts, sum_counts] at hle
  exact hle.trans h.entries

theorem sum?_counts_eq (houter : outer.ticket.count + total < 2 ^ 63) (h : Bounded total b) :
    sum? 0 (counts b) = some (entryCount b) := by
  have hentries := h.entries
  rw [sum?_eq (by rw [sum_counts]; omega), sum_counts, Nat.zero_add]

theorem checkedSize_eq (houter : outer.ticket.count + total < 2 ^ 63) (h : Bounded total b) :
    checkedSize outer b = some (outer.ticket.count + entryCount b) := by
  have hentries := h.entries
  rw [checkedSize, sum?_counts_eq houter h]
  exact add?_eq (by omega)

theorem checkedSettle_eq {size : Nat} {plan : Surplus.Plan} (h : plan.excess ≤ size) :
    checkedSettle outer b size plan = some (settle? outer b size plan) := by
  have hall := allM_eq_some (l := kept plan b)
    fun p _ => p.ticket.checkedAcceptsSize_eq (size - plan.excess)
  simp only [checkedSettle, settle?, sub?_eq h, outer.ticket.checkedAcceptsSize_eq, hall,
    Option.bind_eq_bind, Option.bind_some]
  cases (kept plan b).isEmpty <;> cases outer.ticket.acceptsSize (size - plan.excess) <;>
    cases (kept plan b).all fun p => p.ticket.acceptsSize (size - plan.excess) <;> rfl

theorem checkedFinalize_eq (houter : outer.ticket.count + total < 2 ^ 63) (h : Bounded total b) :
    checkedFinalize outer b = some (finalize outer b) := by
  have hentries := h.entries
  have hmembers : ((members b).map Surplus.Member.count).sum = entryCount b := by
    rw [members, List.map_map, entryCount_eq_sum]
    rfl
  have hmillis : ∀ m ∈ members b, IsMillis m.createdMillis := by
    intro m hm
    obtain ⟨p, hp, rfl⟩ := List.mem_map.1 hm
    exact h.millis p hp
  have hsize : outer.ticket.count + entryCount b < 2 ^ 63 := by omega
  have hplans := Surplus.checkedPlans_eq hsize (by rw [hmembers]; omega) hmillis
    outer.ticket.multiple outer.ticket.minCount
  rw [checkedFinalize, checkedSize_eq houter h]
  simp only [Option.bind_eq_bind, Option.bind_some, hplans]
  refine findSomeM?_eq_some fun plan hplan => checkedSettle_eq ?_
  rcases Nat.eq_zero_or_pos outer.ticket.multiple with hzero | hpos
  · rw [hzero] at hplan
    cases hplan
  · exact ((Surplus.mem_plans_iff hpos).1 hplan).1.some_stay.le

/-! ## Buffers -/

/-- Any buffer and all candidates to come are bounded together. -/
structure Within (total : Nat) (later : List Pooled) (buffers : List (List Pooled)) : Prop where
  toCome : Bounded total later
  each : ∀ b ∈ buffers, Bounded total (b ++ later)

theorem Within.skip (h : Within total (hit :: later) buffers) : Within total later buffers where
  toCome := h.toCome.sublist (List.sublist_cons_self hit later)
  each b hb := (h.each b hb).sublist ((List.sublist_cons_self hit later).append_left b)

/-- A candidate that was to come is in a buffer now. -/
theorem Within.place (h : Within total (hit :: later) buffers) (outer : Pooled) (r : Round) :
    Within total later (place outer hit buffers r).1 := by
  refine ⟨h.skip.toCome, ?_⟩
  refine (placed_place outer hit buffers r).keeps h.skip.each h.toCome fun b hb _ _ _ => ?_
  rw [List.append_assoc]
  exact h.each b hb

theorem Within.tail {b : List Pooled} (h : Within total later (b :: buffers)) :
    Within total later buffers := ⟨h.toCome, fun c hc => h.each c (List.mem_cons_of_mem b hc)⟩

theorem Within.bounded (h : Within total later buffers) (hb : b ∈ buffers) : Bounded total b :=
  (h.each b hb).sublist (List.sublist_append_left b later)

theorem checkedAdmissible_eq (houter : outer.ticket.count + total < 2 ^ 63)
    (h : Within total (hit :: later) buffers) :
    checkedAdmissible outer hit = some (admissible outer hit) := by
  have hentries := h.toCome.entries
  rw [entryCount_cons] at hentries
  rw [checkedAdmissible, add?_eq (by omega)]
  rfl

theorem checkedPlace_eq (houter : outer.ticket.count + total < 2 ^ 63)
    (h : Within total (hit :: later) buffers) (r : Round) :
    checkedPlace outer hit buffers r = some (place outer hit buffers r) := by
  induction buffers generalizing r with
  | nil => rfl
  | cons b rest ih =>
    have hentries := (h.each b List.mem_cons_self).entries
    rw [entryCount_append, entryCount_cons] at hentries
    have hmore : add? (outer.ticket.count + entryCount b) hit.ticket.count =
        some (outer.ticket.count + entryCount b + hit.ticket.count) := add?_eq (by omega)
    rw [checkedPlace, checkedSize_eq houter (h.bounded List.mem_cons_self)]
    unfold place
    simp only [Option.bind_eq_bind, Option.bind_some, hmore, ih h.tail]
    generalize Round.compatibleWithAll hit b r = answer
    obtain ⟨agrees, r₁⟩ := answer
    split
    · rfl
    · cases agrees <;> rfl

theorem checkedComplete_eq (houter : outer.ticket.count + total < 2 ^ 63)
    (h : Bounded total (taken ++ later)) (last : Bool) :
    checkedComplete outer last later taken = some (complete outer last later taken) := by
  have hentries := h.entries
  rw [entryCount_append] at hentries
  have hany := anyM_eq_some (l := later)
    (f := fun next => do
      let more ← add? (outer.ticket.count + entryCount taken) next.ticket.count
      return decide (more ≤ outer.ticket.maxCount))
    (g := fun next => decide
      (outer.ticket.count + entryCount taken + next.ticket.count ≤ outer.ticket.maxCount))
    fun next hnext => by
      have hle : next.ticket.count ≤ (counts later).sum :=
        List.le_sum_of_mem (List.mem_map_of_mem hnext)
      rw [sum_counts] at hle
      rw [add?_eq (by omega)]
      rfl
  rw [checkedComplete, checkedSize_eq houter (h.sublist (List.sublist_append_left taken later))]
  simp only [Option.bind_eq_bind, Option.bind_some] at hany ⊢
  rw [hany, complete]
  split
  · rename_i hfull
    rw [beq_iff_eq.2 hfull]
    rfl
  · rename_i hfull
    rw [beq_eq_false_iff_ne.2 hfull, Bool.false_or]
    cases last && decide (outer.ticket.minCount ≤ outer.ticket.count + entryCount taken) <;> rfl

/-- The distribution of the candidates is the one that is calculated exactly, and what is left of it
is bounded. -/
theorem checkedFill_eq (houter : outer.ticket.count + total < 2 ^ 63) (last : Bool)
    {hits : List Pooled} (h : Within total hits buffers) (r : Round) :
    checkedFill outer last hits buffers r = some (fill outer last hits buffers r) ∧
      ∀ bs, (fill outer last hits buffers r).1 = .inr bs → ∀ b ∈ bs, Bounded total b := by
  induction hits generalizing buffers r with
  | nil =>
    refine ⟨rfl, fun bs hbs b hb => ?_⟩
    rw [← Sum.inr.inj hbs] at hb
    exact h.bounded hb
  | cons hit rest ih =>
    rw [checkedFill, checkedAdmissible_eq houter h]
    unfold fill
    simp only [Option.bind_eq_bind, Option.bind_some]
    split
    · have hplaced := h.place outer r
      have htaken := (placed_place outer hit buffers r).mem
      rw [checkedPlace_eq houter h]
      generalize place outer hit buffers r = result at hplaced htaken ⊢
      obtain ⟨placed, taken, r₁⟩ := result
      have hcomplete := checkedComplete_eq houter (hplaced.each taken htaken) last
      simp only [Option.bind_some, hcomplete]
      split
      · rw [checkedFinalize_eq houter (hplaced.bounded htaken)]
        cases finalize outer taken with
        | none => exact ih hplaced r₁
        | some group => exact ⟨rfl, fun bs hbs => by cases hbs⟩
      · exact ih hplaced r₁
    · exact ih h.skip r

theorem checkedFirst_eq (houter : outer.ticket.count + total < 2 ^ 63)
    (h : ∀ b ∈ buffers, Bounded total b) :
    checkedFirst outer buffers =
      some ((buffers.takeWhile fun b => decide
        (outer.ticket.minCount ≤ outer.ticket.count + entryCount b)).findSome?
          (finalize outer)) := by
  induction buffers with
  | nil => rfl
  | cons b rest ih =>
    obtain ⟨hb, hrest⟩ := List.forall_mem_cons.1 h
    rw [checkedFirst, checkedSize_eq houter hb, List.takeWhile_cons]
    simp only [Option.bind_eq_bind, Option.bind_some]
    split
    · rename_i hsmall
      rw [if_neg (by rw [decide_eq_true_eq]; omega)]
      rfl
    · rename_i hlarge
      rw [if_pos (decide_eq_true (Nat.not_lt.1 hlarge)), checkedFinalize_eq houter hb,
        List.findSome?_cons]
      simp only [Option.bind_some]
      cases finalize outer b with
      | none => exact ih hrest
      | some group => rfl

theorem checkedSettleForLess_eq (houter : outer.ticket.count + total < 2 ^ 63)
    (h : ∀ b ∈ buffers, Bounded total b) :
    checkedSettleForLess outer buffers = some (settleForLess outer buffers) := by
  have hsized := mapM_eq_some (l := buffers)
    (f := fun b => do
      let count ← sum? 0 (counts b)
      return (count, b))
    (g := fun b => (entryCount b, b)) fun b hb => by rw [sum?_counts_eq houter (h b hb)]; rfl
  have hsorted := List.map_mergeSort (l := buffers) (f := fun b => (entryCount b, b))
    (r := fun a b => decide (entryCount b ≤ entryCount a))
    (s := fun a b => decide (b.1 ≤ a.1)) fun a _ b _ => rfl
  simp only [Option.bind_eq_bind] at hsized
  rw [checkedSettleForLess]
  simp only [Option.bind_eq_bind, hsized, Option.bind_some, ← hsorted, List.map_map]
  rw [show (Prod.snd ∘ fun b : List Pooled => (entryCount b, b)) = id from rfl, List.map_id]
  exact checkedFirst_eq houter fun b hb => h b ((List.mergeSort_perm _ _).mem_iff.1 hb)

/-- Whatever an outer ticket does with its candidates is done in machine numbers if all of them fit
together. -/
theorem checkedAssembleFor_eq {candidates : List Pooled}
    (houter : outer.ticket.count + total < 2 ^ 63) (h : Bounded total candidates) (last : Bool)
    (r : Round) : checkedAssembleFor outer candidates last r =
      some (assembleFor outer candidates last r) := by
  have hnone : Within total candidates [] := ⟨h, by simp⟩
  obtain ⟨hfill, hleft⟩ := checkedFill_eq houter last hnone r
  rw [checkedAssembleFor, hfill]
  unfold assembleFor
  generalize fill outer last candidates [] r = result at hleft ⊢
  obtain ⟨outcome, r₁⟩ := result
  cases outcome with
  | inl group => rfl
  | inr bs =>
    simp only [Option.bind_eq_bind, Option.bind_some]
    cases last with
    | true => rw [checkedSettleForLess_eq houter (hleft bs rfl)]; rfl
    | false => rfl

end Greedy

end Matchmaking
