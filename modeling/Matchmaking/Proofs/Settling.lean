import Matchmaking.Proofs.Bookings
import Matchmaking.Proofs.Lines
import Matchmaking.Proofs.Plans
import Matchmaking.Proofs.Rankings
import Matchmaking.Proofs.Trimming

/-!
# What a buffer settles for

An outer ticket and a buffer settle under a plan if somebody stays and all of them accept the size
that remains. Of the plans under which they settle the one with the least excess is taken. Before
its last interval an outer ticket waits for a buffer that is full, but this may settle for less than
the largest multiple: if no plan leaves just that, or not all who stay accept it. Main statement:
`settles_of_forms`.
-/

namespace Matchmaking

/-- The largest size that a ticket may accept: the largest multiple that is not above its maximum.
-/
def Ticket.fullSize (t : Ticket) : Nat := t.maxCount - t.maxCount % t.multiple

theorem Ticket.le_fullSize {t : Ticket} {size : Nat} (h : t.acceptsSize size = true) :
    size ≤ t.fullSize := by
  obtain ⟨-, hmax, -, hmod⟩ := acceptsSize_iff.1 h
  rw [fullSize, ← groupSize_of_few (Nat.le_refl t.maxCount)]
  exact le_groupSize hmax hmax hmod

namespace Greedy

variable {outer : Pooled} {active : Bool} {b seen candidates group : List Pooled} {r r₁ : Round}
  {p q : Surplus.Plan} {g : Group}

/-! ## The least excess -/

/-- An outer ticket and a buffer settle under a plan: it is the plan for its excess, it leaves
something, somebody stays, and the outer ticket and all who stay accept the size that remains. -/
structure Settles (outer : Pooled) (b : List Pooled) (p : Surplus.Plan) : Prop where
  plan : Surplus.plan? (members b) p.excess = some p
  remains : p.excess < outer.ticket.count + entryCount b
  stays : kept p b ≠ []
  accepted : ∀ m ∈ outer :: kept p b,
    m.ticket.acceptsSize (outer.ticket.count + entryCount b - p.excess) = true

theorem settle_eq_some_iff {size : Nat} : settle? outer b size p = some group ↔
    kept p b ≠ [] ∧ (∀ m ∈ outer :: kept p b, m.ticket.acceptsSize (size - p.excess) = true) ∧
      group = outer :: kept p b := by
  unfold settle?
  simp only [Option.ite_none_right_eq_some, Bool.and_eq_true, Bool.not_eq_true',
    List.isEmpty_eq_false_iff, List.all_eq_true, Option.some.injEq, List.forall_mem_cons, and_assoc]
  rw [@eq_comm _ group]

/-- The plans under which an outer ticket and a buffer settle are tried. -/
theorem Settles.mem_plans (h : Settles outer b p) :
    p ∈ Surplus.plans (members b) (outer.ticket.count + entryCount b) outer.ticket.multiple
      outer.ticket.minCount := by
  obtain ⟨hmin, -, hpos, hmod⟩ := Ticket.acceptsSize_iff.1 (h.accepted outer List.mem_cons_self)
  have hsize : outer.ticket.count + entryCount b - p.excess + p.excess =
      outer.ticket.count + entryCount b := Nat.sub_add_cancel h.remains.le
  have hcongr : p.excess % outer.ticket.multiple =
      (outer.ticket.count + entryCount b) % outer.ticket.multiple := by
    rw [← hsize, Nat.add_mod, hmod, Nat.zero_add, Nat.mod_mod]
  exact (Surplus.mem_plans_iff hpos).2 ⟨⟨hcongr, h.remains, hmin⟩, h.plan⟩

theorem settles_of_settle
    (hp : p ∈ Surplus.plans (members b) (outer.ticket.count + entryCount b) outer.ticket.multiple
      outer.ticket.minCount)
    (h : settle? outer b (outer.ticket.count + entryCount b) p = some group) :
    Settles outer b p ∧ group = outer :: kept p b := by
  obtain ⟨hne, haccepted, hgroup⟩ := settle_eq_some_iff.1 h
  have hpos := (Ticket.acceptsSize_iff.1 (haccepted outer List.mem_cons_self)).2.2.1
  obtain ⟨htried, hplan⟩ := (Surplus.mem_plans_iff hpos).1 hp
  exact ⟨⟨hplan, htried.some_stay, hne, haccepted⟩, hgroup⟩

/-- The group that comes of a buffer is what the plan with the least excess leaves, of all under
which the outer ticket and the buffer settle. -/
theorem finalize_eq_some_iff : finalize outer b = some group ↔
    ∃ p, Settles outer b p ∧ (∀ q, Settles outer b q → p.excess ≤ q.excess) ∧
      group = outer :: kept p b := by
  have hsorted := Surplus.pairwise_plans (members b) (outer.ticket.count + entryCount b)
    outer.ticket.multiple outer.ticket.minCount
  unfold finalize
  constructor
  · intro h
    obtain ⟨before, p, after, hplans, hsettle, hnone⟩ := List.findSome?_eq_some_iff.1 h
    have hp := hplans ▸ List.mem_append_right before List.mem_cons_self
    obtain ⟨hsettles, hgroup⟩ := settles_of_settle hp hsettle
    refine ⟨p, hsettles, fun q hq => ?_, hgroup⟩
    have hmem := hq.mem_plans
    rw [hplans] at hmem hsorted
    rcases List.mem_append.1 hmem with hbefore | hmem
    · have hq' := settle_eq_some_iff.2 ⟨hq.stays, hq.accepted, rfl⟩
      rw [hnone q hbefore] at hq'
      cases hq'
    · rcases List.mem_cons.1 hmem with rfl | hafter
      · exact Nat.le_refl _
      · have hlater := (List.pairwise_append.1 hsorted).2.1
        exact ((List.pairwise_cons.1 hlater).1 q hafter).le
  · rintro ⟨p, hsettles, hleast, rfl⟩
    have hp' := settle_eq_some_iff.2 ⟨hsettles.stays, hsettles.accepted, rfl⟩
    obtain ⟨before, after, hplans⟩ := List.append_of_mem hsettles.mem_plans
    refine List.findSome?_eq_some_iff.2 ⟨before, p, after, hplans, hp', fun q hq => ?_⟩
    refine Option.eq_none_iff_forall_ne_some.2 fun group hgroup => ?_
    have hmem : q ∈ before ++ p :: after := List.mem_append_left _ hq
    rw [← hplans] at hmem
    have hle := hleast q (settles_of_settle hmem hgroup).1
    rw [hplans] at hsorted
    have hlt := (List.pairwise_append.1 hsorted).2.2 q hq p List.mem_cons_self
    omega

/-! ## Full buffers -/

/-- The group that is formed while candidates are distributed comes of a buffer that is complete. -/
theorem exists_complete_of_fill {last : Bool} {hits : List Pooled} {buffers : List (List Pooled)}
    (hfilled : ∀ b ∈ buffers, Filled outer seen b)
    (h : (fill outer last hits buffers r).1 = .inl group) :
    ∃ b later, Filled outer (seen ++ hits) b ∧ complete outer last later b = true ∧
      finalize outer b = some group := by
  induction hits generalizing seen buffers r with
  | nil => cases h
  | cons hit rest ih =>
    rw [List.append_cons]
    unfold fill at h
    split at h
    · rename_i hadm
      have hplaced : ∀ b ∈ (place outer hit buffers r).1, Filled outer (seen ++ [hit]) b :=
        filled_place hadm hfilled
      have htaken := (placed_place outer hit buffers r).mem
      simp only at h
      split at h
      · rename_i hcomplete
        split at h
        · rename_i group' hgroup
          rw [Sum.inl.inj h] at hgroup
          have hfull := (hplaced _ htaken).mono (List.sublist_append_left (seen ++ [hit]) rest)
          exact ⟨_, rest, hfull, hcomplete, hgroup⟩
        · exact ih hplaced h
      · exact ih hplaced h
    · exact ih (fun b hb => (hfilled b hb).mono (List.sublist_append_left seen [hit])) h

/-- Before its last interval an outer ticket forms a group of a full buffer only. -/
theorem full_of_assembleFor (h : (assembleFor outer candidates false r).1 = some group) :
    ∃ b, Filled outer candidates b ∧ outer.ticket.count + entryCount b = outer.ticket.maxCount ∧
      finalize outer b = some group := by
  have hfill : (fill outer false candidates [] r).1 = .inl group := by
    unfold assembleFor at h
    generalize fill outer false candidates [] r = filled at h ⊢
    obtain ⟨group' | buffers, r₁⟩ := filled
    · exact congrArg Sum.inl (Option.some.inj h)
    · cases h
  obtain ⟨b, later, hfilled, hcomplete, hfinal⟩ :=
    @exists_complete_of_fill outer [] group r false candidates [] (by simp) hfill
  simp only [complete, Bool.false_and, Bool.or_false, beq_iff_eq] at hcomplete
  exact ⟨b, hfilled, hcomplete, hfinal⟩

/-! ## The groups of a pass -/

/-- In a pass an outer ticket has its turn, in a state that the turns before have left, and forms a
group. -/
structure Forms (r : Round) (outer : Pooled) (active : Bool) (r₁ : Round) (g : Group) : Prop where
  comes : ∃ before after, r.order = before ++ (outer, active) :: after ∧ r₁ = (turns before r).2
  forms : (turn outer active r₁).1 = some g

theorem mem_turns_iff {order : List (Pooled × Bool)} : g ∈ (turns order r).1 ↔
    ∃ before outer active after, order = before ++ (outer, active) :: after ∧
      (turn outer active (turns before r).2).1 = some g := by
  induction order generalizing r with
  | nil => simp [turns]
  | cons first rest ih =>
    obtain ⟨outer, active⟩ := first
    have hcons : (turns ((outer, active) :: rest) r).1 =
        (turn outer active r).1.toList ++ (turns rest (turn outer active r).2).1 := rfl
    rw [hcons, List.mem_append, Option.mem_toList, ih]
    constructor
    · rintro (h | ⟨before, other, isActive, after, rfl, h⟩)
      · exact ⟨[], outer, active, rest, rfl, h⟩
      · exact ⟨(outer, active) :: before, other, isActive, after, rfl, h⟩
    · rintro ⟨before, other, isActive, after, hsplit, h⟩
      cases before with
      | nil =>
        obtain ⟨hfirst, -⟩ := List.cons.inj hsplit
        obtain ⟨rfl, rfl⟩ := Prod.mk.inj hfirst
        exact Or.inl h
      | cons first before =>
        obtain ⟨rfl, rfl⟩ := List.cons.inj hsplit
        exact Or.inr ⟨before, other, isActive, after, rfl, h⟩

/-- The groups of a pass that does not break down are those that outer tickets form in their turns.
-/
theorem mem_assemble_iff {groups : List Group} (h : (assemble r).1 = .ok groups) :
    g ∈ groups ↔ ∃ outer active r₁, Forms r outer active r₁ g := by
  rw [assemble_of_unbroken (unbroken_of_assemble h)] at h
  rw [← Except.ok.inj h, mem_turns_iff]
  constructor
  · rintro ⟨before, outer, active, after, hsplit, h⟩
    exact ⟨outer, active, _, ⟨before, after, hsplit, rfl⟩, h⟩
  · rintro ⟨outer, active, r₁, ⟨before, after, hsplit, rfl⟩, h⟩
    exact ⟨before, outer, active, after, hsplit, h⟩

/-- The candidates that an outer ticket finds in its turn. -/
def candidatesAt (outer : Pooled) (active : Bool) (r : Round) : List Pooled :=
  let r₁ := (r.beginInterval outer active).2
  (r₁.candidates outer r₁.config.batchSize).1

/-- In its turn an outer ticket forms the group of those whom it puts together out of its
candidates. -/
theorem exists_of_turn (h : (turn outer active r).1 = some g) : ∃ members r',
    (assembleFor outer (candidatesAt outer active r) (r.beginInterval outer active).1 r').1 =
        some members ∧
      ∃ token, g = Group.ofTickets token (members.map Pooled.ticket) := by
  unfold turn at h
  split at h
  · simp only at h
    split at h
    · cases h
    · split at h
      · rename_i members r₂ hassembled
        exact ⟨members, _, congrArg Prod.fst hassembled, _, (Option.some.inj h).symm⟩
      · cases h
  · cases h

/-- A group is what a full buffer settles for: with the least excess under which somebody stays and
all accept the size. -/
structure SettlesFull (outer : Pooled) (candidates : List Pooled) (g : Group) (b : List Pooled)
    (p : Surplus.Plan) : Prop where
  filled : Filled outer candidates b
  full : outer.ticket.count + entryCount b = outer.ticket.maxCount
  settles : Settles outer b p
  least : ∀ q, Settles outer b q → p.excess ≤ q.excess
  entries : g.entries = (outer :: kept p b).flatMap fun m => m.ticket.entries
  size : g.size = outer.ticket.maxCount - p.excess

theorem Settles.entryCount_kept (h : Settles outer b p) :
    entryCount (outer :: kept p b) = outer.ticket.count + entryCount b - p.excess := by
  have hkept := Greedy.entryCount_kept h.mem_plans
  rw [entryCount_cons]
  omega

/-- Before its last interval an outer ticket forms groups of full buffers only, and none that is
larger than the largest multiple. Such a group has just that size if the plan for what exceeds it is
one under which the outer ticket and the buffer settle, and otherwise it is smaller. -/
theorem settles_of_forms (h : Forms r outer active r₁ g)
    (hearly : (r₁.beginInterval outer active).1 = false) :
    ∃ b p, SettlesFull outer (candidatesAt outer active r₁) g b p ∧
      g.size ≤ outer.ticket.fullSize ∧
      (g.size = outer.ticket.fullSize ↔
        ∃ q, Settles outer b q ∧ q.excess = outer.ticket.maxCount % outer.ticket.multiple) := by
  obtain ⟨group, r', hassembled, token, rfl⟩ := exists_of_turn h.forms
  rw [hearly] at hassembled
  obtain ⟨b, hfilled, hfull, hfinal⟩ := full_of_assembleFor hassembled
  obtain ⟨p, hsettles, hleast, rfl⟩ := finalize_eq_some_iff.1 hfinal
  have hentries : (Group.ofTickets token ((outer :: kept p b).map Pooled.ticket)).entries =
      (outer :: kept p b).flatMap fun m => m.ticket.entries := by
    rw [Group.ofTickets, List.flatMap_map]
  have hsize : (Group.ofTickets token ((outer :: kept p b).map Pooled.ticket)).size =
      outer.ticket.maxCount - p.excess := by
    rw [← hfull, ← hsettles.entryCount_kept, Group.size_ofTickets, List.map_map]
    rfl
  have haccepts := hsettles.accepted outer List.mem_cons_self
  rw [hfull] at haccepts
  have hle := Ticket.le_fullSize haccepts
  refine ⟨b, p, ⟨hfilled, hfull, hsettles, hleast, hentries, hsize⟩, ?_⟩
  rw [hsize]
  refine ⟨hle, fun heq => ⟨p, hsettles, ?_⟩, ?_⟩
  · have hremains := hsettles.remains
    have hmod := Nat.mod_le outer.ticket.maxCount outer.ticket.multiple
    rw [Ticket.fullSize] at heq
    omega
  · rintro ⟨q, hq, hexcess⟩
    have hpq := hleast q hq
    rw [Ticket.fullSize] at hle ⊢
    omega

/-! ## Two candidates -/

/-- Of two members that may go, the younger one stands first if it comes second. -/
theorem eligible_pair {m n : Surplus.Member} {target : Nat} (hm : m.count ≤ target)
    (hn : n.count ≤ target) (hage : m.createdMillis < n.createdMillis) :
    Surplus.eligible [m, n] target = [(1, n), (0, m)] := by
  refine Surplus.eligible_of_ages ?_ (List.pairwise_pair.2 hage)
  simp [hm, hn]

/-- Of two members that bring no more than one entry each, the younger one goes for one entry. -/
theorem bestSubset_pair {m n : Surplus.Member} (hm : m.count ≤ 1) (hn : n.count = 1)
    (hage : m.createdMillis < n.createdMillis) : Surplus.bestSubset [m, n] 1 = some [1] := by
  have halone : ¬ n.createdMillis < m.createdMillis := Int.not_lt.2 (Int.le_of_lt hage)
  have hboth : ¬ n.createdMillis * 2 < n.createdMillis + m.createdMillis := by omega
  rw [Surplus.bestSubset, eligible_pair hm (Nat.le_of_eq hn) hage]
  -- the older one can go instead, or go with the younger if it brings no entry
  rcases Nat.le_one_iff_eq_zero_or_eq_one.1 hm with hm | hm
  · simp [Surplus.choices, Surplus.Choice.none, Surplus.Choice.add, Surplus.best,
      Surplus.Choice.better, hm, hn, hboth]
  · simp [Surplus.choices, Surplus.Choice.none, Surplus.Choice.add, Surplus.best,
      Surplus.Choice.better, hm, hn, halone]

/-- If the second of two candidates joins the first and completes its buffer, the group is the one
that this buffer makes. -/
theorem assembleFor_pair {outer a b : Pooled} {last : Bool} {r : Round} {group : List Pooled}
    (ha : admissible outer a = true) (hopen : complete outer last [b] [a] = false)
    (hb : admissible outer b = true) (hjoin : (place outer b [[a]] r).2.1 = [a, b])
    (hfull : complete outer last [] [a, b] = true) (hgroup : finalize outer [a, b] = some group) :
    (assembleFor outer [a, b] last r).1 = some group := by
  have hsecond : (fill outer last [b] [[a]] r).1 = .inl group := by
    unfold fill
    rw [if_pos hb]
    generalize place outer b [[a]] r = placed at hjoin
    obtain ⟨buffers, taken, r'⟩ := placed
    cases hjoin
    simp only [hfull, if_true, hgroup]
  have hfirst : fill outer last [a, b] [] r = fill outer last [b] [[a]] r := by
    rw [fill, if_pos ha]
    simp only [place, hopen, Bool.false_eq_true, if_false]
  unfold assembleFor
  rw [hfirst]
  generalize fill outer last [b] [[a]] r = filled at hsecond
  obtain ⟨result, r'⟩ := filled
  cases hsecond
  rfl

/-! ## Three users, of whom one wants two only -/

/-- The ticket of a user who came after some milliseconds and asks for a group of some sizes. -/
def userAsking (millis : Int) (id : String) (least most : Nat) : Pooled :=
  ⟨.ofRequest id ⟨millis * 1000000⟩ (.solo id id "*" least most 1) "*", .atom .all⟩

/-- The first user asks for two or three. -/
def firstAsking : Pooled := userAsking 0 "a" 2 3

/-- The second asks for two. -/
def secondAsking : Pooled := userAsking 1 "b" 2 2

/-- The third asks for two or three. -/
def thirdAsking : Pooled := userAsking 2 "c" 2 3

/-- The three users wait when a pass begins. -/
def threeAsking : Round :=
  .start (((Catalog.empty.put firstAsking.ticket).put secondAsking.ticket).put
      thirdAsking.ticket).commit.shelf
    ⟨((Table.empty.insert "a" firstAsking).insert "b" secondAsking).insert "c" thirdAsking, .empty⟩
    {} .off .empty (fun _ => "") 0

/-- The group of the first two. -/
def pairOfThree : Group := .ofTickets "" [firstAsking.ticket, secondAsking.ticket]

theorem underWay_threeAsking : threeAsking.UnderWay := by
  have hmirrors := ((Mirrors.empty.insert firstAsking).insert secondAsking).insert thirdAsking
  have hclear : Clear threeAsking.shelf.cards threeAsking.tickets.tickets :=
    ⟨by decide +kernel, hmirrors.keyed⟩
  exact .start hclear {} .off .empty (fun _ => "") 0

theorem order_threeAsking : threeAsking.order =
    [(firstAsking, false), (secondAsking, false), (thirdAsking, false)] := by
  refine List.mergeSort_of_pairwise ?_
  decide +kernel

/-- The two others in the order in which the first finds them. -/
def othersAsking : List Hit :=
  [⟨"b", Shelf.rankOf (Shelf.hitScore 1.0), 1⟩, ⟨"c", Shelf.rankOf (Shelf.hitScore 1.0), 2⟩]

theorem found_threeAsking : threeAsking.found firstAsking 100 = [secondAsking, thirdAsking] := by
  have hhits : threeAsking.shelf.hits (.ofTicket firstAsking.ticket firstAsking.query 100) =
      othersAsking := rfl
  have hranking : threeAsking.shelf.ranking (.ofTicket firstAsking.ticket firstAsking.query 100) =
      othersAsking := by
    rw [Shelf.ranking, hhits]
    exact List.mergeSort_of_pairwise (by simp [othersAsking])
  have hsearch : threeAsking.shelf.search (.ofTicket firstAsking.ticket firstAsking.query 100) =
      .ok othersAsking := by
    rw [Shelf.search_eq_ranking (by decide) rfl, hranking]
    refine congrArg Except.ok (List.mergeSort_of_pairwise ?_)
    simp [othersAsking, Inquiry.ofTicket, Shelf.better]
  rw [Round.found, hsearch]
  rfl

/-- All three would be a group that the second does not accept, so the third has to go. -/
theorem finalize_threeAsking :
    finalize firstAsking [secondAsking, thirdAsking] = some [firstAsking, secondAsking] := by
  have hmembers : members [secondAsking, thirdAsking] = [⟨1, 1⟩, ⟨1, 2⟩] := rfl
  have hbest : Surplus.bestSubset [⟨1, 1⟩, ⟨1, 2⟩] 1 = some [1] :=
    bestSubset_pair (by decide) rfl (by decide)
  have hplans : Surplus.plans [⟨1, 1⟩, ⟨1, 2⟩] 3 1 2 = [⟨0, []⟩, ⟨1, [1]⟩] := by
    have hexcesses : Surplus.excesses 3 1 2 = [0, 1] := by decide
    rw [Surplus.plans, if_neg (by decide), hexcesses]
    simp [Surplus.plan?, hbest]
  unfold finalize
  rw [hmembers]
  show (Surplus.plans [⟨1, 1⟩, ⟨1, 2⟩] 3 1 2).findSome? _ = _
  rw [hplans]
  rfl

theorem choose_threeAsking :
    (choose firstAsking false threeAsking).1 = some [firstAsking, secondAsking] := by
  have havail : threeAsking.isAvailable firstAsking = true := by decide +kernel
  unfold choose
  rw [if_pos havail]
  set begun := threeAsking.beginInterval firstAsking false
  have hfound : begun.2.found firstAsking begun.2.config.batchSize = [secondAsking, thirdAsking] :=
    found_threeAsking
  have hkept : (begun.2.keepSuitable firstAsking [secondAsking, thirdAsking]).1 =
      [secondAsking, thirdAsking] := rfl
  simp only [Round.candidates_of_pos (show 0 < begun.2.config.batchSize by decide), hfound, hkept]
  exact assembleFor_pair rfl rfl rfl rfl rfl finalize_threeAsking

theorem forms_threeAsking : Forms threeAsking firstAsking false threeAsking pairOfThree := by
  refine ⟨⟨[], _, order_threeAsking, rfl⟩, ?_⟩
  have hdel := (choose_spec firstAsking false threeAsking).1
  have hchosen := choose_threeAsking
  rw [turn_eq]
  generalize choose firstAsking false threeAsking = chosen at hdel hchosen ⊢
  obtain ⟨members, r⟩ := chosen
  cases hchosen
  show some (Group.ofTickets (r.token r.serial) [firstAsking.ticket, secondAsking.ticket]) = _
  rw [hdel.token]
  rfl

theorem early_threeAsking : (threeAsking.beginInterval firstAsking false).1 = false := by
  decide +kernel

/-- The buffer of the two others does not settle under the plan that takes nobody away. -/
theorem settles_threeAsking :
    ∃ b p, SettlesFull firstAsking (candidatesAt firstAsking false threeAsking) pairOfThree b p ∧
      ¬ ∃ q, Settles firstAsking b q ∧ q.excess = 0 := by
  obtain ⟨b, p, hsettles, -, hsize⟩ := settles_of_forms forms_threeAsking early_threeAsking
  refine ⟨b, p, hsettles, fun hnobody => ?_⟩
  have hfull : pairOfThree.size = firstAsking.ticket.fullSize := hsize.2 hnobody
  have hpair : pairOfThree.size = 2 := rfl
  have hthree : firstAsking.ticket.fullSize = 3 := rfl
  omega

/-- So an outer ticket forms a group of less than the largest multiple before its last interval. -/
theorem exists_smaller_before_last : ∃ (r : Round) (outer : Pooled) (active : Bool) (r₁ : Round)
    (g : Group), r.UnderWay ∧ Forms r outer active r₁ g ∧
      (r₁.beginInterval outer active).1 = false ∧ g.size < outer.ticket.fullSize :=
  ⟨threeAsking, firstAsking, false, threeAsking, pairOfThree, underWay_threeAsking,
    forms_threeAsking, early_threeAsking, by decide⟩

end Greedy

end Matchmaking
