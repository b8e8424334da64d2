import Matchmaking.Proofs.Suiting

/-!
# The intervals that a pass begins

A pass begins an interval of each outer ticket whose turn it takes: of all of them if it has a
selector, and of those that are still available if it forms groups greedily. It counts each of them
once and notes those tickets that come to their last interval without being active; nothing else
that it does touches the counts. Main statement: `Strategy.began_assemble`.
-/

namespace Matchmaking

open Round (Asks UnderWay)

namespace Round

variable {r r' r'' : Round} {begun more : List (Pooled × Bool)}

/-- Between two states a pass has begun the intervals of some outer tickets, each with whether it is
active. -/
structure Began (r : Round) (begun : List (Pooled × Bool)) (r' : Round) : Prop where
  config : r'.config = r.config
  intervals : ∀ id, r'.intervals.get? id =
    if id ∈ begun.map fun o => o.1.id then some (r.interval id + 1) else r.intervals.get? id
  promotions : r'.promotions = r.promotions ++
    (begun.filter fun o => !o.2 && (r.countInterval o.1).isLast o.1 o.2).map fun o => o.1.id

theorem began_nil (hconfig : r'.config = r.config) (hintervals : r'.intervals = r.intervals)
    (hpromotions : r'.promotions = r.promotions) : Began r [] r' := by
  refine ⟨hconfig, fun id => ?_, ?_⟩
  · rw [hintervals]
    simp
  · rw [hpromotions]
    simp

theorem began_beginInterval (r : Round) (outer : Pooled) (active : Bool) :
    Began r [(outer, active)] (r.beginInterval outer active).2 := by
  have hintervals : (r.beginInterval outer active).2.intervals =
      r.intervals.insert outer.id (r.interval outer.id + 1) := by
    unfold beginInterval
    simp only
    split <;> rfl
  have hpromotions : (r.beginInterval outer active).2.promotions = r.promotions ++
      if !active && (r.countInterval outer).isLast outer active then [outer.id] else [] := by
    unfold beginInterval
    simp only [Bool.and_comm]
    split
    · rfl
    · exact (List.append_nil _).symm
  refine ⟨(deliberates_beginInterval r outer active).config, fun id => ?_, ?_⟩
  · rw [hintervals, Table.get?_insert]
    by_cases hid : id = outer.id
    · simp [hid]
    · simp [hid]
  · rw [hpromotions, List.filter_cons]
    split <;> rfl

theorem Began.interval (h : Began r begun r') {id : String}
    (hid : id ∉ begun.map fun o => o.1.id) : r'.interval id = r.interval id := by
  rw [Round.interval, h.intervals, if_neg hid]
  rfl

/-- The intervals of some outer tickets are begun after those of others. -/
theorem Began.trans (h : Began r begun r') (h' : Began r' more r'')
    (hdisjoint : ∀ o ∈ more, o.1.id ∉ begun.map fun o => o.1.id) : Began r (begun ++ more) r'' := by
  refine ⟨h'.config.trans h.config, fun id => ?_, ?_⟩
  · rw [h'.intervals, h.intervals, List.map_append]
    by_cases hmore : id ∈ more.map fun o => o.1.id
    · obtain ⟨o, ho, rfl⟩ := List.mem_map.1 hmore
      rw [if_pos hmore, h.interval (hdisjoint o ho), if_pos (List.mem_append_right _ hmore)]
    · rw [if_neg hmore]
      simp only [List.mem_append, hmore, or_false]
  · have hlast : (more.filter fun o => !o.2 && (r'.countInterval o.1).isLast o.1 o.2) =
        more.filter fun o => !o.2 && (r.countInterval o.1).isLast o.1 o.2 := by
      refine List.filter_congr fun o ho => ?_
      rw [isLast_countInterval, isLast_countInterval, h.config, h.interval (hdisjoint o ho)]
    rw [h'.promotions, h.promotions, hlast, List.filter_append, List.map_append, List.append_assoc]

theorem Asks.began (h : Asks r r') : Began r [] r' := by
  refine began_nil h.deliberates.config h.intervals ?_
  induction h with
  | refl => rfl
  | @tail r₁ _ _ hask ih =>
    rw [← ih]
    cases hask with
    | about ha hb =>
      unfold compatible
      cases r₁.precision.isOpen r₁.asked <;> rfl
    | breakDown h message => rfl

theorem began_form (r : Round) (members : List Pooled) : Began r [] (r.form members).2 := by
  obtain ⟨consumed, sessions, h⟩ := exists_form_eq r members
  rw [h]
  exact began_nil rfl rfl rfl

theorem Began.asks (h : Began r begun r') (hasks : Asks r' r'') : Began r begun r'' := by
  have htrans := h.trans hasks.began (by simp)
  rwa [List.append_nil] at htrans

theorem Began.form (h : Began r begun r') (members : List Pooled) :
    Began r begun (r'.form members).2 := by
  have htrans := h.trans (began_form r' members) (by simp)
  rwa [List.append_nil] at htrans

end Round

open Round (Began)

variable {r : Round} {outer : Pooled}

/-! ## Filling greedily -/

namespace Greedy

/-- The outer tickets whose intervals are begun in some turns: those that are available when their
turns come. -/
def begun : List (Pooled × Bool) → Round → List (Pooled × Bool)
  | [], _ => []
  | (outer, active) :: rest, r =>
    (if r.isAvailable outer then [(outer, active)] else []) ++ begun rest (turn outer active r).2

theorem begun_subset (order : List (Pooled × Bool)) (r : Round) :
    ∀ o ∈ begun order r, o ∈ order := by
  induction order generalizing r with
  | nil => simp [begun]
  | cons o rest ih =>
    obtain ⟨outer, active⟩ := o
    intro o ho
    rcases List.mem_append.1 ho with ho | ho
    · split at ho
      · rw [List.mem_singleton.1 ho]
        exact List.mem_cons_self
      · cases ho
    · exact List.mem_cons_of_mem _ (ih _ o ho)

theorem began_choose (hr : UnderWay r) (ho : r.Sees outer) (active : Bool) :
    Began r (if r.isAvailable outer then [(outer, active)] else []) (choose outer active r).2 := by
  unfold choose
  split
  · have hbegin := Round.acts_beginInterval r outer active
    have hbegan := Round.began_beginInterval r outer active
    have hr₁ := hr.acts hbegin
    have ho₁ := hbegin.sees.2 ho
    simp only
    generalize r.beginInterval outer active = started at hbegin hbegan hr₁ ho₁ ⊢
    obtain ⟨last, r₁⟩ := started
    simp only at hbegin hbegan hr₁ ho₁ ⊢
    have hasked := Round.asks_candidates hr₁.clear ho₁
    have hfound := fun m => @Round.spec_of_mem_candidates r₁ outer m r₁.config.batchSize hr₁.clear
    generalize r₁.candidates outer r₁.config.batchSize = found at hasked hfound ⊢
    obtain ⟨candidates, asked⟩ := found
    simp only at hasked hfound ⊢
    split
    · exact hbegan.asks hasked
    · have hsees : ∀ c ∈ candidates, asked.Sees c := fun c hc =>
        hasked.acts.sees.2 (hfound c hc).1
      have hassembled := (@assembleFor_agreeing true candidates asked
        (hr₁.acts hasked.acts).recalls hsees outer last).1
      exact hbegan.asks (hasked.trans hassembled)
  · exact Round.began_nil rfl rfl rfl

theorem began_turn (hr : UnderWay r) (ho : r.Sees outer) (active : Bool) :
    Began r (if r.isAvailable outer then [(outer, active)] else []) (turn outer active r).2 := by
  have hchosen := began_choose hr ho active
  rw [turn_eq]
  generalize choose outer active r = chosen at hchosen ⊢
  obtain ⟨_ | members, r₁⟩ := chosen
  · exact hchosen
  · exact hchosen.form members

theorem acts_turn (hr : UnderWay r) (ho : r.Sees outer) (active : Bool) :
    Round.Acts r (turn outer active r).2 := by
  have hchosen := (led_of_choose hr ho active).1
  rw [turn_eq]
  generalize choose outer active r = chosen at hchosen ⊢
  obtain ⟨_ | members, r₁⟩ := chosen
  · exact hchosen
  · exact hchosen.tail (.form members)

theorem began_turns {order : List (Pooled × Bool)} (hr : UnderWay r)
    (horder : ∀ o ∈ order, r.Sees o.1) (hnodup : (order.map fun o => o.1.id).Nodup) :
    Began r (begun order r) (turns order r).2 := by
  induction order generalizing r with
  | nil => exact Round.began_nil rfl rfl rfl
  | cons o rest ih =>
    obtain ⟨outer, active⟩ := o
    obtain ⟨hfresh, hnodup⟩ := List.nodup_cons.1 hnodup
    have ho : r.Sees outer := horder _ List.mem_cons_self
    have hacts := acts_turn hr ho active
    have hrest : ∀ o ∈ rest, (turn outer active r).2.Sees o.1 := fun o ho =>
      hacts.sees.2 (horder o (List.mem_cons_of_mem _ ho))
    -- later turns are those of other tickets, and so leave the count of this one alone
    refine (began_turn hr ho active).trans (ih (hr.acts hacts) hrest hnodup) ?_
    intro o hmem hid
    split at hid
    · rw [List.map_singleton, List.mem_singleton] at hid
      exact hfresh (List.mem_map.2 ⟨o, begun_subset _ _ o hmem, hid⟩)
    · cases hid

end Greedy

/-! ## Trying all combinations -/

namespace Exhaustive

theorem began_turn (hr : UnderWay r) (ho : r.Sees outer) (active : Bool) (known : Found) :
    Began r [(outer, active)] (turn outer active known r).2 :=
  (Round.began_beginInterval r outer active).asks (asks_turn hr ho active known)

theorem began_turns {order : List (Pooled × Bool)} {known : Found} (hr : UnderWay r)
    (horder : ∀ o ∈ order, r.Sees o.1) (hnodup : (order.map fun o => o.1.id).Nodup) :
    Began r order (turns order known r).2 := by
  induction order generalizing known r with
  | nil => exact Round.began_nil rfl rfl rfl
  | cons o rest ih =>
    obtain ⟨outer, active⟩ := o
    obtain ⟨hfresh, hnodup⟩ := List.nodup_cons.1 hnodup
    have ho : r.Sees outer := horder _ List.mem_cons_self
    have hacts : Round.Acts r (turn outer active known r).2 :=
      (Round.acts_beginInterval r outer active).trans (asks_turn hr ho active known).acts
    have hrest : ∀ o ∈ rest, (turn outer active known r).2.Sees o.1 := fun o ho =>
      hacts.sees.2 (horder o (List.mem_cons_of_mem _ ho))
    refine (began_turn hr ho active known).trans (ih (hr.acts hacts) hrest hnodup) ?_
    intro o hmem hid
    rw [List.map_singleton, List.mem_singleton] at hid
    exact hfresh (List.mem_map.2 ⟨o, hmem, hid⟩)

theorem began_propose (hr : UnderWay r) : Began r r.order (propose r).2 :=
  began_turns hr (Round.sees_of_mem_order hr.clear) (Round.nodup_order hr.clear)

theorem began_formChosen (f : Found) (choices : List Proposal) (r : Round) :
    Began r [] (formChosen f choices r).2 := by
  induction choices generalizing r with
  | nil => exact Round.began_nil rfl rfl rfl
  | cons choice rest ih =>
    unfold formChosen
    cases f.members? choice.ticketKey with
    | none => exact ih r
    | some members =>
      simp only
      split
      · exact (Round.began_form r members).trans (ih _) (by simp)
      · exact ih r

theorem began_settle (f : Found) (ask : List Proposal → Verdict) (r : Round) :
    Began r [] (settle f ask r).2 := by
  unfold settle
  split
  · exact Round.began_nil rfl rfl rfl
  · cases ask f.offers with
    | error setback => exact Round.began_nil rfl rfl rfl
    | ok choices => exact began_formChosen f choices r

end Exhaustive

namespace Strategy

/-- The outer tickets whose intervals are begun in a pass. -/
def begun : Strategy → Round → List (Pooled × Bool)
  | .greedy, r => Greedy.begun r.order r
  | .selected _, r => r.order

theorem begun_subset (t : Strategy) (r : Round) : ∀ o ∈ t.begun r, o ∈ r.order := by
  cases t with
  | greedy => exact Greedy.begun_subset r.order r
  | selected selector => exact fun o ho => ho

/-- Whatever the strategy, a pass whose settings are in range counts the intervals that it begins,
and notes the tickets that so come to their last interval. -/
theorem began_assemble (t : Strategy) (n : Nat) (hr : UnderWay r) (hrange : ¬ r.config.OutOfRange) :
    Began r (t.begun r) (t.assemble n r).2 := by
  cases t with
  | greedy =>
    have hunbroken := Greedy.unbroken_turns (hr.breakdown hrange) hrange
    rw [assemble, Greedy.assemble_of_unbroken hunbroken]
    exact Greedy.began_turns hr (Round.sees_of_mem_order hr.clear) (Round.nodup_order hr.clear)
  | selected selector =>
    have hunbroken := Exhaustive.unbroken_propose (hr.breakdown hrange) hrange
    have htrans := (Exhaustive.began_propose hr).trans
      (Exhaustive.began_settle (Exhaustive.propose r).1 (selector n) (Exhaustive.propose r).2)
      (by simp)
    rw [List.append_nil] at htrans
    rwa [assemble, Exhaustive.assemble_of_unbroken hunbroken]

end Strategy

/-! ## What a matchmaker counts -/

namespace Service

variable {s : Service} {precision : Precision} {begun : List (Pooled × Bool)} {r : Round}

/-- The number of intervals of a ticket that were counted. -/
def interval (s : Service) (id : String) : Nat := (s.intervals.get? id).getD 0

theorem Sound.mem_order_iff (h : s.Sound) (precision : Precision) {o : Pooled × Bool} :
    o ∈ (s.prepare.round precision).order ↔
      s.roster.get? o.1.id = some o.1 ∧ o.2 = s.isActive o.1.id := by
  have hvalues : o.1 ∈ s.roster.tickets.values ↔ s.roster.get? o.1.id = some o.1 := by
    rw [Table.mem_values_iff]
    constructor
    · rintro ⟨id, hid⟩
      have hkeyed := (h.round_mirrors precision).keyed id o.1 hid
      rw [hkeyed]
      exact hid
    · exact fun hget => ⟨o.1.id, hget⟩
  rw [Round.mem_order_iff, ← hvalues]
  rfl

/-- Every waiting ticket has its turn. -/
theorem Sound.mem_map_order_iff (h : s.Sound) (precision : Precision) {id : String} :
    id ∈ (s.prepare.round precision).order.map (fun o => o.1.id) ↔
      s.roster.tickets.contains id = true := by
  rw [Table.contains_iff, List.mem_map]
  constructor
  · rintro ⟨o, ho, rfl⟩
    exact ⟨o.1, ((h.mem_order_iff precision).1 ho).1⟩
  · rintro ⟨p, hp⟩
    have hid : p.id = id := h.mirrors.keyed id p hp
    have hget : s.roster.get? p.id = some p := by
      rw [hid]
      exact hp
    exact ⟨(p, s.isActive p.id), (h.mem_order_iff precision).2 ⟨hget, rfl⟩, hid⟩

/-- A pass begins with the counts of the tickets that wait. -/
theorem get?_intervals_round (s : Service) (precision : Precision) (id : String) :
    (s.prepare.round precision).intervals.get? id =
      if s.roster.tickets.contains id then s.intervals.get? id else none :=
  Table.get?_filter s.intervals s.roster.tickets.contains id

theorem interval_round {id : String} (h : s.roster.tickets.contains id = true) :
    (s.prepare.round precision).interval id = s.interval id := by
  rw [Round.interval, get?_intervals_round, if_pos h]
  rfl

theorem Sound.contains_of_begun (h : s.Sound)
    (hsub : ∀ o ∈ begun, o ∈ (s.prepare.round precision).order) {id : String}
    (hid : id ∈ begun.map fun o => o.1.id) : s.roster.tickets.contains id = true :=
  (h.mem_map_order_iff precision).1 (List.map_subset _ hsub hid)

/-- Each interval that a pass begins is counted once, and counts of tickets that are gone are
dropped. -/
theorem Sound.intervals_of_began (h : s.Sound) (hbegan : Began (s.prepare.round precision) begun r)
    (hsub : ∀ o ∈ begun, o ∈ (s.prepare.round precision).order) (id : String) :
    r.intervals.get? id =
      if id ∈ begun.map fun o => o.1.id then some (s.interval id + 1)
      else if s.roster.tickets.contains id then s.intervals.get? id else none := by
  rw [hbegan.intervals]
  split
  · rename_i hid
    rw [interval_round (h.contains_of_begun hsub hid)]
  · exact get?_intervals_round s precision id

/-- A pass notes the tickets of which it begins the last interval, unless they are active. -/
theorem Sound.mem_promotions_of_began (h : s.Sound)
    (hbegan : Began (s.prepare.round precision) begun r)
    (hsub : ∀ o ∈ begun, o ∈ (s.prepare.round precision).order) (id : String) :
    id ∈ r.promotions ↔ id ∈ begun.map (fun o => o.1.id) ∧ s.isActive id = false ∧
      ∃ p, s.roster.get? id = some p ∧
        (s.config.maxIntervals ≤ s.interval id + 1 ∨ p.ticket.minCount = p.ticket.maxCount) := by
  have hlast : ∀ o ∈ begun,
      (!o.2 && ((s.prepare.round precision).countInterval o.1).isLast o.1 o.2) = true ↔
        s.isActive o.1.id = false ∧ (s.config.maxIntervals ≤ s.interval o.1.id + 1 ∨
          o.1.ticket.minCount = o.1.ticket.maxCount) := by
    intro o ho
    obtain ⟨hget, hactive⟩ := (h.mem_order_iff precision).1 (hsub o ho)
    have hcount := @interval_round s precision o.1.id (Table.contains_iff.2 ⟨o.1, hget⟩)
    have hconfig : (s.prepare.round precision).config = s.config := rfl
    rw [Round.isLast_countInterval, hcount, hconfig, hactive]
    cases s.isActive o.1.id <;> simp
  have hstart : (s.prepare.round precision).promotions = [] := rfl
  rw [hbegan.promotions, hstart, List.nil_append, List.mem_map]
  constructor
  · rintro ⟨o, ho, rfl⟩
    obtain ⟨hmem, htrue⟩ := List.mem_filter.1 ho
    obtain ⟨hactive, hcounted⟩ := (hlast o hmem).1 htrue
    have hget := ((h.mem_order_iff precision).1 (hsub o hmem)).1
    exact ⟨List.mem_map_of_mem hmem, hactive, o.1, hget, hcounted⟩
  · rintro ⟨hid, hactive, p, hget, hcounted⟩
    obtain ⟨o, hmem, rfl⟩ := List.mem_map.1 hid
    rw [((h.mem_order_iff precision).1 (hsub o hmem)).1, Option.some.injEq] at hget
    subst hget
    exact ⟨o, List.mem_filter.2 ⟨hmem, (hlast o hmem).2 ⟨hactive, hcounted⟩⟩, rfl⟩

end Service

end Matchmaking
