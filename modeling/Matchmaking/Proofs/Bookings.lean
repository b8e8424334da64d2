import Matchmaking.Proofs.Buffers
import Matchmaking.Proofs.Groups
import Matchmaking.Proofs.Lists
import Matchmaking.Service.Basic

/-!
# Nobody is booked twice

A booking is the moment at which a pass forms a group: the state of the pass and the tickets that it
puts together. Whatever the strategy, between two bookings a pass only deliberates, and all tickets
of a booking are available at that moment. Since a booking uses up its tickets and their sessions,
no ticket and no session gets into two groups of a pass.
-/

namespace Matchmaking

/-- A pass forms a group. -/
structure Booking where
  /-- The state of the pass before. -/
  before : Round
  /-- The tickets that are put together. -/
  members : List Pooled

namespace Booking

/-- The group that is formed. -/
def group (b : Booking) : Group := (b.before.form b.members).1

/-- The state of the pass afterwards. -/
def after (b : Booking) : Round := (b.before.form b.members).2

end Booking

/-! ## The bookings of the strategies -/

namespace Greedy

/-- The tickets that an outer ticket puts together in its turn, if it succeeds, and the state of the
pass at that moment. -/
def choose (outer : Pooled) (active : Bool) (r : Round) : Option (List Pooled) × Round :=
  if r.isAvailable outer then
    let (last, r) := r.beginInterval outer active
    let (candidates, r) := r.candidates outer r.config.batchSize
    if candidates.isEmpty then (none, r) else assembleFor outer candidates last r
  else (none, r)

/-- In its turn an outer ticket forms a group of those whom it puts together. -/
theorem turn_eq (outer : Pooled) (active : Bool) (r : Round) :
    turn outer active r =
      match choose outer active r with
      | (some members, r) => (some (Booking.group ⟨r, members⟩), Booking.after ⟨r, members⟩)
      | (none, r) => (none, r) := by
  unfold turn choose
  split
  · simp only
    split
    · rfl
    · split <;> simp_all [Booking.group, Booking.after]
  · rfl

/-- The bookings of some turns. -/
def bookings : List (Pooled × Bool) → Round → List Booking
  | [], _ => []
  | (outer, active) :: rest, r =>
    match choose outer active r with
    | (some members, r) => ⟨r, members⟩ :: bookings rest (Booking.after ⟨r, members⟩)
    | (none, r) => bookings rest r

end Greedy

namespace Exhaustive

/-- The bookings of some choices. -/
def bookings (found : Found) : List Proposal → Round → List Booking
  | [], _ => []
  | choice :: rest, r =>
    match found.members? choice.ticketKey with
    | none => bookings found rest r
    | some members =>
      if members.all r.isAvailable then
        ⟨r, members⟩ :: bookings found rest (Booking.after ⟨r, members⟩)
      else bookings found rest r

end Exhaustive

namespace Strategy

/-- The assembly of a pass whose selector, if there is one, is asked for the n-th time. -/
def assemble (t : Strategy) (n : Nat) (r : Round) : Except Setback (List Group) × Round :=
  match t with
  | .greedy => Greedy.assemble r
  | .selected selector => Exhaustive.assemble selector n r

/-- The groups of a pass; none if it fails or breaks down. -/
def groups (t : Strategy) (n : Nat) (r : Round) : List Group :=
  match (t.assemble n r).1 with
  | .ok groups => groups
  | .error _ => []

/-- The bookings of a pass; none if it fails or breaks down, or if there is nothing to choose from. -/
def bookings (t : Strategy) (n : Nat) (r : Round) : List Booking :=
  match t with
  | .greedy =>
    match (Greedy.turns r.order r).2.breakdown with
    | some _ => []
    | none => Greedy.bookings r.order r
  | .selected selector =>
    let (found, last) := Exhaustive.propose r
    match last.breakdown with
    | some _ => []
    | none =>
      if found.isEmpty then []
      else match selector n found.offers with
        | .ok choices => Exhaustive.bookings found choices last
        | .error _ => []

end Strategy

/-- Two groups have no ticket and no session in common. -/
structure Group.Apart (g h : Group) : Prop where
  tickets : g.ticketIds.Disjoint h.ticketIds
  sessions : g.sessions.Disjoint h.sessions

/-! ## What a booking uses up -/

namespace Round

theorem consumed_form {r : Round} {members : List Pooled} {id : String} :
    (r.form members).2.consumed.contains id = true ↔
      (∃ m ∈ members, m.id = id) ∨ r.consumed.contains id = true := by
  show (members.foldl consume r).consumed.contains id = true ↔ _
  induction members generalizing r with
  | nil => simp
  | cons m rest ih =>
    rw [List.foldl_cons, ih]
    simp only [consume, Names.contains_add, Bool.or_eq_true, beq_iff_eq, List.mem_cons,
      exists_eq_or_imp]
    grind

theorem consumedSessions_form {r : Round} {members : List Pooled} {x : String} :
    (r.form members).2.consumedSessions.contains x = true ↔
      (∃ m ∈ members, x ∈ m.ticket.sessions) ∨ r.consumedSessions.contains x = true := by
  show (members.foldl consume r).consumedSessions.contains x = true ↔ _
  induction members generalizing r with
  | nil => simp
  | cons m rest ih =>
    rw [List.foldl_cons, ih]
    simp only [consume, Names.contains_foldl_add, List.mem_cons, exists_eq_or_imp]
    grind

/-- Forming a group changes neither the cards nor the tickets that the pass sees. -/
theorem form_shelf (r : Round) (members : List Pooled) : (r.form members).2.shelf = r.shelf := by
  obtain ⟨consumed, sessions, h⟩ := exists_form_eq r members
  rw [h]

theorem form_tickets (r : Round) (members : List Pooled) :
    (r.form members).2.tickets = r.tickets := by
  obtain ⟨consumed, sessions, h⟩ := exists_form_eq r members
  rw [h]

/-- Nor does it change the settings, or break the pass down. -/
theorem form_frame (r : Round) (members : List Pooled) :
    (r.form members).2.config = r.config ∧ (r.form members).2.breakdown = r.breakdown := by
  obtain ⟨consumed, sessions, h⟩ := exists_form_eq r members
  rw [h]
  exact ⟨rfl, rfl⟩

theorem isAvailable_iff {r : Round} {p : Pooled} :
    r.isAvailable p = true ↔
      r.consumed.contains p.id = false ∧
        ∀ x ∈ p.ticket.sessions, r.consumedSessions.contains x = false := by
  simp [isAvailable]

/-! ## Courses -/

/-- The course of a pass from one state to another with some bookings: in between it only
deliberates, and whoever is booked is available. -/
inductive Course : Round → List Booking → Round → Prop
  /-- No more bookings. -/
  | done {r r' : Round} (h : Deliberates r r') : Course r [] r'
  /-- A booking, and what follows. -/
  | book {r r' : Round} {b : Booking} {rest : List Booking} (h : Deliberates r b.before)
    (havail : ∀ m ∈ b.members, b.before.isAvailable m = true) (hrest : Course b.after rest r') :
    Course r (b :: rest) r'

/-- A ticket and its sessions are not used up, neither at the beginning of a course nor by some of
its bookings. -/
structure Unused (r : Round) (bs : List Booking) (m : Pooled) : Prop where
  ticket : r.consumed.contains m.id = false
  sessions : ∀ x ∈ m.ticket.sessions, r.consumedSessions.contains x = false
  apart : ∀ c ∈ bs, ∀ k ∈ c.members, k.id ≠ m.id ∧ ∀ x ∈ k.ticket.sessions, x ∉ m.ticket.sessions

namespace Course

variable {r r' : Round} {bs : List Booking}

theorem after_deliberation {r₀ : Round} (hd : Deliberates r₀ r) (h : Course r bs r') :
    Course r₀ bs r' := by
  cases h with
  | done h => exact .done (hd.trans h)
  | book h havail hrest => exact .book (hd.trans h) havail hrest

/-- A pass whose settings are in range does not break down. -/
theorem breakdown (h : Course r bs r') (hrange : ¬ r.config.OutOfRange) :
    r'.breakdown = r.breakdown := by
  induction h with
  | done h => exact h.breakdown hrange
  | @book r r' b rest h havail hrest ih =>
    have hform := form_frame b.before b.members
    rw [← h.breakdown hrange, ← hform.2]
    refine ih ?_
    rwa [Booking.after, hform.1, h.config]

theorem available (h : Course r bs r') :
    ∀ b ∈ bs, ∀ m ∈ b.members, b.before.isAvailable m = true := by
  induction h with
  | done h => simp
  | book h havail hrest ih =>
    intro b hb
    rcases List.mem_cons.1 hb with rfl | hb
    · exact havail
    · exact ih b hb

/-- At a booking exactly those tickets are used up that were so at the beginning or were booked
before. -/
theorem consumed_iff {pre post : List Booking} {b : Booking} (h : Course r bs r')
    (hsplit : bs = pre ++ b :: post) (id : String) :
    b.before.consumed.contains id = true ↔
      r.consumed.contains id = true ∨ ∃ c ∈ pre, ∃ m ∈ c.members, m.id = id := by
  induction h generalizing pre with
  | done h => simp at hsplit
  | @book r r' c rest h havail hrest ih =>
    -- the first booking is the one in question, or it is one of those before
    cases pre with
    | nil =>
      rw [List.nil_append] at hsplit
      rw [← (List.cons.inj hsplit).1, h.consumed]
      simp
    | cons d pre =>
      rw [List.cons_append] at hsplit
      obtain ⟨hcd, hrest⟩ := List.cons.inj hsplit
      rw [ih hrest, Booking.after, consumed_form, h.consumed, hcd]
      simp only [List.mem_cons, exists_eq_or_imp]
      grind

/-- At a booking exactly those sessions are used up that were so at the beginning or belong to
tickets that were booked before. -/
theorem consumedSessions_iff {pre post : List Booking} {b : Booking} (h : Course r bs r')
    (hsplit : bs = pre ++ b :: post) (x : String) :
    b.before.consumedSessions.contains x = true ↔
      r.consumedSessions.contains x = true ∨ ∃ c ∈ pre, ∃ m ∈ c.members, x ∈ m.ticket.sessions := by
  induction h generalizing pre with
  | done h => simp at hsplit
  | @book r r' c rest h havail hrest ih =>
    cases pre with
    | nil =>
      rw [List.nil_append] at hsplit
      rw [← (List.cons.inj hsplit).1, h.consumedSessions]
      simp
    | cons d pre =>
      rw [List.cons_append] at hsplit
      obtain ⟨hcd, hrest⟩ := List.cons.inj hsplit
      rw [ih hrest, Booking.after, consumedSessions_form, h.consumedSessions, hcd]
      simp only [List.mem_cons, exists_eq_or_imp]
      grind

/-- Whoever is booked was not used up at the beginning and has nothing to do with those who were
booked before. -/
theorem unused {pre post : List Booking} {b : Booking} (h : Course r bs r')
    (hsplit : bs = pre ++ b :: post) : ∀ m ∈ b.members, Unused r pre m := by
  intro m hm
  have havail := isAvailable_iff.1 (h.available b (by rw [hsplit]; simp) m hm)
  have hticket := mt (h.consumed_iff hsplit m.id).2 (Bool.eq_false_iff.1 havail.1)
  have hsession := fun x hx =>
    mt (h.consumedSessions_iff hsplit x).2 (Bool.eq_false_iff.1 (havail.2 x hx))
  refine ⟨?_, fun x hx => ?_, fun c hc k hk => ⟨fun heq => ?_, fun x hxk hx => ?_⟩⟩
  · exact Bool.eq_false_iff.2 fun hused => hticket (Or.inl hused)
  · exact Bool.eq_false_iff.2 fun hused => hsession x hx (Or.inl hused)
  · exact hticket (Or.inr ⟨c, hc, k, hk, heq⟩)
  · exact hsession x hx (Or.inr ⟨c, hc, k, hk, hxk⟩)

theorem apart (h : Course r bs r') : (bs.map Booking.group).Pairwise Group.Apart := by
  refine List.pairwise_map.2 (pairwise_of_split fun pre c post hsplit b hb => ⟨?_, ?_⟩)
  · intro id hidb hidc
    obtain ⟨t, ht, rfl⟩ := Group.exists_of_mem_ticketIds hidb
    obtain ⟨u, hu, heq⟩ := Group.exists_of_mem_ticketIds hidc
    obtain ⟨k, hk, rfl⟩ := List.mem_map.1 ht
    obtain ⟨m, hm, rfl⟩ := List.mem_map.1 hu
    exact ((h.unused hsplit m hm).apart b hb k hk).1 heq.symm
  · intro x hxb hxc
    obtain ⟨t, ht, hxt⟩ := Group.mem_sessions_ofTickets.1 hxb
    obtain ⟨u, hu, hxu⟩ := Group.mem_sessions_ofTickets.1 hxc
    obtain ⟨k, hk, rfl⟩ := List.mem_map.1 ht
    obtain ⟨m, hm, rfl⟩ := List.mem_map.1 hu
    exact ((h.unused hsplit m hm).apart b hb k hk).2 x hxt hxu

end Course

end Round

/-! ## The courses of the strategies -/

open Round (Deliberates Course)

namespace Greedy

/-- Choosing is deliberation; if it succeeds, the outer ticket is available and the others stay in a
buffer of its candidates. -/
theorem choose_spec (outer : Pooled) (active : Bool) (r : Round) :
    Deliberates r (choose outer active r).2 ∧
      ∀ members, (choose outer active r).1 = some members →
        r.isAvailable outer = true ∧
        ∃ r₁ b, Deliberates r r₁ ∧ Filled outer (r₁.candidates outer r₁.config.batchSize).1 b ∧
          finalize outer b = some members := by
  unfold choose
  split
  · rename_i havail
    have hbegin := Round.deliberates_beginInterval r outer active
    simp only
    generalize r.beginInterval outer active = begun at hbegin ⊢
    obtain ⟨last, r₁⟩ := begun
    have hcandidates := Round.deliberates_candidates r₁ outer
    simp only at hbegin ⊢
    split
    · refine ⟨hbegin.trans hcandidates, fun members h => ?_⟩
      cases h
    · obtain ⟨hdel, hgroup⟩ := assembleFor_spec outer
        (r₁.candidates outer r₁.config.batchSize).1 last
        (r₁.candidates outer r₁.config.batchSize).2
      refine ⟨(hbegin.trans hcandidates).trans hdel, fun members h => ⟨havail, ?_⟩⟩
      obtain ⟨b, hb, hfin⟩ := hgroup members h
      exact ⟨r₁, b, hbegin, hb, hfin⟩
  · refine ⟨.refl r, fun members h => ?_⟩
    cases h

theorem isAvailable_of_choose {outer : Pooled} {active : Bool} {r : Round} {members : List Pooled}
    (h : (choose outer active r).1 = some members) :
    ∀ m ∈ members, (choose outer active r).2.isAvailable m = true := by
  obtain ⟨hdel, hspec⟩ := choose_spec outer active r
  obtain ⟨houter, r₁, b, hr₁, hb, hfin⟩ := hspec members h
  obtain ⟨plan, -, rfl, -, -⟩ := finalize_eq_some hfin
  intro m hm
  rw [hdel.isAvailable]
  rcases List.mem_cons.1 hm with rfl | hm
  · exact houter
  · rw [← hr₁.isAvailable]
    exact Round.isAvailable_of_mem_candidates (hb.sub.subset ((kept_sublist plan b).subset hm))

theorem course_turns (order : List (Pooled × Bool)) (r : Round) :
    Course r (bookings order r) (turns order r).2 ∧
      (turns order r).1 = (bookings order r).map Booking.group := by
  induction order generalizing r with
  | nil => exact ⟨.done (.refl r), rfl⟩
  | cons o rest ih =>
    obtain ⟨outer, active⟩ := o
    have hdel := (choose_spec outer active r).1
    have havail := @isAvailable_of_choose outer active r
    unfold turns bookings
    rw [turn_eq]
    generalize choose outer active r = chosen at hdel havail ⊢
    obtain ⟨_ | members, r₁⟩ := chosen
    · obtain ⟨hcourse, hgroups⟩ := ih r₁
      exact ⟨hcourse.after_deliberation hdel, by simpa using hgroups⟩
    · obtain ⟨hcourse, hgroups⟩ := ih (Booking.after ⟨r₁, members⟩)
      exact ⟨.book hdel (havail rfl) hcourse, by simpa using hgroups⟩

/-- No turn breaks down whose settings are in range. -/
theorem unbroken_turns {r : Round} (h : r.breakdown = none) (hrange : ¬ r.config.OutOfRange) :
    (turns r.order r).2.breakdown = none :=
  ((course_turns r.order r).1.breakdown hrange).trans h

/-- A pass that does not break down comes to what its turns come to. -/
theorem assemble_of_unbroken {r : Round} (h : (turns r.order r).2.breakdown = none) :
    assemble r = (.ok (turns r.order r).1, (turns r.order r).2) := by
  simp only [assemble, h]

theorem unbroken_of_assemble {r : Round} {groups : List Group} (h : (assemble r).1 = .ok groups) :
    (turns r.order r).2.breakdown = none := by
  unfold assemble at h
  cases hbreakdown : (turns r.order r).2.breakdown with
  | none => rfl
  | some message =>
    simp only [hbreakdown] at h
    cases h

end Greedy

namespace Exhaustive

theorem deliberates_row (a : Pooled) (others : List Pooled) (r : Round) :
    Deliberates r (row a others r).2 := by
  induction others generalizing r with
  | nil => exact .refl r
  | cons b rest ih =>
    unfold row
    simp only
    split
    · exact ih r
    · exact (Round.deliberates_compatible r a b).trans (ih _)

theorem deliberates_rows (cs : List Pooled) (r : Round) : Deliberates r (rows cs r).2 := by
  induction cs generalizing r with
  | nil => exact .refl r
  | cons a rest ih => exact (deliberates_row a rest r).trans (ih _)

/-- No more candidates are combined than the settings say. -/
theorem deliberates_enumerate {cs : List Pooled} {r : Round}
    (hcap : cs.length ≤ r.config.maxCustomCandidates) (outer : Pooled) (last : Bool) :
    Deliberates r (enumerate outer cs last r).2 := by
  have hrows := deliberates_rows cs r
  unfold enumerate
  simp only
  split
  · exact hrows
  · rename_i hmany
    refine hrows.trans (Round.deliberates_breakDown (Or.inr ?_) tooManyNotice)
    rw [hrows.config]
    exact Nat.le_trans (Nat.le_of_not_lt hmany) hcap

theorem deliberates_turn (outer : Pooled) (active : Bool) (known : Found) (r : Round) :
    Deliberates r (turn outer active known r).2 := by
  have hbegin := Round.deliberates_beginInterval r outer active
  unfold turn
  generalize r.beginInterval outer active = begun at hbegin ⊢
  obtain ⟨last, r₁⟩ := begun
  have hcandidates := Round.deliberates_candidates r₁ outer
  simp only at hbegin ⊢
  split
  · exact hbegin.trans hcandidates
  · exact (hbegin.trans hcandidates).trans (deliberates_enumerate (List.length_take_le _ _) outer last)

theorem deliberates_turns (order : List (Pooled × Bool)) (known : Found) (r : Round) :
    Deliberates r (turns order known r).2 := by
  induction order generalizing known r with
  | nil => exact .refl r
  | cons o rest ih => exact (deliberates_turn o.1 o.2 known r).trans (ih _ _)

theorem deliberates_propose (r : Round) : Deliberates r (propose r).2 :=
  deliberates_turns r.order .none r

theorem unbroken_propose {r : Round} (h : r.breakdown = none) (hrange : ¬ r.config.OutOfRange) :
    (propose r).2.breakdown = none :=
  ((deliberates_propose r).breakdown hrange).trans h

/-- A pass that does not break down comes to what its selector makes of what was found. -/
theorem assemble_of_unbroken {r : Round} (h : (propose r).2.breakdown = none) (selector : Selector)
    (n : Nat) : assemble selector n r = settle (propose r).1 (selector n) (propose r).2 := by
  simp only [assemble, h]

theorem unbroken_of_assemble {selector : Selector} {n : Nat} {r : Round} {groups : List Group}
    (h : (assemble selector n r).1 = .ok groups) : (propose r).2.breakdown = none := by
  unfold assemble at h
  cases hbreakdown : (propose r).2.breakdown with
  | none => rfl
  | some message =>
    simp only [hbreakdown] at h
    cases h

theorem course_formChosen (found : Found) (choices : List Proposal) (r : Round) :
    Course r (bookings found choices r) (formChosen found choices r).2 ∧
      (formChosen found choices r).1 = (bookings found choices r).map Booking.group := by
  induction choices generalizing r with
  | nil => exact ⟨.done (.refl r), rfl⟩
  | cons choice rest ih =>
    unfold formChosen bookings
    cases found.members? choice.ticketKey with
    | none => exact ih r
    | some members =>
      simp only
      split
      · rename_i havail
        obtain ⟨hcourse, hgroups⟩ := ih (Booking.after ⟨r, members⟩)
        refine ⟨.book (.refl r) (List.all_eq_true.1 havail) hcourse, ?_⟩
        rw [List.map_cons, ← hgroups]
        rfl
      · exact ih r

end Exhaustive

namespace Strategy

/-- Whatever the strategy, the groups of a pass are those of its bookings, and these are its course
from the beginning to the end. -/
theorem course_bookings (t : Strategy) (n : Nat) (r : Round) :
    Course r (t.bookings n r) (t.assemble n r).2 ∧
      t.groups n r = (t.bookings n r).map Booking.group := by
  cases t with
  | greedy =>
    have hturns := Greedy.course_turns r.order r
    unfold groups assemble bookings Greedy.assemble
    generalize Greedy.turns r.order r = taken at hturns ⊢
    obtain ⟨formed, r₁⟩ := taken
    simp only at hturns ⊢
    -- what is booked by a pass that breaks down is lost
    cases r₁.breakdown with
    | some message => exact ⟨.done (.refl r), rfl⟩
    | none => exact hturns
  | selected selector =>
    have hdel := Exhaustive.deliberates_propose r
    unfold groups assemble bookings Exhaustive.assemble Exhaustive.settle
    generalize Exhaustive.propose r = proposed at hdel ⊢
    obtain ⟨found, r₁⟩ := proposed
    simp only at hdel ⊢
    cases r₁.breakdown with
    | some message => exact ⟨.done (.refl r), rfl⟩
    | none =>
      simp only
      split
      · exact ⟨.done hdel, rfl⟩
      · cases selector n found.offers with
        | error setback => exact ⟨.done hdel, rfl⟩
        | ok choices =>
          obtain ⟨hcourse, hgroups⟩ := Exhaustive.course_formChosen found choices r₁
          exact ⟨hcourse.after_deliberation hdel, hgroups⟩

/-- A pass that books anybody ends with its turns, or with the choices of its selector. -/
theorem mem_bookings {t : Strategy} {n : Nat} {r : Round} {b : Booking} (h : b ∈ t.bookings n r) :
    (b ∈ Greedy.bookings r.order r ∧ (t.assemble n r).2 = (Greedy.turns r.order r).2) ∨
      ∃ choices,
        b ∈ Exhaustive.bookings (Exhaustive.propose r).1 choices (Exhaustive.propose r).2 ∧
          (t.assemble n r).2 =
            (Exhaustive.formChosen (Exhaustive.propose r).1 choices (Exhaustive.propose r).2).2 := by
  cases t with
  | greedy =>
    left
    unfold bookings at h
    cases hbreakdown : (Greedy.turns r.order r).2.breakdown with
    | some message =>
      rw [hbreakdown] at h
      cases h
    | none =>
      rw [hbreakdown] at h
      exact ⟨h, congrArg Prod.snd (Greedy.assemble_of_unbroken hbreakdown)⟩
  | selected selector =>
    right
    unfold bookings assemble Exhaustive.assemble Exhaustive.settle at *
    generalize Exhaustive.propose r = proposed at h ⊢
    obtain ⟨found, r₁⟩ := proposed
    simp only at h ⊢
    cases hbreakdown : r₁.breakdown with
    | some message =>
      rw [hbreakdown] at h
      cases h
    | none =>
      rw [hbreakdown] at h
      simp only at h ⊢
      split at h
      · cases h
      · rename_i hfound
        rw [if_neg hfound]
        cases hverdict : selector n found.offers with
        | error setback =>
          rw [hverdict] at h
          cases h
        | ok choices =>
          rw [hverdict] at h
          exact ⟨choices, h, rfl⟩

theorem apart_groups (t : Strategy) (n : Nat) (r : Round) :
    (t.groups n r).Pairwise Group.Apart := by
  obtain ⟨hcourse, hgroups⟩ := t.course_bookings n r
  rw [hgroups]
  exact hcourse.apart

/-- Whatever the strategy and the state of the pass, nobody is booked twice: whenever a group is
formed, its members are available, so that neither they nor their sessions have been used up before,
and no two groups have a ticket or a session in common. -/
theorem bookings_exclusive (t : Strategy) (n : Nat) (r : Round) :
    Course r (t.bookings n r) (t.assemble n r).2 ∧
      t.groups n r = (t.bookings n r).map Booking.group ∧
      (∀ pre b post, t.bookings n r = pre ++ b :: post →
        ∀ m ∈ b.members, b.before.isAvailable m = true ∧ Round.Unused r pre m) ∧
      (t.groups n r).Pairwise Group.Apart := by
  obtain ⟨hcourse, hgroups⟩ := t.course_bookings n r
  refine ⟨hcourse, hgroups, fun pre b post hsplit m hm => ⟨?_, hcourse.unused hsplit m hm⟩,
    t.apart_groups n r⟩
  exact hcourse.available b (by rw [hsplit]; simp) m hm

end Strategy

end Matchmaking
