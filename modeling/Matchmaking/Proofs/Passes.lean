import Matchmaking.Proofs.Bookings
import Matchmaking.Proofs.Moves

/-!
# The shape of a pass

A pass ends in one of five ways: it is not made at all, because an earlier one broke down; nobody
waits; its groups are formed; its selector refuses; or it breaks down. Whatever is proved of all
passes is proved for each of these. The groups are those that the strategy forms of what the pass
sees at its beginning, whatever clients do while it forms them. Then the tickets of the groups are
retired, some others become active, and the groups are handed over, and in between clients call
again.
-/

namespace Matchmaking.Service

/-- The groups of a pass that begins now: those that the strategy forms of what the pass sees. -/
def groupsOfPass (s : Service) (precision : Precision) : List Group :=
  s.strategy.groups s.asked (s.prepare.round precision)

/-! ## Assembly -/

/-- The groups that a pass forms, and the state of the pass afterwards, are what its strategy makes
of its beginning; the calls made in the meantime do not matter. -/
theorem assemble_outcome (s : Service) (precision : Precision) (inForming : List Intake) :
    (s.assemble precision inForming).1.groups =
        (s.strategy.assemble s.asked (s.round precision)).1 ∧
      (s.assemble precision inForming).1.round =
        (s.strategy.assemble s.asked (s.round precision)).2 := by
  unfold assemble Strategy.assemble
  cases s.strategy with
  | greedy => exact ⟨rfl, rfl⟩
  | selected selector =>
    simp only [Exhaustive.assemble]
    cases (Exhaustive.propose (s.round precision)).2.breakdown with
    | some message => exact ⟨rfl, rfl⟩
    | none =>
      simp only
      split
      · rename_i hempty
        rw [Exhaustive.settle, if_pos hempty]
        exact ⟨rfl, rfl⟩
      · exact ⟨rfl, rfl⟩

/-- Assembly changes nothing, apart from what the calls do that are made in the meantime, but the
number of times that the selector was asked. -/
theorem assemble_snd (s : Service) (precision : Precision) (inForming : List Intake) :
    (s.assemble precision inForming).2 =
      { (performAll inForming s).2 with asked := (s.assemble precision inForming).2.asked } := by
  unfold assemble
  cases s.strategy with
  | greedy => rfl
  | selected selector =>
    simp only
    split
    · rfl
    · split <;> rfl

theorem alike_assemble (s : Service) (precision : Precision) (inForming : List Intake) :
    Alike (performAll inForming s).2 (s.assemble precision inForming).2 := by
  rw [assemble_snd]
  exact ⟨rfl, rfl, rfl, rfl, rfl, rfl⟩

/-- Counting intervals and groups is no matter of the tickets. -/
theorem alike_resume (s : Service) (a : Assembled) : Alike s (s.resume a) :=
  ⟨rfl, rfl, rfl, rfl, rfl, rfl⟩

/-! ## Groups -/

theorem groups_of_ok {t : Strategy} {n : Nat} {r : Round} {groups : List Group}
    (h : (t.assemble n r).1 = .ok groups) : t.groups n r = groups := by
  rw [Strategy.groups, h]

theorem groups_of_order_nil (t : Strategy) (n : Nat) {r : Round} (h : r.order = []) :
    t.groups n r = [] := by
  cases t with
  | greedy =>
    simp only [Strategy.groups, Strategy.assemble, Greedy.assemble, h, Greedy.turns]
    cases r.breakdown <;> rfl
  | selected selector =>
    simp only [Strategy.groups, Strategy.assemble, Exhaustive.assemble, Exhaustive.propose, h,
      Exhaustive.turns]
    cases r.breakdown <;> rfl

theorem order_eq_nil {r : Round} (h : r.tickets.tickets.isEmpty = true) : r.order = [] := by
  have hvalues : r.tickets.tickets.values = [] := by
    rw [List.eq_nil_iff_forall_not_mem]
    intro p hp
    obtain ⟨id, hid⟩ := Table.mem_values_iff.1 hp
    have := Table.isEmpty_iff.1 h id
    rw [Table.contains_iff.2 ⟨p, hid⟩] at this
    cases this
  rw [Round.order, Snapshot.processingOrder, hvalues, List.map_nil, List.mergeSort_nil]

/-! ## The ways in which a pass ends -/

variable {s s₁ : Service} {precision : Precision} {inForming : List Intake}
  {inSettling : List (List Intake)} {a : Assembled} {groups : List Group}

/-- What can be seen of a pass, and the state after it. -/
inductive Ends (s : Service) (precision : Precision) (inForming : List Intake)
    (inSettling : List (List Intake)) : Pass × Service → Prop
  /-- An earlier pass broke down. -/
  | poisoned (h : s.poisoned = true) :
    Ends s precision inForming inSettling
      (⟨.error (.refused (.poisoned poisonedNotice)), none, [], []⟩, s)
  /-- Nobody waits. -/
  | idle (h : s.poisoned = false) (hempty : s.roster.snapshot.tickets.isEmpty = true) :
    Ends s precision inForming inSettling
      (⟨.ok ⟨s.roster.snapshot.poolSize, s.roster.snapshot.activeSize, 0, []⟩, none, [], []⟩,
        s.prepare)
  /-- The groups are formed. -/
  | formed (h : s.poisoned = false) (hsome : s.roster.snapshot.tickets.isEmpty = false)
    {a : Assembled} {s₁ : Service} (ha : s.prepare.assemble precision inForming = (a, s₁))
    {groups : List Group} (hgroups : a.groups = .ok groups) :
    Ends s precision inForming inSettling
      (conclude a groups s.roster.snapshot.poolSize s.roster.snapshot.activeSize inSettling
        (s₁.resume a))
  /-- The selector refuses. -/
  | refused (h : s.poisoned = false) (hsome : s.roster.snapshot.tickets.isEmpty = false)
    {a : Assembled} {s₁ : Service} (ha : s.prepare.assemble precision inForming = (a, s₁))
    {message : String} (hgroups : a.groups = .error (.refused message)) :
    Ends s precision inForming inSettling
      (⟨.error (.refused (.selector message)), a.offered, [], a.replies⟩,
        (promoteAll a.round.promotions (s₁.resume a)).2)
  /-- The selector or a search breaks down. -/
  | crashed (h : s.poisoned = false) (hsome : s.roster.snapshot.tickets.isEmpty = false)
    {a : Assembled} {s₁ : Service} (ha : s.prepare.assemble precision inForming = (a, s₁))
    {message : String} (hgroups : a.groups = .error (.crashed message)) :
    Ends s precision inForming inSettling
      (⟨.error (.crashed message), a.offered, [], a.replies⟩,
        { s₁.resume a with poisoned := true })

theorem ends_process (s : Service) (precision : Precision) (inForming : List Intake)
    (inSettling : List (List Intake)) :
    Ends s precision inForming inSettling (s.process precision inForming inSettling) := by
  unfold process
  cases hpoisoned : s.poisoned with
  | true =>
    rw [if_pos rfl]
    exact .poisoned hpoisoned
  | false =>
    rw [if_neg Bool.false_ne_true]
    unfold formGroups
    simp only
    cases hempty : s.prepare.roster.snapshot.tickets.isEmpty with
    | true =>
      rw [if_pos rfl]
      exact .idle hpoisoned hempty
    | false =>
      rw [if_neg Bool.false_ne_true]
      cases ha : s.prepare.assemble precision inForming with
      | mk a s₁ =>
        simp only
        cases hgroups : a.groups with
        | ok groups => exact .formed hpoisoned hempty ha hgroups
        | error setback =>
          cases setback with
          | refused message => exact .refused hpoisoned hempty ha hgroups
          | crashed message => exact .crashed hpoisoned hempty ha hgroups

theorem groupsOfPass_of_ok (ha : s.prepare.assemble precision inForming = (a, s₁))
    (hgroups : a.groups = .ok groups) : s.groupsOfPass precision = groups := by
  have houtcome := (assemble_outcome s.prepare precision inForming).1
  rw [ha] at houtcome
  exact groups_of_ok (houtcome.symm.trans hgroups)

/-- The groups of a greedy pass whose settings are in range are those that its turns book. -/
theorem groupsOfPass_of_greedy (hgreedy : s.strategy = .greedy) (hrange : ¬ s.config.OutOfRange)
    (precision : Precision) :
    s.groupsOfPass precision =
      (Greedy.bookings (s.prepare.round precision).order (s.prepare.round precision)).map
        Booking.group := by
  have hgroups := (s.strategy.course_bookings s.asked (s.prepare.round precision)).2
  have hunbroken := Greedy.unbroken_turns (r := s.prepare.round precision) rfl hrange
  rw [groupsOfPass, hgroups, hgreedy, Strategy.bookings, hunbroken]

/-! ## Settling -/

/-- The tickets that become active in a pass: those that came to their last interval and are in none
of its groups. -/
def Assembled.promoted (a : Assembled) (groups : List Group) : List String :=
  a.round.promotions.filter fun id => !(matchedIds groups).contains id

/-- The state in which a pass hands over its groups: their tickets are retired, calls are made, and
some others become active. -/
def settled (s : Service) (groups : List Group) (promotions : List String) (calls : List Intake) :
    Service :=
  (promoteAll promotions (performAll calls (retire (matchedIds groups) s)).2).2

theorem conclude_snd (a : Assembled) (groups : List Group) (poolSize activeSize : Nat)
    (inSettling : List (List Intake)) (s : Service) :
    (conclude a groups poolSize activeSize inSettling s).2 =
      (handOver groups inSettling.tail
        (s.settled groups (a.promoted groups) (inSettling.headD []))).2 := rfl

theorem dispatched_conclude (a : Assembled) (groups : List Group) (poolSize activeSize : Nat)
    (inSettling : List (List Intake)) (s : Service) :
    (conclude a groups poolSize activeSize inSettling s).1.dispatched =
      (handOver groups inSettling.tail
        (s.settled groups (a.promoted groups) (inSettling.headD []))).1.1 := rfl

theorem map_group_handOver (groups : List Group) (calls : List (List Intake)) (s : Service) :
    (handOver groups calls s).1.1.map Handover.group = groups := by
  induction groups generalizing calls s with
  | nil => rfl
  | cons g rest ih => exact congrArg (g :: ·) (ih calls.tail _)

theorem moves_settled (s : Service) (groups : List Group) (promotions : List String)
    (calls : List Intake) : Moves s (s.settled groups promotions calls) :=
  ((moves_retire (matchedIds groups) s).trans (moves_performAll calls _)).trans
    (moves_promoteAll promotions _)

/-- A pass goes on after its assembly from a state that the calls made in the meantime have left. -/
theorem moves_resume (ha : s.prepare.assemble precision inForming = (a, s₁)) :
    Moves s (s₁.resume a) := by
  have halike := alike_assemble s.prepare precision inForming
  rw [ha] at halike
  have hcalls := (alike_prepare s).moves.trans (moves_performAll inForming s.prepare)
  exact (hcalls.trans halike.moves).trans (alike_resume s₁ a).moves

/-- A pass is made of moves, up to each of its hand-overs and to its end. -/
theorem moves_process (s : Service) (precision : Precision) (inForming : List Intake)
    (inSettling : List (List Intake)) :
    Moves s (s.process precision inForming inSettling).2 ∧
      ∀ h ∈ (s.process precision inForming inSettling).1.dispatched, Moves s h.seen := by
  have hends := ends_process s precision inForming inSettling
  generalize s.process precision inForming inSettling = result at hends ⊢
  cases hends with
  | poisoned hpoisoned => exact ⟨.refl, by simp⟩
  | idle hready hempty => exact ⟨(alike_prepare s).moves, by simp⟩
  | @formed hready hsome a s₁ ha groups hgroups =>
    have hsettled := (moves_resume ha).trans
      (moves_settled (s₁.resume a) groups (a.promoted groups) (inSettling.headD []))
    obtain ⟨hlast, hseen⟩ := moves_handOver groups inSettling.tail
      ((s₁.resume a).settled groups (a.promoted groups) (inSettling.headD []))
    exact ⟨hsettled.trans hlast, fun h hh => hsettled.trans (hseen h hh)⟩
  | refused hready hsome ha hgroups =>
    exact ⟨(moves_resume ha).trans (moves_promoteAll _ _), by simp⟩
  | crashed hready hsome ha hgroups =>
    exact ⟨(moves_resume ha).tail (.rest ⟨rfl, rfl, rfl, rfl, rfl, rfl⟩), by simp⟩

/-! ## What a pass reports -/

/-- Whatever a pass reports are the groups that its strategy formed. -/
theorem matched_of_process {report : Report}
    (h : (s.process precision inForming inSettling).1.outcome = .ok report) :
    report.matched = s.groupsOfPass precision := by
  have hends := ends_process s precision inForming inSettling
  generalize s.process precision inForming inSettling = result at hends h
  cases hends with
  | poisoned hpoisoned => cases h
  | idle hready hempty =>
    rw [← Except.ok.inj h]
    exact (groups_of_order_nil _ _ (order_eq_nil hempty)).symm
  | formed hready hsome ha hgroups =>
    rw [← Except.ok.inj h, groupsOfPass_of_ok ha hgroups]
  | refused hready hsome ha hgroups => cases h
  | crashed hready hsome ha hgroups => cases h

/-- A pass hands over the groups that it reports, and without a report it hands over nothing. -/
theorem dispatched_process (s : Service) (precision : Precision) (inForming : List Intake)
    (inSettling : List (List Intake)) :
    (∀ report, (s.process precision inForming inSettling).1.outcome = .ok report →
        (s.process precision inForming inSettling).1.dispatched.map Handover.group =
          report.matched) ∧
      ∀ failure, (s.process precision inForming inSettling).1.outcome = .error failure →
        (s.process precision inForming inSettling).1.dispatched = [] := by
  have hends := ends_process s precision inForming inSettling
  generalize s.process precision inForming inSettling = result at hends ⊢
  cases hends with
  | poisoned hpoisoned => exact ⟨by simp, fun _ _ => rfl⟩
  | idle hready hempty => exact ⟨fun report h => by rw [← Except.ok.inj h]; rfl, fun _ _ => rfl⟩
  | formed hready hsome ha hgroups =>
    refine ⟨fun report h => ?_, fun failure h => by cases h⟩
    rw [← Except.ok.inj h, dispatched_conclude, map_group_handOver]
  | refused hready hsome ha hgroups => exact ⟨by simp, fun _ _ => rfl⟩
  | crashed hready hsome ha hgroups => exact ⟨by simp, fun _ _ => rfl⟩

/-- Whatever a pass hands over or reports are groups that its strategy formed. -/
theorem mem_groupsOfPass {g : Group}
    (h : (∃ report, (s.process precision inForming inSettling).1.outcome = .ok report ∧
        g ∈ report.matched) ∨
      ∃ x ∈ (s.process precision inForming inSettling).1.dispatched, x.group = g) :
    g ∈ s.groupsOfPass precision := by
  obtain ⟨hreported, hfailed⟩ := dispatched_process s precision inForming inSettling
  rcases h with ⟨report, hreport, hg⟩ | ⟨x, hx, rfl⟩
  · rwa [matched_of_process hreport] at hg
  · cases houtcome : (s.process precision inForming inSettling).1.outcome with
    | ok report =>
      rw [← matched_of_process houtcome, ← hreported report houtcome]
      exact List.mem_map_of_mem hx
    | error failure =>
      rw [hfailed failure houtcome] at hx
      cases hx

/-- A greedy pass reports the groups that it forms, unless its settings are out of range. -/
theorem exists_matched_of_greedy (hgreedy : s.strategy = .greedy) (h : s.poisoned = false)
    (hrange : ¬ s.config.OutOfRange) (precision : Precision) (inForming : List Intake)
    (inSettling : List (List Intake)) :
    ∃ report, (s.process precision inForming inSettling).1.outcome = .ok report ∧
      report.matched = s.groupsOfPass precision := by
  have hreport : ∃ report,
      (s.process precision inForming inSettling).1.outcome = .ok report := by
    have hunbroken := Greedy.unbroken_turns (r := s.prepare.round precision) rfl hrange
    have hok := congrArg Prod.fst (Greedy.assemble_of_unbroken hunbroken)
    have houtcome := (assemble_outcome s.prepare precision inForming).1
    rw [show s.prepare.strategy = .greedy from hgreedy] at houtcome
    have hgroups := houtcome.trans hok
    have hends := ends_process s precision inForming inSettling
    generalize s.process precision inForming inSettling = result at hends ⊢
    cases hends with
    | poisoned hpoisoned =>
      rw [hpoisoned] at h
      cases h
    | idle hready hempty => exact ⟨_, rfl⟩
    | formed hready hsome ha hformed => exact ⟨_, rfl⟩
    | refused hready hsome ha hrefused =>
      rw [ha, hrefused] at hgroups
      cases hgroups
    | crashed hready hsome ha hcrashed =>
      rw [ha, hcrashed] at hgroups
      cases hgroups
  obtain ⟨report, hreport⟩ := hreport
  exact ⟨report, hreport, matched_of_process hreport⟩

end Matchmaking.Service
