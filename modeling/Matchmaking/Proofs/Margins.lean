import Matchmaking.Proofs.Companions
import Matchmaking.Proofs.Departures
import Matchmaking.Proofs.Pairings
import Matchmaking.Proofs.Promotions

/-!
# Passes in machine numbers

A pass counts the tickets that are not active, begins intervals of outer tickets, and tries to form
groups of them and their candidates. The waiting tickets are different from one another, so what is
added up for a group are never more entries than there are on the roster; and no ticket has begun
more intervals than there were passes. So each of the first 2 ^ 32 - 1 passes is made in machine
numbers as it is calculated exactly. Main statement: `Service.checkedProcess_eq`.
-/

namespace Matchmaking

open Machine
open Round (UnderWay)

variable {r r' : Round} {outer : Pooled} {order rest : List (Pooled × Bool)} {active : Bool}

/-- The waiting tickets of a roster as the machine keeps them. Their presences are in its memory at
the same time, and each takes more than two of the 2 ^ 64 bytes of it; milliseconds are signed
words. -/
structure Snapshot.Stored (s : Snapshot) : Prop where
  entries : Greedy.entryCount s.tickets.values < 2 ^ 63
  millis : ∀ p ∈ s.tickets.values, IsMillis p.ticket.createdMillis

theorem Round.sees_iff_mem_values (hr : Clear r.shelf.cards r.tickets.tickets) {p : Pooled} :
    r.Sees p ↔ p ∈ r.tickets.tickets.values := by
  rw [Table.mem_values_iff]
  constructor
  · exact fun h => ⟨p.id, h⟩
  · rintro ⟨id, hid⟩
    have hkey := hr.keyed id p hid
    rw [← hkey] at hid
    exact hid

/-- An outer ticket and its candidates are different tickets of the roster. -/
theorem Round.bounded_candidates (hr : UnderWay r) (ho : r.Sees outer) (hstored : r.tickets.Stored)
    (limit : Nat) :
    outer.ticket.count + Greedy.entryCount (r.candidates outer limit).1 < 2 ^ 63 ∧
      Greedy.Bounded (Greedy.entryCount (r.candidates outer limit).1)
        (r.candidates outer limit).1 := by
  have hsees : ∀ p ∈ (r.candidates outer limit).1, p ∈ r.tickets.tickets.values := fun p hp =>
    (sees_iff_mem_values hr.clear).1 (spec_of_mem_candidates hr.clear hp).1
  have hnodup : (outer :: (r.candidates outer limit).1).Nodup := by
    refine List.nodup_cons.2 ⟨fun hmem => ?_, (nodup_candidates hr.clear outer limit).of_map _⟩
    exact (spec_of_mem_candidates hr.clear hmem).2.1 rfl
  have hsubset : outer :: (r.candidates outer limit).1 ⊆ r.tickets.tickets.values :=
    List.cons_subset.2 ⟨(sees_iff_mem_values hr.clear).1 ho, hsees⟩
  refine ⟨?_, le_rfl, fun p hp => hstored.millis p (hsees p hp)⟩
  obtain ⟨l, hperm, hsub⟩ := hnodup.subperm hsubset
  calc outer.ticket.count + Greedy.entryCount (r.candidates outer limit).1
      = (Greedy.counts (outer :: (r.candidates outer limit).1)).sum := by
        rw [Greedy.sum_counts, Greedy.entryCount_cons]
    _ = (Greedy.counts l).sum := ((hperm.map _).sum_nat).symm
    _ ≤ (Greedy.counts r.tickets.tickets.values).sum :=
        (hsub.map _).sum_le_sum fun _ _ => Nat.zero_le _
    _ < 2 ^ 63 := by
        rw [Greedy.sum_counts]
        exact hstored.entries

/-! ## What is calculated -/

/-- The beginning of an interval: the count of intervals is a half word. -/
def Round.checkedBeginInterval (r : Round) (outer : Pooled) (active : Bool) :
    Option (Bool × Round) := do
  let n ← next? (r.interval outer.id)
  let r := { r with intervals := r.intervals.insert outer.id n }
  let last := r.isLast outer active
  return (last, if last && !active then { r with promotions := r.promotions ++ [outer.id] } else r)

namespace Greedy

/-- The turn of one outer ticket, taken in machine numbers. -/
def checkedTurn (outer : Pooled) (active : Bool) (r : Round) : Option (Option Group × Round) := do
  if r.isAvailable outer then
    let (last, r) ← r.checkedBeginInterval outer active
    let (candidates, r) := r.candidates outer r.config.batchSize
    if candidates.isEmpty then return (none, r)
    else match ← checkedAssembleFor outer candidates last r with
      | (some group, r) =>
        let (g, r) := r.form group
        return (some g, r)
      | (none, r) => return (none, r)
  else return (none, r)

/-- The turns of some outer tickets, one after the other; the first that fails ends them. -/
def checkedTurns : List (Pooled × Bool) → Round → Option (List Group × Round)
  | [], r => some ([], r)
  | (outer, active) :: rest, r => do
    let (g, r) ← checkedTurn outer active r
    let (gs, r) ← checkedTurns rest r
    return (g.toList ++ gs, r)

end Greedy

namespace Exhaustive

/-- The turn of one outer ticket, with its combinations counted in machine numbers. -/
def checkedTurn (outer : Pooled) (active : Bool) (known : Found) (r : Round) :
    Option (Found × Round) := do
  let (last, r) ← r.checkedBeginInterval outer active
  let (candidates, r) := r.candidates outer r.config.batchSize
  let best := candidates.take r.config.maxCustomCandidates
  if best.isEmpty then return (known, r)
  else
    let (found, r) ← checkedEnumerate outer best last r
    return (found.foldl Found.add known, r)

/-- The turns of some outer tickets, one after the other; the first that fails ends them. -/
def checkedTurns : List (Pooled × Bool) → Found → Round → Option (Found × Round)
  | [], known, r => some (known, r)
  | (outer, active) :: rest, known, r => do
    let (known, r) ← checkedTurn outer active known r
    checkedTurns rest known r

end Exhaustive

/-- The number of tickets that are not active, with a difference of words. -/
def Snapshot.checkedPoolSize (s : Snapshot) : Option Nat := sub? s.tickets.size s.active.size

namespace Service

/-- Forms the groups of a pass, with its turns taken in machine numbers. -/
def checkedAssemble (s : Service) (precision : Precision) (inForming : List Intake) :
    Option (Assembled × Service) := do
  let start := s.round precision
  let (replies, later) := performAll inForming s
  match s.strategy with
  | .greedy =>
    let (groups, r) ← Greedy.checkedTurns start.order start
    match r.breakdown with
    | some message => return (⟨.error (.crashed message), none, replies, start⟩, later)
    | none => return (⟨.ok groups, none, replies, r⟩, later)
  | .selected selector =>
    let (found, r) ← Exhaustive.checkedTurns start.order .none start
    match r.breakdown with
    | some message => return (⟨.error (.crashed message), none, replies, start⟩, later)
    | none =>
      if found.isEmpty then return (⟨.ok [], none, replies, r⟩, later)
      else
        let (groups, r) := Exhaustive.settle found (selector s.asked) r
        return (⟨groups, some found.offers, replies, r⟩, { later with asked := s.asked + 1 })

/-- The part of a pass that follows on its preparation, with its sizes and turns in machine
numbers. -/
def checkedFormGroups (s : Service) (precision : Precision) (inForming : List Intake)
    (inSettling : List (List Intake)) : Option (Pass × Service) := do
  let snapshot := s.roster.snapshot
  let poolSize ← snapshot.checkedPoolSize
  if snapshot.tickets.isEmpty then
    return (⟨.ok ⟨poolSize, snapshot.activeSize, 0, []⟩, none, [], []⟩, s)
  else
    let (a, s) ← s.checkedAssemble precision inForming
    let s := s.resume a
    match a.groups with
    | .ok groups => return conclude a groups poolSize snapshot.activeSize inSettling s
    | .error (.crashed message) =>
      return (⟨.error (.crashed message), a.offered, [], a.replies⟩, { s with poisoned := true })
    | .error (.refused message) =>
      let (_, s) := promoteAll a.round.promotions s
      return (⟨.error (.refused (.selector message)), a.offered, [], a.replies⟩, s)

/-- Makes a pass in machine numbers; it gives nothing if an operation leaves them. -/
def checkedProcess (s : Service) (precision : Precision) (inForming : List Intake)
    (inSettling : List (List Intake)) : Option (Pass × Service) :=
  if s.poisoned then
    some (⟨.error (.refused (.poisoned poisonedNotice)), none, [], []⟩, s)
  else s.prepare.checkedFormGroups precision inForming inSettling

end Service

/-! ## Turns -/

/-- A pass whose turns are taken in machine numbers: the roster is stored, and the candidates to
combine are not too many. -/
structure Round.Ready (r : Round) : Prop where
  underWay : UnderWay r
  stored : r.tickets.Stored
  cap : r.config.maxCustomCandidates ≤ 24

/-- Some outer tickets are still to take their turns, and each can begin one more interval. -/
structure Round.Awaits (r : Round) (order : List (Pooled × Bool)) : Prop where
  ready : r.Ready
  sees : ∀ o ∈ order, r.Sees o.1
  nodup : (order.map fun o => o.1.id).Nodup
  interval : ∀ o ∈ order, r.interval o.1.id + 1 < 2 ^ 32

theorem Round.Ready.acts (h : r.Ready) (hacts : Acts r r') : r'.Ready where
  underWay := h.underWay.acts hacts
  stored := by
    rw [hacts.later.tickets]
    exact h.stored
  cap := by
    rw [hacts.later.config]
    exact h.cap

/-- A turn counts no intervals of other tickets. -/
theorem Round.Awaits.turn (h : r.Awaits ((outer, active) :: rest)) (hacts : Acts r r')
    (hothers : ∀ id, id ≠ outer.id → r'.interval id = r.interval id) : r'.Awaits rest := by
  obtain ⟨hfresh, hnodup⟩ := List.nodup_cons.1 h.nodup
  refine ⟨h.ready.acts hacts, fun o ho => ?_, hnodup, fun o ho => ?_⟩
  · exact hacts.sees.2 (h.sees o (List.mem_cons_of_mem _ ho))
  · have hne : o.1.id ≠ outer.id := fun hid => hfresh (List.mem_map.2 ⟨o, ho, hid⟩)
    rw [hothers _ hne]
    exact h.interval o (List.mem_cons_of_mem _ ho)

theorem Round.checkedBeginInterval_eq (h : r.interval outer.id + 1 < 2 ^ 32) (active : Bool) :
    r.checkedBeginInterval outer active = some (r.beginInterval outer active) := by
  rw [checkedBeginInterval, next?_eq h]
  rfl

namespace Greedy

theorem checkedTurn_eq (hr : r.Ready) (ho : r.Sees outer)
    (hinterval : r.interval outer.id + 1 < 2 ^ 32) (active : Bool) :
    checkedTurn outer active r = some (turn outer active r) := by
  have hbegin := Round.acts_beginInterval r outer active
  unfold checkedTurn turn
  rw [Round.checkedBeginInterval_eq hinterval]
  generalize r.beginInterval outer active = begun at hbegin ⊢
  obtain ⟨last, r₁⟩ := begun
  obtain ⟨htotal, hbounded⟩ := Round.bounded_candidates (hr.acts hbegin).underWay
    (hbegin.sees.2 ho) (hr.acts hbegin).stored r₁.config.batchSize
  split
  · simp only [Option.bind_eq_bind, Option.bind_some, checkedAssembleFor_eq htotal hbounded]
    split
    · rfl
    · generalize assembleFor outer (r₁.candidates outer r₁.config.batchSize).1 last
        (r₁.candidates outer r₁.config.batchSize).2 = result
      obtain ⟨group, r₂⟩ := result
      cases group <;> rfl
  · rfl

theorem interval_turn (hr : r.Ready) (ho : r.Sees outer) (active : Bool) (id : String)
    (hne : id ≠ outer.id) : (turn outer active r).2.interval id = r.interval id := by
  refine (began_turn hr.underWay ho active).interval fun hid => ?_
  split at hid
  · exact hne (List.mem_singleton.1 hid)
  · cases hid

theorem checkedTurns_eq (h : r.Awaits order) : checkedTurns order r = some (turns order r) := by
  induction order generalizing r with
  | nil => rfl
  | cons o rest ih =>
    obtain ⟨outer, active⟩ := o
    have ho := h.sees _ List.mem_cons_self
    have hnext := h.turn (acts_turn h.ready.underWay ho active)
      (interval_turn h.ready ho active)
    rw [checkedTurns, checkedTurn_eq h.ready ho (h.interval _ List.mem_cons_self)]
    simp only [Option.bind_eq_bind, Option.bind_some, ih hnext]
    rfl

end Greedy

namespace Exhaustive

theorem checkedTurn_eq (hr : r.Ready) (ho : r.Sees outer)
    (hinterval : r.interval outer.id + 1 < 2 ^ 32) (active : Bool) (known : Found) :
    checkedTurn outer active known r = some (turn outer active known r) := by
  have hbegin := Round.acts_beginInterval r outer active
  unfold checkedTurn turn
  rw [Round.checkedBeginInterval_eq hinterval]
  generalize r.beginInterval outer active = begun at hbegin ⊢
  obtain ⟨last, r₁⟩ := begun
  have hr₁ : r₁.Ready := hr.acts hbegin
  obtain ⟨htotal, hbounded⟩ := Round.bounded_candidates hr₁.underWay (hbegin.sees.2 ho)
    hr₁.stored r₁.config.batchSize
  have hasks := Round.asks_candidates hr₁.underWay.clear (hbegin.sees.2 ho)
  have hcap := (hr₁.acts hasks.acts).cap
  simp only [Option.bind_eq_bind, Option.bind_some]
  generalize r₁.candidates outer r₁.config.batchSize = result at htotal hbounded hcap ⊢
  obtain ⟨candidates, r₂⟩ := result
  have hlength := List.length_take_le r₂.config.maxCustomCandidates candidates
  have hbest := hbounded.sublist (List.take_sublist r₂.config.maxCustomCandidates candidates)
  have hfew := Nat.lt_of_le_of_lt (hlength.trans hcap) (show 24 < 32 by decide)
  rw [checkedEnumerate_eq htotal hbest hfew]
  split <;> rfl

theorem acts_turn (hr : r.Ready) (ho : r.Sees outer) (active : Bool) (known : Found) :
    Round.Acts r (turn outer active known r).2 :=
  (Round.acts_beginInterval r outer active).trans (asks_turn hr.underWay ho active known).acts

theorem checkedTurns_eq (h : r.Awaits order) (known : Found) :
    checkedTurns order known r = some (turns order known r) := by
  induction order generalizing r known with
  | nil => rfl
  | cons o rest ih =>
    obtain ⟨outer, active⟩ := o
    have ho := h.sees _ List.mem_cons_self
    have hnext := h.turn (acts_turn h.ready ho active known) fun _ hne =>
      interval_turn h.ready.underWay ho active known hne
    rw [checkedTurns, checkedTurn_eq h.ready ho (h.interval _ List.mem_cons_self)]
    exact ih hnext _

end Exhaustive

/-! ## Passes -/

namespace Service

variable {s : Service} {precision : Precision} {inForming : List Intake}
  {inSettling : List (List Intake)}

theorem checkedAssemble_eq (h : (s.round precision).Awaits (s.round precision).order)
    (inForming : List Intake) :
    s.checkedAssemble precision inForming = some (s.assemble precision inForming) := by
  unfold checkedAssemble assemble
  cases s.strategy with
  | greedy =>
    simp only [Greedy.checkedTurns_eq h, Option.bind_eq_bind, Option.bind_some, Greedy.assemble]
    cases (Greedy.turns (s.round precision).order (s.round precision)).2.breakdown <;> rfl
  | selected selector =>
    simp only [Exhaustive.checkedTurns_eq h, Option.bind_eq_bind, Option.bind_some]
    unfold Exhaustive.propose
    generalize Exhaustive.turns (s.round precision).order .none (s.round precision) = proposed
    obtain ⟨found, r⟩ := proposed
    simp only
    cases r.breakdown with
    | some message => rfl
    | none =>
      simp only
      split <;> rfl

theorem checkedFormGroups_eq (hactive : s.roster.active.size ≤ s.roster.tickets.size)
    (h : (s.round precision).Awaits (s.round precision).order) (inForming : List Intake)
    (inSettling : List (List Intake)) : s.checkedFormGroups precision inForming inSettling =
      some (s.formGroups precision inForming inSettling) := by
  have hpool : s.roster.snapshot.checkedPoolSize = some s.roster.snapshot.poolSize :=
    sub?_eq hactive
  unfold checkedFormGroups formGroups
  simp only [hpool, checkedAssemble_eq h, Option.bind_eq_bind, Option.bind_some]
  generalize s.assemble precision inForming = assembled
  obtain ⟨⟨groups, offered, replies, r⟩, s₁⟩ := assembled
  split
  · rfl
  · cases groups with
    | ok groups => rfl
    | error setback => cases setback <;> rfl

/-- Active tickets are waiting tickets. -/
theorem Sound.active_size_le (h : s.Sound) : s.roster.active.size ≤ s.roster.tickets.size :=
  Roster.OnlyWaitingActive.size_le h.active

/-! ## Intervals and passes -/

theorem interval_of_get?_eq {s' : Service} {id : String}
    (h : s'.intervals.get? id = s.intervals.get? id ∨ s'.intervals.get? id = none) :
    s'.interval id ≤ s.interval id := by
  unfold interval
  rcases h with h | h
  · rw [h]
  · rw [h]
    exact Nat.zero_le _

theorem interval_settled_le (s : Service) (groups : List Group) (promotions : List String)
    (calls : List Intake) (id : String) :
    (s.settled groups promotions calls).interval id ≤ s.interval id := by
  refine interval_of_get?_eq ?_
  rw [intervals_settled, Table.get?_foldl_erase]
  split
  · exact Or.inr rfl
  · exact Or.inl rfl

/-- A pass begins at most one interval of each ticket. -/
theorem Reachable.interval_process_le (h : Reachable s) (id : String) :
    (s.process precision inForming inSettling).2.interval id ≤ s.interval id + 1 := by
  have hassembled : ∀ {a : Assembled} {s₁}, s.prepare.assemble precision inForming = (a, s₁) →
      (s₁.resume a).interval id ≤ s.interval id + 1 := by
    intro a s₁ ha
    have hget := h.sound.intervals_of_began (h.began_of_assemble ha)
      (s.strategy.begun_subset (s.prepare.round precision)) id
    show (a.round.intervals.get? id).getD 0 ≤ (s.intervals.get? id).getD 0 + 1
    rw [hget]
    split
    · exact le_rfl
    · split
      · exact Nat.le_succ _
      · exact Nat.zero_le _
  have hends := ends_process s precision inForming inSettling
  generalize s.process precision inForming inSettling = result at hends ⊢
  cases hends with
  | poisoned hpoisoned => exact Nat.le_succ _
  | idle hready hempty =>
    refine (interval_of_get?_eq ?_).trans (Nat.le_succ _)
    have hget := get?_intervals_round s precision id
    by_cases hwaits : s.roster.tickets.contains id = true
    · exact Or.inl (hget.trans (if_pos hwaits))
    · exact Or.inr (hget.trans (if_neg hwaits))
  | formed hready hsome ha hgroups =>
    rw [conclude_snd, interval, intervals_handOver]
    exact (interval_settled_le _ _ _ _ id).trans (hassembled ha)
  | refused hready hsome ha hgroups =>
    unfold interval
    rw [promoteAll_snd]
    exact hassembled ha
  | crashed hready hsome ha hgroups => exact hassembled ha

/-- The number of passes of a run. -/
def passes : List Event → Nat
  | [] => 0
  | .call _ :: rest => passes rest
  | .pass _ _ _ :: rest => passes rest + 1

/-- No ticket has begun more intervals than there were passes. -/
theorem interval_run_le (hs : Reachable s) (events : List Event) (id : String) :
    (s.run events).interval id ≤ s.interval id + passes events := by
  induction events generalizing s with
  | nil => exact le_rfl
  | cons e rest ih =>
    have hrest := ih (hs.step e)
    cases e with
    | call c =>
      have hsame : (s.step (.call c)).interval id = s.interval id := by
        unfold interval
        rw [show (s.step (.call c)).intervals = s.intervals from
          (lasting_intervals s).perform c rfl]
      rwa [hsame] at hrest
    | pass precision inForming inSettling =>
      have hpass : (s.step (.pass precision inForming inSettling)).interval id ≤ s.interval id + 1 :=
        hs.interval_process_le id
      rw [passes]
      exact hrest.trans (by omega)

variable {config : Config} {strategy : Strategy} {naming : Naming}

/-- Each of the first 2 ^ 32 - 1 passes is made in machine numbers, whatever happened before, and it
is the pass that is calculated exactly. -/
theorem checkedProcess_eq (hcreate : create config strategy naming = .ok s)
    (events : List Event) (hpasses : passes events + 1 ≤ 2 ^ 32 - 1)
    (hstored : (s.run events).roster.snapshot.Stored) (precision : Precision)
    (inForming : List Intake) (inSettling : List (List Intake)) :
    (s.run events).checkedProcess precision inForming inSettling =
      some ((s.run events).process precision inForming inSettling) := by
  obtain ⟨hempty, hvalid⟩ := create_eq_ok hcreate
  have hreach : Reachable (s.run events) := (Reachable.created hcreate).run events
  have hconfig : (s.run events).config = config := by
    rw [(moves_run events s).config, hempty]
    rfl
  have hunderWay := hreach.sound.underWay_round precision
  have hready : ((s.run events).prepare.round precision).Ready := by
    refine ⟨hunderWay, hstored, ?_⟩
    show (s.run events).config.maxCustomCandidates ≤ 24
    rw [hconfig]
    exact (Config.limits_of_validate hvalid).candidates
  have hinterval : ∀ o ∈ ((s.run events).prepare.round precision).order,
      ((s.run events).prepare.round precision).interval o.1.id + 1 < 2 ^ 32 := by
    intro o ho
    have hwaits := (hreach.sound.mem_map_order_iff precision).1
      (List.mem_map_of_mem (f := fun o => o.1.id) ho)
    have hle := interval_run_le (.created hcreate) events o.1.id
    have hzero : s.interval o.1.id = 0 := by
      rw [hempty]
      rfl
    rw [interval_round hwaits]
    omega
  have hactive : (s.run events).prepare.roster.active.size ≤
      (s.run events).prepare.roster.tickets.size := hreach.sound.active_size_le
  have hawaits : ((s.run events).prepare.round precision).Awaits
      ((s.run events).prepare.round precision).order :=
    ⟨hready, Round.sees_of_mem_order hunderWay.clear, Round.nodup_order hunderWay.clear, hinterval⟩
  unfold checkedProcess process
  split
  · rfl
  · exact checkedFormGroups_eq hactive hawaits inForming inSettling

theorem stored_pairWaiting : pairWaiting.roster.snapshot.Stored := by
  constructor
  · decide +kernel
  · unfold IsMillis
    decide +kernel

theorem checkedProcess_pairWaiting : passes (pairCalls.map .call) + 1 ≤ 2 ^ 32 - 1 ∧
    pairWaiting.checkedProcess (Config.precision {}) [] [] =
      some (pairWaiting.process (Config.precision {}) [] []) :=
  ⟨by decide, checkedProcess_eq (create_standard .greedy strokes) (pairCalls.map .call)
    (by decide) stored_pairWaiting _ [] []⟩

end Service

end Matchmaking
