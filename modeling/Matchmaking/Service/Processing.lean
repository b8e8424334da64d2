import Matchmaking.Service.Intake

/-!
# Passes

A pass takes a snapshot of cards and tickets, forms groups, takes their tickets off the roster and
out of the catalog, makes active those that came to their last interval, and hands over the
groups. Clients may call at any time, but they find the roster locked while the snapshot is taken,
while tickets are retired and while others become active. So they are let in while groups are
formed, between retiring and promoting, before the first group is handed over, and while each of the
groups is handed over. Their calls work on the current state, not on the snapshot. If the selector
refuses, nothing is formed, but the intervals count. If it breaks down, no pass can be made any
more.
-/

namespace Matchmaking

/-- What a pass reports (`PassReport`). -/
structure Report where
  /-- The number of tickets that were not active at its beginning. -/
  poolSize : Nat
  /-- The number of tickets that were active at its beginning. -/
  activeSize : Nat
  /-- The number of tickets that it made active. -/
  promoted : Nat
  /-- The groups that it formed. -/
  matched : List Group
  deriving DecidableEq, Repr, Inhabited

/-- The number of tickets in the groups of a pass. -/
def Report.matchedTickets (r : Report) : Nat :=
  (r.matched.map fun g => g.ticketIds.length).foldr (· + ·) 0

/-- Why a pass comes to no report. -/
inductive Failure
  /-- It was refused. -/
  | refused (f : ServiceFault)
  /-- It broke down. -/
  | crashed (message : String)
  deriving DecidableEq, Repr

/-- A group that is handed over. -/
structure Handover where
  /-- The group. -/
  group : Group
  /-- The state of the matchmaker at that moment. -/
  seen : Service

/-- Everything that can be seen of a pass. -/
structure Pass where
  /-- What it came to. -/
  outcome : Except Failure Report
  /-- What the selector was offered, if it was asked. -/
  offered : Option (List Proposal)
  /-- The groups that were handed over, in their order. -/
  dispatched : List Handover
  /-- The replies to calls made in the meantime. -/
  replies : List Reply

namespace Service

/-- The state of a pass at its beginning. -/
def round (s : Service) (precision : Precision) : Round :=
  Round.start s.catalog.shelf s.roster.snapshot s.config precision s.intervals s.naming.group
    s.formed

/-- Lets all changes of the catalog take effect and forgets the intervals of tickets that are
gone. -/
def prepare (s : Service) : Service :=
  { s with
    catalog := s.catalog.commit
    intervals := s.intervals.filter fun id _ => s.roster.tickets.contains id }

/-- Makes some tickets active (`Matchmaker::promote`), those that still wait and are not; says how
many. -/
def promoteAll : List String → Service → Nat × Service
  | [], s => (0, s)
  | id :: rest, s =>
    let one := if s.roster.promotable id then 1 else 0
    let (n, s) := promoteAll rest { s with roster := s.roster.promote id }
    (one + n, s)

/-- Takes some tickets off the roster, out of the catalog and out of the count of intervals. -/
def retire (ids : List String) (s : Service) : Service :=
  if ids.isEmpty then s
  else { s with
    catalog := (s.catalog.removeAll ids).commit
    roster := ids.foldl Roster.remove s.roster
    intervals := ids.foldl Table.erase s.intervals }

/-- The tickets of some groups. -/
def matchedIds (groups : List Group) : List String := (groups.flatMap Group.ticketIds).eraseDups

/-- What the assembly of a pass leaves behind. -/
structure Assembled where
  /-- The groups, or why there are none. -/
  groups : Except Setback (List Group)
  /-- What the selector was offered, if it was asked. -/
  offered : Option (List Proposal)
  /-- The replies to calls made in the meantime. -/
  replies : List Reply
  /-- The state of the pass at its end. -/
  round : Round

/-- Forms the groups of a pass; calls are made in the meantime. -/
def assemble (s : Service) (precision : Precision) (inForming : List Intake) :
    Assembled × Service :=
  let start := s.round precision
  let (replies, later) := performAll inForming s
  match s.strategy with
  | .greedy =>
    let (groups, r) := Greedy.assemble start
    (⟨groups, none, replies, r⟩, later)
  | .selected selector =>
    let (found, r) := Exhaustive.propose start
    match r.breakdown with
    | some message => (⟨.error (.crashed message), none, replies, start⟩, later)
    | none =>
      if found.isEmpty then (⟨.ok [], none, replies, r⟩, later)
      else
        let (groups, r) := Exhaustive.settle found (selector s.asked) r
        (⟨groups, some found.offers, replies, r⟩, { later with asked := s.asked + 1 })

/-- The state in which a pass goes on after its assembly: intervals and groups are counted. -/
def resume (s : Service) (a : Assembled) : Service :=
  { s with intervals := a.round.intervals, formed := a.round.serial }

/-- Hands over groups one after the other. The first of the lists of calls is made before the first
group is handed over, the second one while it is handed over, and so on. -/
def handOver : List Group → List (List Intake) → Service → (List Handover × List Reply) × Service
  | [], calls, s =>
    let (replies, last) := performAll (calls.headD []) s
    (([], replies), last)
  | g :: rest, calls, s =>
    let (replies, s) := performAll (calls.headD []) s
    let ((handovers, others), last) := handOver rest calls.tail s
    ((⟨g, s⟩ :: handovers, replies ++ others), last)

/-- The end of a pass whose groups are formed. The first of the lists of calls is made between
retiring and promoting, the others while the groups are handed over. -/
def conclude (a : Assembled) (groups : List Group) (poolSize activeSize : Nat)
    (inSettling : List (List Intake)) (s : Service) : Pass × Service :=
  let ids := matchedIds groups
  let (early, s) := performAll (inSettling.headD []) (retire ids s)
  let (promoted, s) := promoteAll (a.round.promotions.filter fun id => !ids.contains id) s
  let ((handovers, late), s) := handOver groups inSettling.tail s
  (⟨.ok ⟨poolSize, activeSize, promoted, groups⟩, a.offered, handovers,
    a.replies ++ early ++ late⟩, s)

/-- The part of a pass that follows on its preparation. -/
def formGroups (s : Service) (precision : Precision) (inForming : List Intake)
    (inSettling : List (List Intake)) : Pass × Service :=
  let snapshot := s.roster.snapshot
  if snapshot.tickets.isEmpty then
    (⟨.ok ⟨snapshot.poolSize, snapshot.activeSize, 0, []⟩, none, [], []⟩, s)
  else
    let (a, s) := s.assemble precision inForming
    let s := s.resume a
    match a.groups with
    | .ok groups => conclude a groups snapshot.poolSize snapshot.activeSize inSettling s
    | .error (.crashed message) =>
      (⟨.error (.crashed message), a.offered, [], a.replies⟩, { s with poisoned := true })
    | .error (.refused message) =>
      let (_, s) := promoteAll a.round.promotions s
      (⟨.error (.refused (.selector message)), a.offered, [], a.replies⟩, s)

/-- The words for a state that a broken pass left behind. -/
def poisonedNotice : String := "poisoned lock: another task failed inside"

/-- Makes a pass (`Matchmaker::process`); some calls are made while its groups are formed, and
others between the steps that follow. -/
def process (s : Service) (precision : Precision) (inForming : List Intake)
    (inSettling : List (List Intake)) : Pass × Service :=
  if s.poisoned then (⟨.error (.refused (.poisoned poisonedNotice)), none, [], []⟩, s)
  else s.prepare.formGroups precision inForming inSettling

end Service

end Matchmaking
