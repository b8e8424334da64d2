import Mathlib.Algebra.BigOperators.Group.List.Basic
import Mathlib.Data.List.Dedup
import Matchmaking.Proofs.Journals
import Matchmaking.Proofs.Tallies

/-!
# The accounts of the ledger

The totals of the ledger are compared with what happened. A pass that was made is noted only when
its attempt is answered, so that while attempts are under way the ledger lags behind by what they
have still to add (`Tells.course`); once all attempts are answered it is right. Of the groups that
were handed over no two have a ticket in common, which is why the ledger may add up the tickets of
each group. Main statement: `accounts_of_run`.
-/

namespace Matchmaking

/-! ## Who did what -/

/-- Whether an attempt took the latch. -/
def Mark.isTook : Mark → Bool
  | .took => true
  | .made _ _ => false

/-- Whether an attempt made its pass. -/
def Mark.isMade : Mark → Bool
  | .took => false
  | .made _ _ => true

/-- The attempts that did something remarkable of some kind. -/
def authors (kind : Mark → Bool) (remarks : List Remark) : List Nat :=
  remarks.filterMap fun
    | .attempt i mark => if kind mark then some i else none
    | .call _ => none

/-- The attempts that took the latch. -/
def takers (remarks : List Remark) : List Nat := authors Mark.isTook remarks

/-- The attempts that made their passes, with these. -/
def madeBy (remarks : List Remark) : List (Nat × Pass) :=
  remarks.filterMap fun
    | .attempt i (.made _ pass) => some (i, pass)
    | _ => none

/-- The groups that a pass reports. -/
def Pass.reported (pass : Pass) : List Group :=
  match pass.outcome with
  | .ok report => report.matched
  | .error _ => []

/-- Whether a pass came to no report. -/
def Pass.failed (pass : Pass) : Bool :=
  match pass.outcome with
  | .ok _ => false
  | .error _ => true

/-- An answer that an attempt is given before it takes the latch. -/
inductive Refusal
  /-- Passes have been cancelled. -/
  | stopped
  /-- Another pass is under way. -/
  | passInProgress
  deriving DecidableEq, Repr

/-- Why an attempt that was answered made no pass. -/
def refusal? : Except ScheduleFault Report → Option Refusal
  | .error .stopped => some .stopped
  | .error .passInProgress => some .passInProgress
  | _ => none

namespace Task

/-- Whether a task is an attempt with a caller. -/
def isAttempt : Task → Bool
  | .attempt _ => true
  | _ => false

/-- Whether a task was answered so. -/
def answeredWith (refusal : Option Refusal) : Task → Bool
  | .attempt (.answered result) => refusal? result == refusal
  | _ => false

/-- Whether a task has taken the latch at some time. -/
def hasTaken : Task → Bool
  | .attempt .holding | .attempt .started => true
  | .attempt (.made _ _) | .attempt (.freed _ _) => true
  | .attempt (.answered result) => refusal? result == none
  | _ => false

/-- Whether a task has made its pass. -/
def hasMade : Task → Bool
  | .attempt (.made _ _) | .attempt (.freed _ _) => true
  | .attempt (.answered result) => refusal? result == none
  | _ => false

/-- What a task has still to add to a total, given what a pass adds. -/
def due (worth : Pass → Nat) : Task → Nat
  | .attempt (.made pass _) | .attempt (.freed pass _) => worth pass
  | _ => 0

end Task

theorem Pass.Ends.refusal? {pass : Pass} {n : Nat} {result : Except ScheduleFault Report}
    {outcome : Outcome} {groups tickets : Nat} (h : pass.Ends n result outcome groups tickets) :
    refusal? result = none := by
  cases h <;> rfl

/-! ## Totals -/

/-- A total of the ledger to which every pass adds what it is worth when its end is noted. -/
structure Tells (total : Ledger → Nat) (worth : Pass → Nat) : Prop where
  start : ∀ l : Ledger, total l.start = total l
  skip : ∀ (l : Ledger) reason, total (l.skip reason) = total l
  complete : ∀ (l : Ledger) now {pass : Pass} {n result outcome groups tickets},
    pass.Ends n result outcome groups tickets →
      total (l.complete now outcome 0 groups tickets) = total l + worth pass

theorem tells_runCount : Tells Ledger.runCount fun _ => 1 where
  start _ := rfl
  skip _ _ := rfl
  complete l now _ _ _ _ _ _ h := by cases h <;> rfl

theorem tells_errorCount : Tells Ledger.errorCount fun pass => pass.failed.toNat where
  start _ := rfl
  skip _ _ := rfl
  complete l now _ _ _ _ _ _ h := by
    cases h with
    | reported h | refused h | crashed h => simp [Ledger.complete, Pass.failed, h]

theorem tells_matchedGroups : Tells Ledger.matchedGroups fun pass => pass.reported.length where
  start _ := rfl
  skip _ _ := rfl
  complete l now _ _ _ _ _ _ h := by
    cases h with
    | reported h | refused h | crashed h => simp [Ledger.complete, Pass.reported, h]

theorem tells_matchedTickets : Tells Ledger.matchedTickets
    fun pass => (pass.reported.flatMap Group.ticketIds).length where
  start _ := rfl
  skip _ _ := rfl
  complete l now _ _ _ _ _ _ h := by
    cases h with
    | reported h =>
      simp [Ledger.complete, Pass.reported, h, Report.matchedTickets, List.length_flatMap,
        List.sum]
    | refused h | crashed h => simp [Ledger.complete, Pass.reported, h]

/-- What the passes of a journal are worth. -/
def worthOf (worth : Pass → Nat) (remarks : List Remark) : Nat :=
  ((madeBy remarks).map fun x => worth x.2).sum

theorem worthOf_toNat (test : Pass → Bool) (remarks : List Remark) :
    worthOf (fun pass => (test pass).toNat) remarks =
      (madeBy remarks).countP fun x => test x.2 := by
  unfold worthOf
  induction madeBy remarks with
  | nil => rfl
  | cons x rest ih =>
    rw [List.map_cons, List.sum_cons, ih, List.countP_cons, Nat.add_comm]
    cases htest : test x.2 <;> simp [htest]

theorem worthOf_one (remarks : List Remark) :
    worthOf (fun _ => 1) remarks = (madeBy remarks).length :=
  (worthOf_toNat (fun _ => true) remarks).trans (by simp)

/-- What the tasks have still to add. -/
def Traffic.due (worth : Pass → Nat) (s : Traffic) : Nat := (s.tasks.map (Task.due worth)).sum

section

variable {s s' : Traffic} {remarks : List Remark} {total : Ledger → Nat} {worth : Pass → Nat}

theorem worthOf_append (remarks rest : List Remark) :
    worthOf worth (remarks ++ rest) = worthOf worth remarks + worthOf worth rest := by
  simp [worthOf, madeBy, List.filterMap_append]

theorem Tells.advance (h : Tells total worth) (i : Nat) {t t' : Timetable} {task task' : Task}
    {mark : Option Mark} (hadvance : task.Advance t mark task' t') :
    total t'.ledger + task'.due worth =
      total t.ledger + task.due worth + worthOf worth (mark.map (.attempt i)).toList := by
  cases hadvance with
  | refuse | enter | cancel | reach | take | free | rest => rfl
  | skip => exact h.skip _ _
  | begin => exact h.start _
  | make m =>
    have hledger : (t.makePassAmid m).2.ledger = t.ledger := rfl
    simp [hledger, Task.due, worthOf, madeBy]
  | finish hends => exact h.complete _ _ hends
  | starting hledger _ | stopping hledger _ => exact congrArg total hledger

theorem Tells.occurs (h : Tells total worth) (hoccurs : s.Occurs remarks s') :
    total s'.timetable.ledger + s'.due worth =
      total s.timetable.ledger + s.due worth + worthOf worth remarks := by
  cases hoccurs with
  | begin d =>
    have hbegun : (Task.ofDemand d).due worth = 0 := by cases d <;> rfl
    simp [Traffic.due, worthOf, madeBy, hbegun]
  | @advance i task task' mark t' hi hadvance =>
    have hone := h.advance i hadvance
    have hall := sum_map_set_add (f := Task.due worth) hi task'
    simp only [Traffic.due]
    omega
  | call c => rfl

/-- The ledger and what the tasks have still to add grow by what the passes are worth. -/
theorem Tells.course (h : Tells total worth) (hcourse : s.Course remarks s') :
    total s'.timetable.ledger + s'.due worth =
      total s.timetable.ledger + s.due worth + worthOf worth remarks := by
  induction hcourse with
  | done s => rfl
  | next hfirst _ ih =>
    have hone := h.occurs hfirst
    rw [worthOf_append]
    omega

end

/-! ## Answers -/

/-- A total of the ledger that counts the tasks that were answered in some way. -/
structure Counts (total : Ledger → Nat) (refusal : Option Refusal) : Prop where
  start : ∀ l : Ledger, total l.start = total l
  skip : ∀ (l : Ledger) reason,
    total (l.skip reason) = total l + (some .passInProgress == refusal).toNat
  complete : ∀ (l : Ledger) now outcome groups tickets,
    total (l.complete now outcome 0 groups tickets) = total l + (none == refusal).toNat
  /-- The ledger knows nothing of attempts after the passes were cancelled. -/
  stopped : refusal ≠ some .stopped

theorem counts_runCount : Counts Ledger.runCount none where
  start _ := rfl
  skip _ _ := rfl
  complete l now outcome _ _ := by cases outcome <;> rfl
  stopped := nofun

theorem counts_skipCount : Counts Ledger.skipCount (some .passInProgress) where
  start _ := rfl
  skip _ _ := rfl
  complete l now outcome _ _ := by cases outcome <;> rfl
  stopped := nofun

section

variable {s s' : Traffic} {remarks : List Remark} {total : Ledger → Nat}
  {refusal : Option Refusal}

theorem Counts.advance (h : Counts total refusal) {t t' : Timetable} {task task' : Task}
    {mark : Option Mark} (hadvance : task.Advance t mark task' t') :
    total t'.ledger + (task.answeredWith refusal).toNat =
      total t.ledger + (task'.answeredWith refusal).toNat := by
  have hstopped : (some Refusal.stopped == refusal) = false := beq_false_of_ne h.stopped.symm
  cases hadvance with
  | refuse | cancel => simp [Task.answeredWith, refusal?, hstopped]
  | enter | reach | take | free | rest | make m => rfl
  | skip => exact h.skip _ _
  | begin => exact h.start _
  | finish hends =>
    simp only [Task.answeredWith, hends.refusal?]
    exact h.complete _ _ _ _ _
  | starting hledger _ | stopping hledger _ => exact congrArg total hledger

theorem Counts.occurs (h : Counts total refusal) (hoccurs : s.Occurs remarks s') :
    total s'.timetable.ledger + s.tasks.countP (Task.answeredWith refusal) =
      total s.timetable.ledger + s'.tasks.countP (Task.answeredWith refusal) := by
  cases hoccurs with
  | begin d =>
    have hbegun : (Task.ofDemand d).answeredWith refusal = false := by cases d <;> rfl
    simp [hbegun]
  | @advance i task task' mark t' hi hadvance =>
    have hone := h.advance hadvance
    have hall := countP_set_add (p := Task.answeredWith refusal) hi task'
    simp only
    omega
  | call c => rfl

theorem Counts.course (h : Counts total refusal) (hcourse : s.Course remarks s') :
    total s'.timetable.ledger + s.tasks.countP (Task.answeredWith refusal) =
      total s.timetable.ledger + s'.tasks.countP (Task.answeredWith refusal) := by
  induction hcourse with
  | done s => rfl
  | next hfirst _ ih =>
    have hone := h.occurs hfirst
    omega

end

/-! ## Attempts in the journal -/

/-- A property that a task gets with a remark of some kind, and keeps from then on. -/
structure Marks (kind : Mark → Bool) (has : Task → Bool) : Prop where
  begin : ∀ d, has (.ofDemand d) = false
  advance : ∀ {t t' task mark task'}, Task.Advance t task mark task' t' →
    (mark.any kind).toNat + (has task).toNat = (has task').toNat

theorem marks_took : Marks Mark.isTook Task.hasTaken where
  begin d := by cases d <;> rfl
  advance h := by
    cases h with
    | finish hends => simp [Task.hasTaken, hends.refusal?]
    | rest => exact Nat.zero_add _
    | _ => rfl

theorem marks_made : Marks Mark.isMade Task.hasMade where
  begin d := by cases d <;> rfl
  advance h := by
    cases h with
    | finish hends => simp [Task.hasMade, hends.refusal?]
    | rest => exact Nat.zero_add _
    | _ => rfl

theorem authors_append (kind : Mark → Bool) (remarks rest : List Remark) :
    authors kind (remarks ++ rest) = authors kind remarks ++ authors kind rest :=
  List.filterMap_append

theorem map_fst_madeBy (remarks : List Remark) :
    (madeBy remarks).map Prod.fst = authors Mark.isMade remarks := by
  induction remarks with
  | nil => rfl
  | cons r rest ih =>
    cases r with
    | call c => exact ih
    | attempt i mark =>
      cases mark with
      | took => exact ih
      | made m pass => exact congrArg (i :: ·) ih

section

variable {s s' : Traffic} {remarks : List Remark} {kind : Mark → Bool} {has : Task → Bool}

/-- That an attempt is named at most once, and that the lists of two kinds name the same attempts,
both follow from how often a list names each of them. -/
theorem Marks.occurs (h : Marks kind has) (hoccurs : s.Occurs remarks s') (i : Nat) :
    (authors kind remarks).count i + (s.tasks[i]?.any has).toNat = (s'.tasks[i]?.any has).toNat := by
  cases hoccurs with
  | begin d =>
    rw [authors, List.filterMap_nil, List.count_nil, Nat.zero_add, List.getElem?_append]
    split
    · rfl
    · rename_i hi
      rw [List.getElem?_eq_none (Nat.le_of_not_lt hi), List.getElem?_singleton]
      split <;> simp [h.begin]
  | @advance j task task' mark t' hj hadvance =>
    have hone := h.advance hadvance
    by_cases hij : i = j
    · subst hij
      rw [List.getElem?_set_self (List.getElem?_eq_some_iff.1 hj).1, hj, Option.any_some,
        Option.any_some, ← hone]
      cases mark with
      | none => rfl
      | some mark => cases hkind : kind mark <;> simp [authors, hkind]
    · rw [List.getElem?_set_ne (Ne.symm hij)]
      cases mark with
      | none => simp [authors]
      | some mark => cases hkind : kind mark <;> simp [authors, hkind, Ne.symm hij]
  | call c => simp [authors]

theorem Marks.course (h : Marks kind has) (hcourse : s.Course remarks s') (i : Nat) :
    (authors kind remarks).count i + (s.tasks[i]?.any has).toNat = (s'.tasks[i]?.any has).toNat := by
  induction hcourse with
  | done s => exact Nat.zero_add _
  | next hfirst _ ih =>
    have hone := h.occurs hfirst i
    rw [authors_append, List.count_append]
    omega

end

/-! ## Hand-overs -/

/-- A pass hands over the groups that it reports, and nothing if it fails. -/
theorem Service.map_group_dispatched_process (s : Service) (precision : Precision)
    (inForming : List Intake) (inSettling : List (List Intake)) :
    (s.process precision inForming inSettling).1.dispatched.map Handover.group =
      (s.process precision inForming inSettling).1.reported := by
  obtain ⟨hok, hfailed⟩ := s.dispatched_process precision inForming inSettling
  cases houtcome : (s.process precision inForming inSettling).1.outcome with
  | ok report => rw [hok report houtcome, Pass.reported, houtcome]
  | error failure => rw [hfailed failure houtcome, Pass.reported, houtcome]; rfl

/-- The groups that were handed over are those that the passes report. -/
theorem Traffic.Course.handedOver_historyFrom {s s' : Traffic} {remarks : List Remark}
    (h : s.Course remarks s') (n : Nat) :
    handedOver (Service.historyFrom n (eventsOf remarks) s.timetable.service) =
      (madeBy remarks).flatMap fun x => x.2.reported := by
  induction h generalizing n with
  | done s => rfl
  | @next s s₁ s' remarks rest hfirst _ ih =>
    cases hfirst with
    | begin d => exact ih n
    | call c =>
      have hevents : eventsOf ([.call c] ++ rest) = .call c :: eventsOf rest := rfl
      rw [hevents, Service.historyFrom, handedOver_append, Service.handedOver_deeds]
      exact ih n
    | advance hi hadvance =>
      cases hadvance with
      | make m =>
        rw [show eventsOf _ = .pass m.precision m.inForming m.inSettling :: eventsOf rest from rfl,
          Service.historyFrom, handedOver_append, Service.handedOver_deedsOfPass,
          Service.map_group_dispatched_process]
        exact congrArg _ (ih (n + 1))
      | starting _ hservice | stopping _ hservice =>
        rw [← hservice]
        exact ih n
      | _ => exact ih n

/-! ## When all attempts are answered -/

namespace Traffic

/-- No attempt is under way. -/
def Answered (s : Traffic) : Prop :=
  s.Attended ∧ ∀ a, .attempt a ∈ s.tasks → ∃ result, a = .answered result

variable {s : Traffic}

theorem Answered.due_eq_zero (h : s.Answered) (worth : Pass → Nat) : s.due worth = 0 := by
  refine List.sum_eq_zero fun n hn => ?_
  obtain ⟨task, htask, rfl⟩ := List.mem_map.1 hn
  cases task with
  | attempt a =>
    obtain ⟨result, rfl⟩ := h.2 a htask
    rfl
  | orphan _ | starting _ | stopping _ => rfl

theorem Answered.hasTaken_eq (h : s.Answered) {task : Task} (htask : task ∈ s.tasks) :
    task.hasTaken = task.hasMade := by
  cases task with
  | attempt a =>
    obtain ⟨result, rfl⟩ := h.2 a htask
    rfl
  | orphan _ | starting _ | stopping _ => rfl

/-- An attempt makes its pass, finds another one under way, or comes too late. -/
theorem Answered.countP_isAttempt (h : s.Answered) : s.tasks.countP Task.isAttempt =
    s.tasks.countP (Task.answeredWith none) +
      s.tasks.countP (Task.answeredWith (some .passInProgress)) +
        s.tasks.countP (Task.answeredWith (some .stopped)) := by
  have hanswered := h.2
  generalize s.tasks = tasks at hanswered ⊢
  induction tasks with
  | nil => rfl
  | cons task rest ih =>
    have hrest := ih fun a ha => hanswered a (List.mem_cons_of_mem task ha)
    have hone : (if task.isAttempt then 1 else 0) = (if task.answeredWith none then 1 else 0) +
        (if task.answeredWith (some .passInProgress) then 1 else 0) +
          (if task.answeredWith (some .stopped) then 1 else 0) := by
      cases task with
      | attempt a =>
        obtain ⟨result, rfl⟩ := hanswered a List.mem_cons_self
        rcases hrefusal : refusal? result with _ | _ | _ <;>
          simp [Task.isAttempt, Task.answeredWith, hrefusal]
      | orphan _ | starting _ | stopping _ => rfl
    simp only [List.countP_cons]
    omega

/-! ## The accounts -/

section

variable {service : Service} {timing : Timing} {n : Nat} {remarks : List Remark}

/-- On a new timetable the totals begin at zero, and once all attempts are answered nothing is
due. -/
theorem Answered.total_eq {total : Ledger → Nat} {worth : Pass → Nat} (h : s.Answered)
    (hcourse : (untouched (.idle service timing n)).Course remarks s) (htells : Tells total worth)
    (hzero : total {} = 0) : total s.timetable.ledger = worthOf worth remarks := by
  have hall : total s.timetable.ledger + s.due worth = total {} + 0 + worthOf worth remarks :=
    htells.course hcourse
  rw [h.due_eq_zero, hzero] at hall
  omega

theorem Course.countP_answeredWith {total : Ledger → Nat} {refusal : Option Refusal}
    (hcourse : (untouched (.idle service timing n)).Course remarks s)
    (hcounts : Counts total refusal) (hzero : total {} = 0) :
    total s.timetable.ledger = s.tasks.countP (Task.answeredWith refusal) := by
  have hall : total s.timetable.ledger + 0 =
      total {} + s.tasks.countP (Task.answeredWith refusal) := hcounts.course hcourse
  omega

theorem Course.count_authors {kind : Mark → Bool} {has : Task → Bool}
    (hcourse : (untouched (.idle service timing n)).Course remarks s) (hmarks : Marks kind has)
    (i : Nat) : (authors kind remarks).count i = (s.tasks[i]?.any has).toNat := by
  have hall : (authors kind remarks).count i + 0 = (s.tasks[i]?.any has).toNat :=
    hmarks.course hcourse i
  omega

theorem Course.nodup_takers (hcourse : (untouched (.idle service timing n)).Course remarks s) :
    (takers remarks).Nodup := by
  refine List.nodup_iff_count_le_one.2 fun i => ?_
  rw [takers, hcourse.count_authors marks_took]
  exact Bool.toNat_le _

theorem Answered.makers_perm (h : s.Answered)
    (hcourse : (untouched (.idle service timing n)).Course remarks s) :
    ((madeBy remarks).map Prod.fst).Perm (takers remarks) := by
  refine List.perm_iff_count.2 fun i => ?_
  rw [map_fst_madeBy, takers, hcourse.count_authors marks_made, hcourse.count_authors marks_took]
  cases htask : s.tasks[i]? with
  | none => rfl
  | some task => rw [Option.any_some, Option.any_some, h.hasTaken_eq (List.mem_of_getElem? htask)]

/-- The groups of a history that begins with calls are those that the passes report. -/
theorem Course.handedOver_history {s₀ : Service} {before : List Intake}
    (hcourse : (untouched (.idle (s₀.run (before.map .call)) timing n)).Course remarks s) :
    handedOver (s₀.history (before.map .call ++ eventsOf remarks)) =
      (madeBy remarks).flatMap fun x => x.2.reported := by
  rw [Service.history, Service.handedOver_historyFrom_calls]
  exact hcourse.handedOver_historyFrom 0

end

/-- What the ledger of a timetable says about the run that led to it. -/
structure Accounts (s : Traffic) (remarks : List Remark) (log : List Deed) : Prop where
  /-- No attempt takes the latch twice. -/
  once : (takers remarks).Nodup
  /-- Those that took it are those that made their passes. -/
  makers : ((madeBy remarks).map Prod.fst).Perm (takers remarks)
  /-- The runs are the attempts that took the latch. -/
  runs : s.timetable.ledger.runCount = (takers remarks).length
  /-- The errors are those of them whose passes failed. -/
  errors : s.timetable.ledger.errorCount = (madeBy remarks).countP fun x => x.2.failed
  /-- The skips are the attempts that found another pass under way. -/
  skips : s.timetable.ledger.skipCount =
    s.tasks.countP (Task.answeredWith (some .passInProgress))
  /-- The attempts that came too late are counted nowhere. -/
  attempts : s.tasks.countP Task.isAttempt = s.timetable.ledger.runCount +
    s.timetable.ledger.skipCount + s.tasks.countP (Task.answeredWith (some .stopped))
  /-- The groups are those that were handed over. -/
  groups : s.timetable.ledger.matchedGroups = (handedOver log).length
  /-- The tickets are those in these groups, each counted once. -/
  tickets : s.timetable.ledger.matchedTickets = (handedIds log).dedup.length
  /-- If no ticket was withdrawn, these and the waiting ones are all that were submitted. -/
  conserved : (∀ id, withdrawals log id = []) →
    s.timetable.ledger.matchedTickets + s.timetable.service.roster.size =
      (submittedIds log).length

/-- A matchmaker all of whose passes are made on one timetable: its run is what the journal says, and
whenever no attempt is under way, and no caller has gone away, the totals of the ledger are those of
what happened. -/
theorem accounts_of_run {config : Config} {strategy : Strategy} {naming : Naming} {s₀ : Service}
    (hcreate : Service.create config strategy naming = .ok s₀) {before : List Intake}
    {timing : Timing} {n : Nat} {t : Timetable}
    (htimetable : Timetable.create (s₀.run (before.map .call)) timing n = .ok t)
    {incidents : List Incident} (hrun : (untouched t).runAmid incidents = some s)
    (hpresent : ∀ i, .event (.abandon i) ∉ incidents) (hfresh : s.timetable.service.FreshNames)
    (hanswered : ∀ a, .attempt a ∈ s.tasks → ∃ result, a = .answered result) :
    s.timetable.service =
        s₀.run (before.map .call ++ eventsOf ((untouched t).journal incidents)) ∧
      s.Accounts ((untouched t).journal incidents)
        (s₀.history (before.map .call ++ eventsOf ((untouched t).journal incidents))) := by
  obtain rfl := eq_idle_of_create htimetable
  have hcourse : (untouched (.idle (s₀.run (before.map .call)) timing n)).Course
      ((untouched (.idle (s₀.run (before.map .call)) timing n)).journal incidents) s :=
    course_of_runAmid hrun nofun hpresent
  have hdone : s.Answered := ⟨hcourse.attended nofun, hanswered⟩
  -- From here on only the journal matters, not the run that it was kept of.
  generalize (untouched (.idle (s₀.run (before.map .call)) timing n)).journal incidents =
    remarks at hcourse ⊢
  have hservice : s.timetable.service = s₀.run (before.map .call ++ eventsOf remarks) := by
    rw [Service.run_append]
    exact hcourse.service
  rw [hservice] at hfresh
  obtain ⟨hnodup, hconserved⟩ := length_submittedIds hcreate _ hfresh
  have hhanded := hcourse.handedOver_history
  have hmakers := hdone.makers_perm hcourse
  have hruns : s.timetable.ledger.runCount = (takers remarks).length := by
    rw [hdone.total_eq hcourse tells_runCount rfl, worthOf_one, ← hmakers.length_eq,
      List.length_map]
  have hskips := hcourse.countP_answeredWith counts_skipCount rfl
  -- The ledger adds up the tickets of each group; that no ticket is in two groups comes last.
  have htickets : s.timetable.ledger.matchedTickets =
      (handedIds (s₀.history (before.map .call ++ eventsOf remarks))).length := by
    rw [hdone.total_eq hcourse tells_matchedTickets rfl, handedIds, hhanded, List.flatMap_assoc,
      List.length_flatMap]
    rfl
  refine ⟨hservice, hcourse.nodup_takers, hmakers, hruns, ?_, hskips, ?_, ?_, ?_, fun hw => ?_⟩
  · rw [hdone.total_eq hcourse tells_errorCount rfl, worthOf_toNat]
  · rw [hdone.countP_isAttempt, ← hskips, ← hcourse.countP_answeredWith counts_runCount rfl]
  · rw [hdone.total_eq hcourse tells_matchedGroups rfl, hhanded, List.length_flatMap]
    rfl
  · rw [htickets, List.dedup_eq_self.2 hnodup]
  · rw [htickets, hservice]
    exact (hconserved hw).symm

/-- Two callers ask for a pass at the same time; while the pass of one of them hands over a group,
somebody asks for another pair. -/
def pairIncidents : List Incident :=
  [.event (.demand .pass), .event (go 0), .event (go 0), .event (go 0), .event (.demand .pass),
    .event (go 1), .event (go 1), .event (go 1), .event (go 0),
    .pass 0 ⟨.off, [], [[.submit none (.solo "s" "u" "*" 2 2 1)]]⟩, .event (go 0)]

/-- The answer to the first caller is all that is missing. -/
theorem exists_run_pairIncidents : ∃ s result,
    pairUntouched.runAmid (pairIncidents ++ [.event (go 0)]) = some s ∧
      refusal? result = none ∧
      s.tasks = [.attempt (.answered result), .attempt (.answered (.error .passInProgress))] := by
  obtain ⟨s, pass, n, hrun, htasks⟩ : ∃ s pass n, pairUntouched.runAmid pairIncidents = some s ∧
      s.tasks = [.attempt (.freed pass n), .attempt (.answered (.error .passInProgress))] :=
    ⟨_, _, _, rfl, rfl⟩
  obtain ⟨result, hrefusal, hresult⟩ : ∃ result, refusal? result = none ∧
      (Attempt.step (.freed pass n, s.timetable)).1 = .answered result := by
    simp only [Attempt.step]
    split <;> exact ⟨_, rfl, rfl⟩
  refine ⟨⟨(Attempt.step (.freed pass n, s.timetable)).2,
    [.attempt (.answered result), .attempt (.answered (.error .passInProgress))]⟩, result, ?_,
    hrefusal, rfl⟩
  rw [runAmid_append, hrun]
  simp [runAmid, stepAmid, step, go, htasks, Task.step, hresult]

/-- One of the two callers makes a pass, and the other one is skipped. -/
theorem accounts_pairIncidents : ∃ s,
    pairUntouched.runAmid (pairIncidents ++ [.event (go 0)]) = some s ∧
    s.timetable.ledger.runCount = 1 ∧ s.timetable.ledger.skipCount = 1 ∧
    s.Accounts (pairUntouched.journal (pairIncidents ++ [.event (go 0)]))
      ((Service.empty {} .greedy Service.strokes).history (Service.pairCalls.map .call ++
        eventsOf (pairUntouched.journal (pairIncidents ++ [.event (go 0)])))) := by
  obtain ⟨s, result, hrun, hrefusal, htasks⟩ := exists_run_pairIncidents
  have hpresent : ∀ i, .event (.abandon i) ∉ pairIncidents ++ [.event (go 0)] := by
    simp [pairIncidents, go]
  have hfresh : s.timetable.service.FreshNames := by
    rw [(course_of_runAmid hrun nofun hpresent).service]
    exact Service.freshNames_of_moves Service.strokes_injective
      ((Service.moves_run (Service.pairCalls.map .call) (.empty {} .greedy Service.strokes)).trans
        (Service.moves_run _ Service.pairWaiting))
  have htimetable : Timetable.create Service.pairWaiting {} 0 =
    .ok (.idle Service.pairWaiting {} 0) := rfl
  obtain ⟨-, haccounts⟩ := accounts_of_run (Service.create_standard .greedy Service.strokes) htimetable
    hrun hpresent hfresh fun a ha => by
      rw [htasks, List.mem_cons, List.mem_singleton] at ha
      rcases ha with ha | ha <;> cases ha <;> exact ⟨_, rfl⟩
  refine ⟨s, hrun, haccounts.runs, haccounts.skips.trans ?_, haccounts⟩
  simp only [htasks, List.countP_cons, List.countP_nil, Task.answeredWith, hrefusal]
  rfl

end Traffic

end Matchmaking
