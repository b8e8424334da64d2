import Matchmaking.Proofs.Lists
import Matchmaking.Proofs.Runs
import Matchmaking.Schedule.Traffic

/-!
# Interleavings

Everything that happens on a timetable is one of four things: somebody has a demand, a task takes
its next step, a caller goes away, or a client calls the matchmaker. What each of them can be and
what it changes is said here once (`Happens`), so that what runs keep is shown by cases.

Much of what runs keep are tokens: something that is always in exactly one place. The latch is such
a token: it is free, or exactly one attempt has it (`Arises.latch_token`).
-/

namespace Matchmaking

/-! ## Steps -/

/-- How the end of a pass is answered and noted; `n` is the number of the task that made it. -/
inductive Pass.Ends (pass : Pass) (n : Nat) :
    Except ScheduleFault Report → Outcome → Nat → Nat → Prop
  | reported {report : Report} (h : pass.outcome = .ok report) :
    Ends pass n (.ok report) .success report.matched.length report.matchedTickets
  | refused {fault : ServiceFault} (h : pass.outcome = .error (.refused fault)) :
    Ends pass n (.error (.pass fault)) (.failed fault.message) 0 0
  | crashed {message : String} (h : pass.outcome = .error (.crashed message)) :
    Ends pass n (.error (.task (taskNotice n message))) (.failed (taskNotice n message)) 0 0

/-- What the next step of an attempt can be. -/
inductive Attempt.Step (t : Timetable) : Attempt → Attempt → Timetable → Prop
  | refused (h : t.phase = .stopped) : Step t .asked (.answered (.error .stopped)) t
  | enter (h : t.phase ≠ .stopped) : Step t .asked .entered t
  | cancelled (h : t.cancelled = true) : Step t .entered (.answered (.error .stopped)) t
  | reach (h : t.cancelled = false) : Step t .entered .reaching t
  | skip (h : t.latch.held = true) :
    Step t .reaching (.answered (.error .passInProgress)) t.noteSkip
  | take (h : t.latch.held = false) :
    Step t .reaching .holding { t with latch := { t.latch with held := true } }
  | begin : Step t .holding .started { t with ledger := t.ledger.start }
  | make : Step t .started (.made t.makePass.1 t.nextTask) t.makePass.2
  | free {pass : Pass} {n : Nat} :
    Step t (.made pass n) (.freed pass n) { t with latch := t.latch.release }
  | finish {pass : Pass} {n : Nat} {result : Except ScheduleFault Report} {outcome : Outcome}
    {groups tickets : Nat} (h : pass.Ends n result outcome groups tickets) :
    Step t (.freed pass n) (.answered result) (t.noteEnd outcome groups tickets)
  | rest {result : Except ScheduleFault Report} : Step t (.answered result) (.answered result) t

theorem Attempt.step_spec (a : Attempt) (t : Timetable) :
    Attempt.Step t a (step (a, t)).1 (step (a, t)).2 := by
  cases a with
  | asked =>
    simp only [step]
    split
    · exact .refused ‹_›
    · exact .enter ‹_›
  | entered =>
    simp only [step]
    split
    · exact .cancelled ‹_›
    · exact .reach (Bool.not_eq_true _ ▸ ‹_›)
  | reaching =>
    simp only [step, Latch.take?]
    cases hheld : t.latch.held with
    | true => exact .skip hheld
    | false => exact .take hheld
  | holding => exact .begin
  | started => exact .make
  | made pass n => exact .free
  | freed pass n =>
    simp only [step]
    split
    · exact .finish (.reported ‹_›)
    · exact .finish (.refused ‹_›)
    · exact .finish (.crashed ‹_›)
  | answered result => exact .rest

/-- What the next step of a call can be that starts the timetable. -/
inductive Starting.Step (refusal : Option String) (t : Timetable) :
    Starting → Starting → Timetable → Prop
  | again (h : t.phase = .running) :
    Step refusal t .asked (.answered (.error .alreadyRunning)) t
  | stopped (h : t.phase = .stopped) : Step refusal t .asked (.answered (.error .stopped)) t
  | launch (h : t.phase = .idle) : Step refusal t .asked .registering { t with phase := .running }
  | refused {detail : String} (h : refusal = some detail) :
    Step refusal t .registering (.answered (.error (.timer detail))) { t with phase := .idle }
  | registered (h : refusal = none) :
    Step refusal t .registering (.answered (.ok ())) { t with job := true }
  | rest {result : Except ScheduleFault Unit} :
    Step refusal t (.answered result) (.answered result) t

theorem Starting.step_spec (refusal : Option String) (s : Starting) (t : Timetable) :
    Starting.Step refusal t s (step refusal (s, t)).1 (step refusal (s, t)).2 := by
  cases s with
  | asked =>
    simp only [step]
    split
    · exact .again ‹_›
    · exact .stopped ‹_›
    · exact .launch ‹_›
  | registering =>
    cases refusal with
    | none => exact .registered rfl
    | some detail => exact .refused rfl
  | answered result => exact .rest

/-- What the next step of a call can be that stops the timetable. -/
inductive Stopping.Step (expired : Bool) (t : Timetable) : Stopping → Stopping → Timetable → Prop
  | idle (h : t.phase ≠ .running) :
    Step expired t .asked (.answered (.error .notRunning) false) t
  | stop (h : t.phase = .running) : Step expired t .asked .cancelling { t with phase := .stopped }
  | cancel : Step expired t .cancelling .draining { t with cancelled := true }
  | drained (h : t.latch.held = false) : Step expired t .draining (.answered (.ok ()) true) t
  | expired (h : t.latch.held = true) (hexpired : expired = true) :
    Step expired t .draining (.answered (.ok ()) false) t
  | wait (h : t.latch.held = true) (hexpired : expired = false) :
    Step expired t .draining .draining t
  | rest {result : Except ScheduleFault Unit} {inTime : Bool} :
    Step expired t (.answered result inTime) (.answered result inTime) t

theorem Stopping.step_spec (expired : Bool) (s : Stopping) (t : Timetable) :
    Stopping.Step expired t s (step expired (s, t)).1 (step expired (s, t)).2 := by
  cases s with
  | asked =>
    simp only [step]
    split
    · exact .stop ‹_›
    · exact .idle ‹_›
  | cancelling => exact .cancel
  | draining =>
    simp only [step, Latch.isIdle_eq]
    cases hheld : t.latch.held with
    | false => exact .drained hheld
    | true =>
      cases expired with
      | false => exact .wait hheld rfl
      | true => exact .expired hheld rfl
  | answered result inTime => exact .rest

/-- What the next step of a task can be. -/
inductive Task.Turn (c : Circumstance) (t : Timetable) : Task → Task → Timetable → Prop
  | attempt {a a' : Attempt} {t' : Timetable} (h : a.Step t a' t') :
    Turn c t (.attempt a) (.attempt a') t'
  /-- An attempt goes on whose caller has gone away. -/
  | orphan {a a' : Attempt} {t' : Timetable} (h : a.Step t a' t') (hend : ∀ p n, a ≠ .freed p n) :
    Turn c t (.orphan a) (.orphan a') t'
  /-- Its pass is over, but nobody is there to note that. -/
  | lost {pass : Pass} {n : Nat} : Turn c t (.orphan (.freed pass n)) (.orphan (.freed pass n)) t
  | starting {s s' : Starting} {t' : Timetable} (h : s.Step c.refusal t s' t') :
    Turn c t (.starting s) (.starting s') t'
  | stopping {s s' : Stopping} {t' : Timetable} (h : s.Step c.expired t s' t') :
    Turn c t (.stopping s) (.stopping s') t'

theorem Task.step_spec (c : Circumstance) (t : Timetable) (task : Task) :
    Task.Turn c t task (task.step c t).1 (task.step c t).2 := by
  cases task with
  | attempt a => exact .attempt (a.step_spec t)
  | orphan a =>
    cases a with
    | freed pass n => exact .lost
    | _ => exact .orphan (Attempt.step_spec _ t) nofun
  | starting s => exact .starting (s.step_spec c.refusal t)
  | stopping s => exact .stopping (s.step_spec c.expired t)

/-! ## Events and runs -/

namespace Traffic

variable {s s' s'' : Traffic} {e : Event} {events : List Event}

/-- What something that happens leaves behind. -/
inductive Happens (s : Traffic) : Event → Traffic → Prop
  /-- A task is begun. -/
  | demand (d : Demand) : Happens s (.demand d) { s with tasks := s.tasks ++ [.ofDemand d] }
  /-- A task takes its next step. -/
  | turn {i : Nat} {c : Circumstance} {task task' : Task} {t' : Timetable}
    (h : s.tasks[i]? = some task) (hturn : task.Turn c s.timetable task' t') :
    Happens s (.turn i c) ⟨t', s.tasks.set i task'⟩
  /-- The caller of a task goes away. -/
  | abandon {i : Nat} {task orphan : Task} (h : s.tasks[i]? = some task)
    (horphan : task.abandon? = some orphan) :
    Happens s (.abandon i) { s with tasks := s.tasks.set i orphan }
  /-- A client calls. -/
  | call (c : Intake) : Happens s (.call c) { s with timetable := (s.timetable.perform c).2 }

theorem happens_of_step (h : s.step e = some s') : Happens s e s' := by
  cases e with
  | demand d =>
    cases d with
    | tick =>
      simp only [step] at h
      split at h
      · cases h
        exact .demand .tick
      · cases h
    | pass | start | stop =>
      cases h
      exact .demand _
  | turn i c =>
    obtain ⟨task, htask, rfl⟩ := Option.map_eq_some_iff.1 h
    exact .turn htask (task.step_spec c s.timetable)
  | abandon i =>
    obtain ⟨task, htask, h⟩ := Option.bind_eq_some_iff.1 h
    obtain ⟨orphan, horphan, h⟩ := Option.bind_eq_some_iff.1 h
    cases h
    exact .abandon htask horphan
  | call c =>
    cases h
    exact .call c

/-- What the task of a number can become when something happens. -/
inductive Next (s : Traffic) (e : Event) (t' : Timetable) (i : Nat) : Task → Task → Prop
  /-- It takes a step. -/
  | turned {c : Circumstance} {task task' : Task} (he : e = .turn i c)
    (hturn : task.Turn c s.timetable task' t') : Next s e t' i task task'
  /-- Its caller goes away. -/
  | left {task orphan : Task} (he : e = .abandon i) (horphan : task.abandon? = some orphan) :
    Next s e t' i task orphan
  /-- It stays as it is. -/
  | kept {task : Task} (he : ∀ c, e ≠ .turn i c) : Next s e t' i task task

theorem Happens.next (h : Happens s e s') {i : Nat} {task : Task}
    (htask : s.tasks[i]? = some task) :
    ∃ task', s'.tasks[i]? = some task' ∧ Next s e s'.timetable i task task' := by
  have hi : i < s.tasks.length := (List.getElem?_eq_some_iff.1 htask).1
  cases h with
  | demand d => exact ⟨task, (List.getElem?_append_left hi).trans htask, .kept nofun⟩
  | @turn j c before task' t' hbefore hturn =>
    by_cases hj : j = i
    · subst hj
      obtain rfl := Option.some.inj (htask.symm.trans hbefore)
      exact ⟨task', List.getElem?_set_self hi, .turned rfl hturn⟩
    · refine ⟨task, (List.getElem?_set_ne hj).trans htask, .kept ?_⟩
      intro c he
      cases he
      exact hj rfl
  | @abandon j before orphan hbefore horphan =>
    by_cases hj : j = i
    · subst hj
      obtain rfl := Option.some.inj (htask.symm.trans hbefore)
      exact ⟨orphan, List.getElem?_set_self hi, .left rfl horphan⟩
    · exact ⟨task, (List.getElem?_set_ne hj).trans htask, .kept nofun⟩
  | call c => exact ⟨task, htask, .kept nofun⟩

/-- A task that is there after something happened was begun just now, or comes of one that was
there. -/
theorem Happens.origin (h : Happens s e s') {i : Nat} {task : Task}
    (htask : s'.tasks[i]? = some task) :
    (∃ d, e = .demand d ∧ i = s.tasks.length ∧ task = .ofDemand d) ∨
      ∃ before, s.tasks[i]? = some before ∧ Next s e s'.timetable i before task := by
  by_cases hi : i < s.tasks.length
  · obtain ⟨task', htask', hnext⟩ := h.next (List.getElem?_eq_getElem hi)
    obtain rfl := Option.some.inj (htask.symm.trans htask')
    exact .inr ⟨_, List.getElem?_eq_getElem hi, hnext⟩
  · have hi' : i < s'.tasks.length := (List.getElem?_eq_some_iff.1 htask).1
    cases h with
    | demand d =>
      rw [List.length_append, List.length_singleton] at hi'
      obtain rfl : i = s.tasks.length := by omega
      refine .inl ⟨d, rfl, rfl, ?_⟩
      simpa using htask.symm
    | turn _ _ | abandon _ _ =>
      rw [List.length_set] at hi'
      exact absurd hi' hi
    | call c => exact absurd hi' hi

theorem run_append (before after : List Event) (s : Traffic) :
    s.run (before ++ after) = (s.run before).bind fun s => s.run after := by
  induction before generalizing s with
  | nil => rfl
  | cons e rest ih =>
    rw [List.cons_append, run, run, Option.bind_assoc]
    exact congrArg _ (funext ih)

/-- What everything that happens keeps is kept by runs. -/
theorem run_keep {P : Traffic → Prop} (hP : ∀ {s e s'}, Happens s e s' → P s → P s')
    (h : s.run events = some s') (hs : P s) : P s' := by
  induction events generalizing s with
  | nil =>
    cases h
    exact hs
  | cons e rest ih =>
    obtain ⟨s₁, hstep, hrest⟩ := Option.bind_eq_some_iff.1 h
    exact ih hrest (hP (happens_of_step hstep) hs)

/-- A timetable on which nothing was begun. -/
def untouched (t : Timetable) : Traffic := ⟨t, []⟩

/-- What can be the case some time after a new timetable was made. -/
def Arises (s : Traffic) : Prop :=
  ∃ service timing n t events, Timetable.create service timing n = .ok t ∧
    (untouched t).run events = some s

theorem eq_idle_of_create {service : Service} {timing : Timing} {n : Nat} {t : Timetable}
    (h : Timetable.create service timing n = .ok t) : t = .idle service timing n := by
  unfold Timetable.create at h
  split at h
  · cases h
  · exact (Except.ok.inj h).symm

theorem Arises.keep {P : Traffic → Prop}
    (h₀ : ∀ service timing n, P (untouched (.idle service timing n)))
    (hP : ∀ {s e s'}, Happens s e s' → P s → P s') (h : s.Arises) : P s := by
  obtain ⟨service, timing, n, t, events, hcreate, hrun⟩ := h
  obtain rfl := eq_idle_of_create hcreate
  exact run_keep hP hrun (h₀ service timing n)

theorem Arises.run (h : s.Arises) (hrun : s.run events = some s') : s'.Arises := by
  obtain ⟨service, timing, n, t, before, hcreate, hbefore⟩ := h
  refine ⟨service, timing, n, t, before ++ events, hcreate, ?_⟩
  rw [run_append, hbefore]
  exact hrun

theorem Arises.step (h : s.Arises) (hstep : s.step e = some s') : s'.Arises := by
  have hrun : s.run [e] = some s' := by
    rw [Traffic.run, hstep]
    rfl
  exact h.run hrun

end Traffic

/-! ## Tokens -/

namespace Traffic

variable {s s' : Traffic} {e : Event}

/-- If every turn of a task moves a token between the tasks and the timetable or leaves it where it
is, then so does everything that happens. -/
theorem Happens.balance {p : Task → Bool} {φ : Timetable → Nat} (h : Happens s e s')
    (hbegin : ∀ d, p (.ofDemand d) = false)
    (hturn : ∀ {task task' c t'}, task ∈ s.tasks → task.Turn c s.timetable task' t' →
      (p task').toNat + φ t' = (p task).toNat + φ s.timetable)
    (habandon : ∀ {task orphan}, task.abandon? = some orphan → p orphan = p task)
    (hcall : ∀ c, φ (s.timetable.perform c).2 = φ s.timetable) :
    s'.tasks.countP p + φ s'.timetable = s.tasks.countP p + φ s.timetable := by
  cases h with
  | demand d => simp [hbegin]
  | @turn i c task task' t' htask hstep =>
    have hmoved := hturn (List.mem_of_getElem? htask) hstep
    have hset := countP_set_add (p := p) htask task'
    simp only
    omega
  | abandon htask horphan =>
    have hset := countP_set_add (p := p) htask
    have hsame := habandon horphan
    simp only [← hsame] at hset ⊢
    rw [Nat.add_right_cancel (hset _)]
  | call c => simp only [hcall]

end Traffic

/-! ## The latch -/

/-- Whether an attempt has the latch. -/
def Attempt.holds : Attempt → Bool
  | .holding | .started | .made _ _ => true
  | _ => false

/-- Whether an attempt makes its pass: it noted the beginning and did not free the latch again. -/
def Attempt.executes : Attempt → Bool
  | .started | .made _ _ => true
  | _ => false

namespace Task

/-- The attempt that a task makes, with or without a caller. -/
def attempt? : Task → Option Attempt
  | .attempt a | .orphan a => some a
  | _ => none

/-- Whether a task has the latch. -/
def holds (task : Task) : Bool := task.attempt?.any Attempt.holds

/-- Whether a task makes its pass. -/
def executes (task : Task) : Bool := task.attempt?.any Attempt.executes

theorem holds_of_executes {task : Task} (h : task.executes = true) : task.holds = true := by
  obtain ⟨a, ha, hexecutes⟩ := (Option.any_eq_true _ _).1 h
  refine (Option.any_eq_true _ _).2 ⟨a, ha, ?_⟩
  cases a <;> first | rfl | cases hexecutes

/-- Whoever goes away leaves the attempt as it is. -/
theorem attempt?_of_abandon? {task orphan : Task} (h : task.abandon? = some orphan) :
    orphan.attempt? = task.attempt? := by
  unfold abandon? at h
  split at h <;> cases h <;> rfl

theorem holds_of_abandon? {task orphan : Task} (h : task.abandon? = some orphan) :
    orphan.holds = task.holds := by
  rw [holds, holds, attempt?_of_abandon? h]

end Task

/-- An attempt takes the latch where it is free and frees it where it has it. -/
theorem Attempt.Step.balance {a a' : Attempt} {t t' : Timetable} (h : a.Step t a' t')
    (hheld : a.holds = true → t.latch.held = true) :
    a'.holds.toNat + (!t'.latch.held).toNat = a.holds.toNat + (!t.latch.held).toNat := by
  cases h with
  | skip _ => simp [holds, Timetable.noteSkip]
  | take hfree => simp [holds, hfree]
  | free => simp [holds, hheld rfl]
  | _ => rfl

namespace Traffic

variable {s : Traffic}

/-- The latch is free, or exactly one task has it. -/
theorem Arises.latch_token (h : s.Arises) :
    s.tasks.countP Task.holds + (!s.timetable.latch.held).toNat = 1 := by
  refine h.keep (P := fun s => s.tasks.countP Task.holds + (!s.timetable.latch.held).toNat = 1)
    (fun _ _ _ => rfl) ?_
  intro s e s' hhappens hs
  rw [← hs]
  have hheld : ∀ task ∈ s.tasks, task.holds = true → s.timetable.latch.held = true := by
    intro task hmem hholds
    have hnot := eq_zero_of_countP_add hs hmem hholds
    rwa [Bool.toNat_eq_zero, Bool.not_eq_false'] at hnot
  refine hhappens.balance (φ := fun t => (!t.latch.held).toNat) ?_ ?_ Task.holds_of_abandon?
    fun _ => rfl
  · intro d
    cases d <;> rfl
  · intro task task' c t' hmem hturn
    cases hturn with
    | attempt h | orphan h => exact h.balance (hheld _ hmem)
    | lost => rfl
    | starting h | stopping h => cases h <;> rfl

/-- While the latch is free, no task has it. -/
theorem Arises.holds_eq_false (h : s.Arises) (hfree : s.timetable.latch.held = false) {task : Task}
    (hmem : task ∈ s.tasks) : task.holds = false := by
  refine Bool.eq_false_iff.2 ?_
  intro hholds
  have hnot := eq_zero_of_countP_add h.latch_token hmem hholds
  rw [hfree] at hnot
  cases hnot

/-- While no task has the latch, it is free. -/
theorem Arises.latch_free (h : s.Arises) (hnone : ∀ task ∈ s.tasks, task.holds = false) :
    s.timetable.latch.held = false := by
  have htoken := h.latch_token
  rw [List.countP_eq_zero.2 fun task hmem => Bool.eq_false_iff.1 (hnone task hmem)] at htoken
  cases hheld : s.timetable.latch.held with
  | false => rfl
  | true =>
    rw [hheld] at htoken
    cases htoken

/-- No two tasks have the latch. -/
theorem Arises.eq_of_holds (h : s.Arises) {i j : Nat} {a b : Task} (hi : s.tasks[i]? = some a)
    (ha : a.holds = true) (hj : s.tasks[j]? = some b) (hb : b.holds = true) : i = j :=
  eq_of_countP_le_one (Nat.le.intro h.latch_token) hi ha hj hb

/-! ## A timetable for two users who ask for a pair -/

/-- A task takes its next step; the timer does not refuse the job, and there is time to wait. -/
def go (i : Nat) : Event := .turn i ⟨none, false⟩

/-- A new timetable for the matchmaker at which the two wait. -/
def pairUntouched : Traffic := untouched (.idle Service.pairWaiting {} 0)

theorem arises_of_pairUntouched {events : List Event} (h : pairUntouched.run events = some s) :
    s.Arises :=
  ⟨Service.pairWaiting, {}, 0, _, events, rfl, h⟩

end Traffic

end Matchmaking
