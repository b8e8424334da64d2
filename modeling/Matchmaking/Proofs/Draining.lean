import Matchmaking.Proofs.Interleavings

/-!
# Stopping drains

A call that stops the timetable cancels passes and then waits until the latch is free. An attempt
looks at the cancellation before it reaches for the latch, and these are two steps: one that has
looked already when passes are cancelled, and reaches for the latch only after the stop has found
it free, makes its pass all the same. Such attempts are all that is left (`quiet_of_drained`).
-/

namespace Matchmaking

/-! ## After the cancellation -/

/-- Whether an attempt has found that passes are not cancelled, and did not free the latch yet. -/
def Attempt.committed : Attempt → Bool
  | .reaching => true
  | a => a.holds

theorem Attempt.Step.cancelled_eq {a a' : Attempt} {t t' : Timetable} (h : a.Step t a' t') :
    t'.cancelled = t.cancelled := by
  cases h <;> rfl

/-- Once passes are cancelled, no further attempt commits itself. -/
theorem Attempt.Step.committed_of_cancelled {a a' : Attempt} {t t' : Timetable}
    (h : a.Step t a' t') (hcancelled : t.cancelled = true) (ha' : a'.committed = true) :
    a.committed = true := by
  cases h with
  | reach hnot =>
    rw [hcancelled] at hnot
    cases hnot
  | enter _ | refused _ | cancelled _ | finish _ | rest => exact ha'
  | skip _ | take _ | begin | make | free => rfl

namespace Task

/-- Whether a task makes an attempt that has committed itself. -/
def committed (task : Task) : Bool := task.attempt?.any Attempt.committed

/-- Whether a task has cancelled passes. -/
def hasCancelled : Task → Bool
  | .stopping .draining | .stopping (.answered (.ok ()) _) => true
  | _ => false

theorem committed_of_holds {task : Task} (h : task.holds = true) : task.committed = true := by
  obtain ⟨a, ha, hholds⟩ := (Option.any_eq_true _ _).1 h
  refine (Option.any_eq_true _ _).2 ⟨a, ha, ?_⟩
  cases a <;> first | rfl | exact hholds

/-- Whoever is committed without the latch reaches for it. -/
theorem reaching_of_committed {task : Task} (h : task.committed = true)
    (hunheld : task.holds = false) : task.attempt? = some .reaching := by
  obtain ⟨a, ha, hcommitted⟩ := (Option.any_eq_true _ _).1 h
  rw [holds, ha] at hunheld
  cases a with
  | reaching => exact ha
  | _ => cases hcommitted.symm.trans hunheld

theorem Turn.cancelled {c : Circumstance} {t t' : Timetable} {task task' : Task}
    (h : task.Turn c t task' t') (ht : t.cancelled = true) : t'.cancelled = true := by
  cases h with
  | attempt h | orphan h => exact h.cancelled_eq.trans ht
  | lost => exact ht
  | starting h => cases h <;> exact ht
  | stopping h => cases h <;> first | exact ht | rfl

theorem Turn.committed_of_cancelled {c : Circumstance} {t t' : Timetable} {task task' : Task}
    (h : task.Turn c t task' t') (hcancelled : t.cancelled = true)
    (htask' : task'.committed = true) : task.committed = true := by
  cases h with
  | attempt h | orphan h => exact h.committed_of_cancelled hcancelled htask'
  | lost | starting _ | stopping _ => exact htask'

theorem Turn.cancelled_of_hasCancelled {c : Circumstance} {t t' : Timetable} {task task' : Task}
    (h : task.Turn c t task' t') (ht : task.hasCancelled = true → t.cancelled = true)
    (htask' : task'.hasCancelled = true) : t'.cancelled = true := by
  cases h with
  | attempt _ | orphan _ | lost | starting _ => cases htask'
  | stopping h =>
    cases h with
    | idle _ | stop _ => cases htask'
    | cancel => rfl
    | drained _ | expired _ _ | wait _ _ => exact ht rfl
    | rest => exact ht htask'

/-- A stop that goes on in time sees the latch free. -/
theorem Turn.latch_free {c : Circumstance} {t t' : Timetable}
    (h : Task.Turn c t (.stopping .draining) (.stopping (.answered (.ok ()) true)) t') :
    t'.latch.held = false := by
  cases h with
  | stopping h =>
    cases h with
    | drained hfree => exact hfree

end Task

namespace Traffic

variable {s s' s'' : Traffic} {e : Event} {events : List Event}

theorem Happens.cancelled (h : Happens s e s') (hs : s.timetable.cancelled = true) :
    s'.timetable.cancelled = true := by
  cases h with
  | demand _ | abandon _ _ | call _ => exact hs
  | turn _ hturn => exact hturn.cancelled hs

/-- A stop that waits, or has ended well, has cancelled passes. -/
theorem Arises.cancelled (h : s.Arises) {i : Nat} {task : Task} (hi : s.tasks[i]? = some task)
    (htask : task.hasCancelled = true) : s.timetable.cancelled = true := by
  refine h.keep (P := fun s => ∀ (i : Nat) (task : Task), s.tasks[i]? = some task →
    task.hasCancelled = true → s.timetable.cancelled = true) (fun _ _ _ => nofun) ?_ i task hi htask
  intro s e s' hhappens hs i task hi htask
  rcases hhappens.origin hi with ⟨d, rfl, -, rfl⟩ | ⟨before, hbefore, hnext⟩
  · cases d <;> cases htask
  · cases hnext with
    | turned _ hturn => exact hturn.cancelled_of_hasCancelled (hs i before hbefore) htask
    | left _ horphan =>
      unfold Task.abandon? at horphan
      split at horphan <;> cases horphan <;> cases htask
    | kept _ => exact hhappens.cancelled (hs i _ hbefore htask)

/-- After the cancellation, whoever is committed was it all along. -/
theorem committed_of_run (hcancelled : s.timetable.cancelled = true)
    (hrun : s.run events = some s') {i : Nat} {task : Task} (hi : s'.tasks[i]? = some task)
    (htask : task.committed = true) : ∃ before, s.tasks[i]? = some before ∧
      before.committed = true := by
  refine (run_keep (P := fun s' => s'.timetable.cancelled = true ∧
    ∀ (i : Nat) (task : Task), s'.tasks[i]? = some task → task.committed = true →
      ∃ before : Task, s.tasks[i]? = some before ∧ before.committed = true) ?_ hrun
    ⟨hcancelled, fun i task hi htask => ⟨task, hi, htask⟩⟩).2 i task hi htask
  intro s₁ e s₂ hhappens ⟨hcancelled₁, hold⟩
  refine ⟨hhappens.cancelled hcancelled₁, ?_⟩
  intro i task hi htask
  rcases hhappens.origin hi with ⟨d, rfl, -, rfl⟩ | ⟨before, hbefore, hnext⟩
  · cases d <;> cases htask
  · refine hold i before hbefore ?_
    cases hnext with
    | turned _ hturn => exact hturn.committed_of_cancelled hcancelled₁ htask
    | left _ horphan => rwa [Task.committed, ← Task.attempt?_of_abandon? horphan]
    | kept _ => exact htask

/-! ## What a stop that saw the latch free leaves behind -/

/-- No pass is under way: the latch is free, and no task has it. -/
structure Quiet (s : Traffic) : Prop where
  /-- The latch is free. -/
  free : s.timetable.latch.held = false
  /-- No task has it. -/
  unheld : ∀ task ∈ s.tasks, task.holds = false

/-- It is enough to look at the latch. -/
theorem Arises.quiet (h : s.Arises) (hfree : s.timetable.latch.held = false) : s.Quiet :=
  ⟨hfree, fun _ hmem => h.holds_eq_false hfree hmem⟩

theorem latch_free_of_drained {k : Nat} {c : Circumstance}
    (hdrain : s.tasks[k]? = some (.stopping .draining)) (hstep : s.step (.turn k c) = some s')
    (hback : s'.tasks[k]? = some (.stopping (.answered (.ok ()) true))) :
    s'.timetable.latch.held = false := by
  obtain ⟨task, htask, hnext⟩ := (happens_of_step hstep).next hdrain
  obtain rfl := Option.some.inj (htask.symm.trans hback)
  cases hnext with
  | turned _ hturn => exact hturn.latch_free
  | left _ horphan => cases horphan

/-- An attempt that reaches for the free latch gets it. -/
theorem exists_run_of_reaching {i : Nat} {task : Task} (hi : s.tasks[i]? = some task)
    (hreaching : task.attempt? = some .reaching) (hfree : s.timetable.latch.held = false) :
    ∃ events s', s.run events = some s' ∧ s'.timetable.latch.held = true := by
  have htake : (task.step ⟨none, false⟩ s.timetable).2.latch.held = true := by
    cases task with
    | attempt a | orphan a =>
      obtain rfl := Option.some.inj hreaching
      simp [Task.step, Attempt.step, Latch.take?, hfree]
    | starting _ | stopping _ => cases hreaching
  refine ⟨[.turn i ⟨none, false⟩], ⟨_, s.tasks.set i (task.step ⟨none, false⟩ s.timetable).1⟩, ?_,
    htake⟩
  rw [run, step, hi]
  rfl

/-- When a stop goes on in time, no pass is under way. Passes that are under way later are those of
attempts that reached for the latch at that moment, having found before that passes were not
cancelled; so if there are none of these, and only then, passes are over for good. -/
theorem quiet_of_drained {k : Nat} {c : Circumstance} (h : s.Arises)
    (hdrain : s.tasks[k]? = some (.stopping .draining)) (hstep : s.step (.turn k c) = some s')
    (hback : s'.tasks[k]? = some (.stopping (.answered (.ok ()) true))) :
    s'.Quiet ∧
      (∀ events s'', s'.run events = some s'' → ∀ (i : Nat) (task : Task),
        s''.tasks[i]? = some task → task.holds = true →
          ∃ before, s'.tasks[i]? = some before ∧ before.attempt? = some .reaching) ∧
      ((∀ events s'', s'.run events = some s'' → s''.Quiet) ↔
        ∀ task ∈ s'.tasks, task.attempt? ≠ some .reaching) := by
  have h' := h.step hstep
  have hfree := latch_free_of_drained hdrain hstep hback
  have hquiet := h'.quiet hfree
  have hlate : ∀ {events : List Event} {s'' : Traffic}, s'.run events = some s'' →
      ∀ {i : Nat} {task : Task}, s''.tasks[i]? = some task → task.holds = true →
        ∃ before, s'.tasks[i]? = some before ∧ before.attempt? = some .reaching := by
    intro events s'' hrun i task hi hholds
    -- it was committed when the stop went on, and nobody had the latch then
    obtain ⟨before, hbefore, hcommitted⟩ := committed_of_run (h'.cancelled hback rfl) hrun hi
      (Task.committed_of_holds hholds)
    have hunheld := hquiet.unheld before (List.mem_of_getElem? hbefore)
    exact ⟨before, hbefore, Task.reaching_of_committed hcommitted hunheld⟩
  refine ⟨hquiet, ?_, ?_, ?_⟩
  · intro events s'' hrun i task hi hholds
    exact hlate hrun hi hholds
  · intro hlater task hmem hreaching
    obtain ⟨i, hi⟩ := List.getElem?_of_mem hmem
    obtain ⟨events, s'', hrun, hheld⟩ := exists_run_of_reaching hi hreaching hfree
    have := (hlater events s'' hrun).free
    rw [hheld] at this
    cases this
  · intro hnone events s'' hrun
    have hunheld : ∀ task ∈ s''.tasks, task.holds = false := by
      intro task hmem
      refine Bool.eq_false_iff.2 ?_
      intro hholds
      obtain ⟨i, hi⟩ := List.getElem?_of_mem hmem
      obtain ⟨before, hbefore, hreaching⟩ := hlate hrun hi hholds
      exact hnone before (List.mem_of_getElem? hbefore) hreaching
    exact ⟨(h'.run hrun).latch_free hunheld, hunheld⟩

/-! ## A stop during a pass, and a pass after a stop -/

/-- The timetable is started, and a caller's attempt goes on to its pass. Then the timetable is
stopped; the stop waits until the pass is over. -/
def stopDuringPass : List Event :=
  [.demand .start, go 0, go 0, .demand .pass, go 1, go 1, go 1, go 1, .demand .stop, go 2, go 2,
    go 2, go 1, go 1]

theorem quiet_stopDuringPass : ∃ s s', pairUntouched.run stopDuringPass = some s ∧
    s.step (go 2) = some s' ∧ ∀ events s'', s'.run events = some s'' → s''.Quiet := by
  obtain ⟨s, s', pass, hrun, hstep, htasks, htasks'⟩ : ∃ s s' pass,
      pairUntouched.run stopDuringPass = some s ∧ s.step (go 2) = some s' ∧
      s.tasks = [.starting (.answered (.ok ())), .attempt (.freed pass 0), .stopping .draining] ∧
      s'.tasks = [.starting (.answered (.ok ())), .attempt (.freed pass 0),
        .stopping (.answered (.ok ()) true)] := ⟨_, _, _, rfl, rfl, rfl, rfl⟩
  have hdrain : s.tasks[2]? = some (.stopping .draining) := by
    rw [htasks]
    rfl
  have hback : s'.tasks[2]? = some (.stopping (.answered (.ok ()) true)) := by
    rw [htasks']
    rfl
  have hnone : ∀ task ∈ s'.tasks, task.attempt? ≠ some .reaching := by
    simp [htasks', Task.attempt?]
  have hdrained := quiet_of_drained (arises_of_pairUntouched hrun) hdrain hstep hback
  exact ⟨s, s', hrun, hstep, hdrained.2.2.2 hnone⟩

/-- The timetable is started, and a caller's attempt finds that passes are not cancelled. Then the
timetable is stopped, up to where the stop waits. -/
def stopBeforeLatch : List Event :=
  [.demand .start, go 0, go 0, .demand .pass, go 1, go 1, .demand .stop, go 2, go 2]

/-- A pass begins after the timetable was stopped in time. -/
theorem not_quiet_stopBeforeLatch : ∃ s s' s'', pairUntouched.run stopBeforeLatch = some s ∧
    s.tasks[2]? = some (.stopping .draining) ∧ s.step (go 2) = some s' ∧
    s'.tasks[2]? = some (.stopping (.answered (.ok ()) true)) ∧ s'.run [go 1, go 1] = some s'' ∧
    s''.tasks[1]? = some (.attempt .started) ∧ ¬ s''.Quiet := by
  refine ⟨_, _, _, rfl, rfl, rfl, rfl, rfl, rfl, fun h => ?_⟩
  have hheld := h.free
  cases hheld

end Traffic

end Matchmaking
