import Matchmaking.Proofs.Interleavings

/-!
# The life of a timetable

A start marks the timetable as started and then registers the job; if the timer refuses the job, the
start marks the timetable as idle again, whatever has become of it meanwhile. So a stop that comes
between the two is undone, and the timetable can be started and stopped once more. Exactly when the
job is registered, a stop is for good (`stoppedForGood_iff_of_run`).
-/

namespace Matchmaking

/-! ## One step -/

theorem Attempt.Step.phase_eq {a a' : Attempt} {t t' : Timetable} (h : a.Step t a' t') :
    t'.phase = t.phase := by
  cases h <;> rfl

theorem Attempt.Step.job_eq {a a' : Attempt} {t t' : Timetable} (h : a.Step t a' t') :
    t'.job = t.job := by
  cases h <;> rfl

namespace Task

/-- Whether a task will register the job next. -/
def registers : Task → Bool
  | .starting .registering => true
  | _ => false

/-- Whether a task has stopped the timetable. -/
def stops : Task → Bool
  | .stopping .cancelling | .stopping .draining | .stopping (.answered (.ok ()) _) => true
  | _ => false

theorem registers_of_abandon? {task orphan : Task} (h : task.abandon? = some orphan) :
    orphan.registers = task.registers := by
  unfold abandon? at h
  split at h <;> cases h <;> rfl

theorem stops_of_abandon? {task orphan : Task} (h : task.abandon? = some orphan) :
    orphan.stops = task.stops := by
  unfold abandon? at h
  split at h <;> cases h <;> rfl

end Task

/-- Of the idle timetable and the registered job, the number of those that there are. -/
def Timetable.places (t : Timetable) : Nat := (decide (t.phase = .idle)).toNat + t.job.toNat

/-- The right to register the job goes from the idle timetable to the start that takes it up, and
from there to the registered job, or back. -/
theorem Task.Turn.registers_add {c : Circumstance} {t t' : Timetable} {task task' : Task}
    (h : task.Turn c t task' t') (ht : task.registers = true → t.places = 0) :
    task'.registers.toNat + t'.places = task.registers.toNat + t.places := by
  cases h with
  | attempt h | orphan h => simp [registers, Timetable.places, h.phase_eq, h.job_eq]
  | lost => rfl
  | starting h =>
    cases h with
    | again _ | stopped _ | rest => rfl
    | launch hidle => simp [registers, Timetable.places, hidle, Nat.add_comm]
    | refused _ | registered _ =>
      obtain ⟨hphase, hjob⟩ : t.phase ≠ .idle ∧ t.job = false := by
        simpa [Timetable.places] using ht rfl
      simp [registers, Timetable.places, hphase, hjob]
  | stopping h =>
    cases h with
    | stop hrunning => simp [registers, Timetable.places, hrunning]
    | _ => rfl

/-- Whether the timetable is stopped. -/
def Timetable.isStopped (t : Timetable) : Bool := decide (t.phase = .stopped)

/-- Whether the next step of a task undoes a stop: the timer refuses the job of a start, and the
timetable was stopped meanwhile. -/
def Task.undoes (c : Circumstance) (t : Timetable) (task : Task) : Bool :=
  t.isStopped && c.refusal.isSome && task.registers

/-- For each task that has stopped the timetable, it is stopped or that was undone. -/
theorem Task.Turn.stops_add {c : Circumstance} {t t' : Timetable} {task task' : Task}
    (h : task.Turn c t task' t') : task'.stops.toNat + t.isStopped.toNat =
      task.stops.toNat + t'.isStopped.toNat + (task.undoes c t).toNat := by
  cases h with
  | attempt h | orphan h =>
    simp [stops, undoes, registers, Timetable.isStopped, h.phase_eq]
  | lost => simp [stops, undoes, registers]
  | starting h =>
    cases h with
    | again _ | stopped _ | rest => simp [stops, undoes, registers]
    | launch hidle => simp [stops, undoes, registers, Timetable.isStopped, hidle]
    | refused hrefusal => simp [stops, undoes, registers, Timetable.isStopped, hrefusal]
    | registered hrefusal => simp [stops, undoes, Timetable.isStopped, hrefusal]
  | stopping h =>
    cases h with
    | idle _ | drained _ | expired _ _ | wait _ _ | rest => simp [stops, undoes, registers]
    | stop hrunning => simp [stops, undoes, registers, Timetable.isStopped, hrunning]
    | cancel => simp [stops, undoes, registers, Timetable.isStopped]

/-- What becomes of a caller's demand once it finds the timetable stopped. -/
def Task.refused : Demand → Task
  | .pass | .tick => .attempt (.answered (.error .stopped))
  | .start => .starting (.answered (.error .stopped))
  | .stop => .stopping (.answered (.error .notRunning) false)

theorem Task.Turn.eq_refused {c : Circumstance} {t t' : Timetable} {task task' : Task} {d : Demand}
    (h : task.Turn c t task' t') (ht : t.phase = .stopped) (hd : d ≠ .tick)
    (htask : task = .ofDemand d ∨ task = refused d) : task' = refused d := by
  rcases htask with rfl | rfl
  · cases d with
    | tick => exact absurd rfl hd
    | pass =>
      cases h with
      | attempt h =>
        cases h with
        | refused _ => rfl
        | enter hnot => exact absurd ht hnot
    | start =>
      cases h with
      | starting h =>
        cases h with
        | stopped _ => rfl
        | again hphase | launch hphase => cases ht.symm.trans hphase
    | stop =>
      cases h with
      | stopping h =>
        cases h with
        | idle _ => rfl
        | stop hphase => cases ht.symm.trans hphase
  · cases d with
    | pass | tick =>
      cases h with
      | attempt h => cases h; rfl
    | start =>
      cases h with
      | starting h => cases h; rfl
    | stop =>
      cases h with
      | stopping h => cases h; rfl

/-- Nobody goes away who has not begun a pass. -/
theorem Task.abandon?_eq_none {task : Task} {d : Demand}
    (h : task = .ofDemand d ∨ task = refused d) : task.abandon? = none := by
  rcases h with rfl | rfl <;> cases d <;> rfl

/-- Only a start that registers the job leads out of the stopped timetable. -/
theorem Task.Turn.stopped {c : Circumstance} {t t' : Timetable} {task task' : Task}
    (h : task.Turn c t task' t') (ht : t.phase = .stopped) (htask : task.registers = false) :
    t'.phase = .stopped := by
  cases h with
  | attempt h | orphan h => exact h.phase_eq.trans ht
  | lost => exact ht
  | starting h =>
    cases h with
    | again _ | stopped _ | registered _ | rest => exact ht
    | launch hidle => cases ht.symm.trans hidle
    | refused _ => cases htask
  | stopping h =>
    cases h with
    | stop _ => rfl
    | _ => exact ht

theorem Task.Turn.job {c : Circumstance} {t t' : Timetable} {task task' : Task}
    (h : task.Turn c t task' t') (ht : t.job = true) : t'.job = true := by
  cases h with
  | attempt h | orphan h => exact h.job_eq.trans ht
  | lost => exact ht
  | starting h => cases h <;> first | exact ht | rfl
  | stopping h => cases h <;> exact ht

namespace Traffic

variable {s s' : Traffic} {e : Event} {events : List Event}

/-- The timetable is idle, or one start is about to register the job, or the job is registered. -/
theorem Arises.job_token (h : s.Arises) :
    s.tasks.countP Task.registers + s.timetable.places = 1 := by
  refine h.keep (P := fun s => s.tasks.countP Task.registers + s.timetable.places = 1)
    (fun _ _ _ => rfl) ?_
  intro s e s' hhappens hs
  rw [← hs]
  refine hhappens.balance (φ := Timetable.places) ?_ ?_ Task.registers_of_abandon? fun _ => rfl
  · intro d
    cases d <;> rfl
  · intro task task' c t' hmem hturn
    exact hturn.registers_add fun hregisters => eq_zero_of_countP_add hs hmem hregisters

/-- Once the job is registered, no start is about to register it. -/
theorem Arises.registers_eq_false (h : s.Arises) (hjob : s.timetable.job = true) {task : Task}
    (hmem : task ∈ s.tasks) : task.registers = false := by
  refine Bool.eq_false_iff.2 ?_
  intro hregisters
  have hnot := eq_zero_of_countP_add h.job_token hmem hregisters
  rw [Timetable.places, hjob] at hnot
  cases hnot

/-- Before the job is registered, a timetable that is not idle has a start that is about to do so.
-/
theorem Arises.exists_registers (h : s.Arises) (hjob : s.timetable.job = false)
    (hphase : s.timetable.phase ≠ .idle) : ∃ task ∈ s.tasks, task.registers = true := by
  have htoken := h.job_token
  rw [Timetable.places, hjob, decide_eq_false hphase] at htoken
  refine List.countP_pos_iff.1 ?_
  rw [show s.tasks.countP Task.registers = 1 from htoken]
  exact Nat.one_pos

/-! ## Stops that are undone -/

/-- Whether what happens undoes a stop. -/
def undoes (s : Traffic) : Event → Bool
  | .turn i c => s.tasks[i]?.any (Task.undoes c s.timetable)
  | _ => false

/-- How many stops are undone while some things happen, one after the other. -/
def undone (s : Traffic) : List Event → Nat
  | [] => 0
  | e :: rest => (s.undoes e).toNat + ((s.step e).map fun s => s.undone rest).getD 0

theorem Happens.stops_add (h : Happens s e s') :
    s'.tasks.countP Task.stops + s.timetable.isStopped.toNat =
      s.tasks.countP Task.stops + s'.timetable.isStopped.toNat + (s.undoes e).toNat := by
  cases h with
  | demand d => cases d <;> simp [undoes, Task.ofDemand, Task.stops]
  | @turn i c task task' t' htask hturn =>
    have hset := countP_set_add (p := Task.stops) htask task'
    have hmoved := hturn.stops_add
    rw [undoes, htask, Option.any_some]
    dsimp only
    omega
  | @abandon i task orphan htask horphan =>
    have hset := countP_set_add (p := Task.stops) htask orphan
    rw [Task.stops_of_abandon? horphan] at hset
    simp only [undoes, Bool.toNat_false]
    omega
  | call c => rfl

/-- As many stops have stopped the timetable as were undone, and one more if it is stopped. -/
theorem stops_add_of_run (hrun : s.run events = some s') :
    s'.tasks.countP Task.stops + s.timetable.isStopped.toNat =
      s.tasks.countP Task.stops + s'.timetable.isStopped.toNat + s.undone events := by
  induction events generalizing s with
  | nil =>
    cases hrun
    rfl
  | cons e rest ih =>
    obtain ⟨s₁, hstep, hrest⟩ := Option.bind_eq_some_iff.1 hrun
    have hfirst := (happens_of_step hstep).stops_add
    have hothers := ih hrest
    rw [undone, hstep, Option.map_some, Option.getD_some]
    omega

/-! ## Stops that are for good -/

/-- Whether it is the turn of a task. -/
def Event.turns (i : Nat) : Event → Bool
  | .turn j _ => j == i
  | _ => false

/-- The timetable is stopped for good. -/
structure StoppedForGood (s : Traffic) : Prop where
  /-- It stays stopped. -/
  phase : ∀ events s', s.run events = some s' → s'.timetable.phase = .stopped
  /-- Whatever a caller asks for later is refused with the first step. -/
  refuses : ∀ d, d ≠ .tick → ∀ before after s₁ s', s.run before = some s₁ →
    s₁.run (.demand d :: after) = some s' → s'.tasks[s₁.tasks.length]? =
      some (if after.any (Event.turns s₁.tasks.length) then .refused d else .ofDemand d)
  /-- No further stop succeeds. -/
  stops : ∀ events s', s.run events = some s' →
    s'.tasks.countP Task.stops = s.tasks.countP Task.stops

/-- Once the job is registered, no stop is undone. -/
theorem Arises.undoes_eq_false (h : s.Arises) (hjob : s.timetable.job = true) (e : Event) :
    s.undoes e = false := by
  cases e with
  | demand _ | abandon _ | call _ => rfl
  | turn i c =>
    cases hi : s.tasks[i]? with
    | none =>
      rw [undoes, hi]
      rfl
    | some task =>
      rw [undoes, hi, Option.any_some, Task.undoes,
        h.registers_eq_false hjob (List.mem_of_getElem? hi), Bool.and_false]

/-- Nothing leads out of a stopped timetable whose job is registered. -/
theorem Arises.stopped_step (h : s.Arises) (hjob : s.timetable.job = true)
    (hphase : s.timetable.phase = .stopped) (hstep : s.step e = some s') :
    s'.timetable.job = true ∧ s'.timetable.phase = .stopped := by
  cases happens_of_step hstep with
  | demand _ | abandon _ _ | call _ => exact ⟨hjob, hphase⟩
  | turn hi hturn =>
    have hregisters := h.registers_eq_false hjob (List.mem_of_getElem? hi)
    exact ⟨hturn.job hjob, hturn.stopped hphase hregisters⟩

theorem Arises.stopped_run (h : s.Arises) (hjob : s.timetable.job = true)
    (hphase : s.timetable.phase = .stopped) (hrun : s.run events = some s') :
    s'.timetable.job = true ∧ s'.timetable.phase = .stopped ∧ s.undone events = 0 := by
  induction events generalizing s with
  | nil =>
    cases hrun
    exact ⟨hjob, hphase, rfl⟩
  | cons e rest ih =>
    obtain ⟨s₁, hstep, hrest⟩ := Option.bind_eq_some_iff.1 hrun
    obtain ⟨hjob₁, hphase₁⟩ := h.stopped_step hjob hphase hstep
    obtain ⟨hjob', hphase', hundone⟩ := ih (h.step hstep) hjob₁ hphase₁ hrest
    refine ⟨hjob', hphase', ?_⟩
    rw [undone, h.undoes_eq_false hjob, hstep]
    exact (Nat.zero_add _).trans hundone

/-- A demand that finds the timetable stopped for good is refused with the first step. -/
theorem Arises.refused_run (h : s.Arises) (hjob : s.timetable.job = true)
    (hphase : s.timetable.phase = .stopped) (hrun : s.run events = some s') {i : Nat} {task : Task}
    (hi : s.tasks[i]? = some task) {d : Demand} (hd : d ≠ .tick)
    (htask : task = .ofDemand d ∨ task = .refused d) :
    s'.tasks[i]? = some (if events.any (Event.turns i) then .refused d else task) := by
  induction events generalizing s task with
  | nil =>
    cases hrun
    exact hi
  | cons e rest ih =>
    obtain ⟨s₁, hstep, hrest⟩ := Option.bind_eq_some_iff.1 hrun
    obtain ⟨hjob₁, hphase₁⟩ := h.stopped_step hjob hphase hstep
    obtain ⟨task₁, hi₁, hnext⟩ := (happens_of_step hstep).next hi
    cases hnext with
    | turned he hturn =>
      obtain rfl := hturn.eq_refused hphase hd htask
      rw [ih (h.step hstep) hjob₁ hphase₁ hrest hi₁ (.inr rfl), he]
      simp [Event.turns]
    | left _ horphan =>
      rw [Task.abandon?_eq_none htask] at horphan
      cases horphan
    | kept he =>
      have hnot : Event.turns i e = false := by
        cases e with
        | turn j c =>
          refine Bool.eq_false_iff.2 fun hj => he c ?_
          rw [eq_of_beq hj]
        | _ => rfl
      rw [ih (h.step hstep) hjob₁ hphase₁ hrest hi₁ htask, List.any_cons, hnot, Bool.false_or]

theorem Arises.stoppedForGood (h : s.Arises) (hjob : s.timetable.job = true)
    (hphase : s.timetable.phase = .stopped) : s.StoppedForGood := by
  refine ⟨?_, ?_, ?_⟩
  · intro events s' hrun
    exact (h.stopped_run hjob hphase hrun).2.1
  · intro d hd before after s₁ s' hbefore hafter
    obtain ⟨hjob₁, hphase₁, -⟩ := h.stopped_run hjob hphase hbefore
    obtain ⟨s₂, hdemand, hafter⟩ := Option.bind_eq_some_iff.1 hafter
    obtain ⟨hjob₂, hphase₂⟩ := (h.run hbefore).stopped_step hjob₁ hphase₁ hdemand
    have hbegun : s₂.tasks[s₁.tasks.length]? = some (.ofDemand d) := by
      cases happens_of_step hdemand
      exact List.getElem?_concat_length
    exact (((h.run hbefore).step hdemand).refused_run hjob₂ hphase₂ hafter hbegun hd (.inl rfl))
  · intro events s' hrun
    obtain ⟨-, hphase', hundone⟩ := h.stopped_run hjob hphase hrun
    have hadd := stops_add_of_run hrun
    simp only [Timetable.isStopped, hphase, hphase', hundone] at hadd
    omega

/-- A stop is undone if the timer refuses the job of a start that came before it. -/
theorem Arises.exists_idle (h : s.Arises) (hjob : s.timetable.job = false)
    (hphase : s.timetable.phase = .stopped) :
    ∃ events s', s.run events = some s' ∧ s'.timetable.phase = .idle := by
  have hnot : s.timetable.phase ≠ .idle := by
    rw [hphase]
    nofun
  -- the start that holds the right to register the job gives it back
  obtain ⟨task, hmem, hregisters⟩ := h.exists_registers hjob hnot
  obtain ⟨i, hi⟩ := List.getElem?_of_mem hmem
  obtain rfl : task = .starting .registering := by
    unfold Task.registers at hregisters
    split at hregisters
    · rfl
    · cases hregisters
  have hstep : s.step (.turn i ⟨some "", false⟩) = some ⟨{ s.timetable with phase := .idle },
      s.tasks.set i (.starting (.answered (.error (.timer ""))))⟩ := by
    rw [Traffic.step, hi]
    rfl
  have hrun : s.run [.turn i ⟨some "", false⟩] = some ⟨{ s.timetable with phase := .idle },
      s.tasks.set i (.starting (.answered (.error (.timer ""))))⟩ := by
    rw [Traffic.run, hstep]
    rfl
  exact ⟨_, _, hrun, rfl⟩

/-- As many stops have stopped a timetable as were undone, and one more if it is stopped; and when
it is stopped, it is so for good exactly if the job has been registered. -/
theorem stoppedForGood_iff_of_run {service : Service} {timing : Timing} {n : Nat} {t : Timetable}
    (hcreate : Timetable.create service timing n = .ok t)
    (hrun : (untouched t).run events = some s) :
    s.tasks.countP Task.stops =
      (untouched t).undone events + (decide (s.timetable.phase = .stopped)).toNat ∧
    (s.timetable.phase = .stopped → (s.StoppedForGood ↔ s.timetable.job = true)) := by
  have h : s.Arises := ⟨service, timing, n, t, events, hcreate, hrun⟩
  constructor
  · have hadd := stops_add_of_run hrun
    have hstart : (untouched t).timetable.isStopped = false := by
      rw [eq_idle_of_create hcreate]
      rfl
    have hnone : (untouched t).tasks.countP Task.stops = 0 := rfl
    rw [hstart, hnone, Timetable.isStopped, Bool.toNat_false] at hadd
    omega
  · intro hphase
    constructor
    · intro hgood
      cases hjob : s.timetable.job with
      | true => rfl
      | false =>
        obtain ⟨later, s', hlater, hidle⟩ := h.exists_idle hjob hphase
        cases hidle.symm.trans (hgood.phase later s' hlater)
    · intro hjob
      exact h.stoppedForGood hjob hphase

/-! ## A stop for good, and a stop that is undone -/

/-- The timetable is started, and when its job is registered it is stopped. -/
def stopAfterStart : List Event := [.demand .start, go 0, go 0, .demand .stop, go 1]

theorem stoppedForGood_stopAfterStart :
    ∃ s, pairUntouched.run stopAfterStart = some s ∧ s.StoppedForGood := by
  obtain ⟨s, hrun, hphase, hjob⟩ : ∃ s, pairUntouched.run stopAfterStart = some s ∧
    s.timetable.phase = .stopped ∧ s.timetable.job = true := ⟨_, rfl, rfl, rfl⟩
  have hcreate : Timetable.create Service.pairWaiting {} 0 =
    .ok (.idle Service.pairWaiting {} 0) := rfl
  exact ⟨s, hrun, ((stoppedForGood_iff_of_run hcreate hrun).2 hphase).2 hjob⟩

/-- The timetable is started, and before the job is registered it is stopped. -/
def stopDuringStart : List Event := [.demand .start, go 0, .demand .stop, go 1]

/-- The timer refuses the job of the first start. Then the timetable is started and stopped again.
-/
def startAgain : List Event :=
  [.turn 0 ⟨some "timer is gone", false⟩, .demand .start, go 2, go 2, go 1, go 1, .demand .stop,
    go 3, go 3, go 3]

/-- A timetable that is stopped can be idle later, a start that begins then succeeds, and two stops
succeed. -/
theorem not_stoppedForGood_stopDuringStart : ∃ s, pairUntouched.run stopDuringStart = some s ∧
    s.timetable.phase = .stopped ∧ ¬ s.StoppedForGood ∧
    ∃ s', s.run startAgain = some s' ∧ s'.tasks =
      [.starting (.answered (.error (.timer "timer is gone"))), .stopping (.answered (.ok ()) true),
        .starting (.answered (.ok ())), .stopping (.answered (.ok ()) true)] := by
  refine ⟨_, rfl, rfl, fun h => ?_, _, rfl, rfl⟩
  have hphase := h.phase [.turn 0 ⟨some "timer is gone", false⟩] _ rfl
  cases hphase

end Traffic

end Matchmaking
