import Matchmaking.Proofs.Interleavings

/-!
# What the ledger says is under way

An attempt notes the beginning of its pass after it took the latch, but notes the end after it freed
the latch, and not at all once its caller has gone away. So the next pass can begin before the end
of the last one is noted, and an end may never be noted. What the ledger then says follows from the
notes in the order in which they were made (`isRunning_of_run`).
-/

namespace Matchmaking

/-- What is noted about a pass; `i` is the number of the task that makes it. -/
inductive Note
  /-- It begins. -/
  | began (i : Nat)
  /-- It has come to its end. -/
  | ended (i : Nat)

/-- Whether a note is about a beginning. -/
def Note.begins : Note → Bool
  | .began _ => true
  | .ended _ => false

/-- Whether an attempt made its pass, or makes it, and has not noted the end. -/
def Attempt.unended : Attempt → Bool
  | .started | .made _ _ | .freed _ _ => true
  | _ => false

/-! ## One step -/

namespace Task

/-- Whether a task has begun a pass and not noted the end. -/
def unended (task : Task) : Bool := task.attempt?.any Attempt.unended

/-- What a task notes when it takes its next step. -/
def note? (i : Nat) : Task → Option Note
  | .attempt .holding | .orphan .holding => some (.began i)
  | .attempt (.freed _ _) => some (.ended i)
  | _ => none

/-- The ledger says what was noted last. -/
theorem Turn.isRunning {c : Circumstance} {t t' : Timetable} {task task' : Task}
    (h : task.Turn c t task' t') (i : Nat) :
    t'.ledger.isRunning = ((task.note? i).map Note.begins).getD t.ledger.isRunning := by
  cases h with
  | attempt h =>
    cases h with
    | finish hends => cases hends <;> rfl
    | _ => rfl
  | orphan h hend =>
    cases h with
    | finish _ => exact absurd rfl (hend _ _)
    | _ => rfl
  | lost => rfl
  | starting h | stopping h => cases h <;> rfl

/-- A task that makes its pass has noted the beginning just now, or was making it before. -/
theorem Turn.executes {c : Circumstance} {t t' : Timetable} {task task' : Task}
    (h : task.Turn c t task' t') (i : Nat) (htask' : task'.executes = true) :
    task.note? i = some (.began i) ∨ task.note? i = none ∧ task.executes = true := by
  cases h with
  | attempt h | orphan h =>
    cases h with
    | begin => exact .inl rfl
    | make => exact .inr ⟨rfl, rfl⟩
    | _ => cases htask'
  | lost | starting _ | stopping _ => cases htask'

/-- A task that has begun a pass notes the end, or the end is still not noted. -/
theorem Turn.unended {c : Circumstance} {t t' : Timetable} {task task' : Task}
    (h : task.Turn c t task' t') (i : Nat)
    (htask : task.unended = true ∨ task.note? i = some (.began i)) :
    task.note? i = some (.ended i) ∨ task'.unended = true := by
  cases h with
  | attempt h =>
    cases h with
    | begin | make | free => exact .inr rfl
    | finish _ => exact .inl rfl
    | _ => rcases htask with htask | htask <;> cases htask
  | orphan h hend =>
    cases h with
    | begin | make | free => exact .inr rfl
    | finish _ => exact absurd rfl (hend _ _)
    | _ => rcases htask with htask | htask <;> cases htask
  | lost => exact .inr rfl
  | starting _ | stopping _ => rcases htask with htask | htask <;> cases htask

/-- A note is about the beginning of a pass by somebody who has the latch, or about an end. -/
theorem note?_cases {i : Nat} {task : Task} {note : Note} (h : task.note? i = some note) :
    note = .began i ∧ task.holds = true ∨ note = .ended i := by
  unfold note? at h
  split at h <;> cases h
  · exact .inl ⟨rfl, rfl⟩
  · exact .inl ⟨rfl, rfl⟩
  · exact .inr rfl

/-- Whoever makes a pass notes nothing meanwhile. -/
theorem note?_of_executes {task : Task} (h : task.executes = true) (i : Nat) :
    task.note? i = none := by
  unfold note?
  split
  · cases h
  · cases h
  · cases h
  · rfl

end Task

namespace Traffic

variable {s s' : Traffic} {e : Event} {events : List Event} {ns : List Note}

/-- What is noted when something happens. -/
def note? (s : Traffic) : Event → Option Note
  | .turn i _ => (s.tasks[i]?).bind (Task.note? i)
  | _ => none

/-- What is noted while some things happen, one after the other. -/
def notes (s : Traffic) : List Event → List Note
  | [] => []
  | e :: rest => (s.note? e).toList ++ ((s.step e).map fun s => s.notes rest).getD []

theorem eq_turn_of_note? {note : Note} (h : s.note? e = some note) :
    ∃ i c task, e = .turn i c ∧ s.tasks[i]? = some task ∧ task.note? i = some note := by
  cases e with
  | turn i c =>
    obtain ⟨task, htask, hnote⟩ := Option.bind_eq_some_iff.1 h
    exact ⟨i, c, task, rfl, htask, hnote⟩
  | demand _ | abandon _ | call _ => cases h

theorem note?_turn {i : Nat} {c : Circumstance} {task : Task} (h : s.tasks[i]? = some task) :
    s.note? (.turn i c) = task.note? i := by
  rw [note?, h]
  rfl

theorem Happens.isRunning (h : Happens s e s') :
    s'.timetable.ledger.isRunning =
      ((s.note? e).map Note.begins).getD s.timetable.ledger.isRunning := by
  cases h with
  | demand _ | abandon _ _ | call _ => rfl
  | @turn i c task _ _ htask hturn =>
    rw [note?_turn htask]
    exact hturn.isRunning i

/-- A task that makes its pass notes the beginning now, or was making it before. -/
theorem Happens.executes (h : Happens s e s') {i : Nat} {task : Task}
    (hi : s'.tasks[i]? = some task) (hexecutes : task.executes = true) :
    s.note? e = some (.began i) ∨
      ∃ before, s.tasks[i]? = some before ∧ before.executes = true := by
  rcases h.origin hi with ⟨d, rfl, -, rfl⟩ | ⟨before, hbefore, hnext⟩
  · cases d <;> cases hexecutes
  · cases hnext with
    | turned he hturn =>
      rcases hturn.executes i hexecutes with hbegan | ⟨-, hexecutes⟩
      · rw [he, note?_turn hbefore]
        exact .inl hbegan
      · exact .inr ⟨before, hbefore, hexecutes⟩
    | left _ horphan =>
      rw [Task.executes, Task.attempt?_of_abandon? horphan] at hexecutes
      exact .inr ⟨before, hbefore, hexecutes⟩
    | kept _ => exact .inr ⟨_, hbefore, hexecutes⟩

/-- As long as a task does not note the end of the pass that it begins now or began before, the end
is still not noted. -/
theorem Happens.unended (h : Happens s e s') {i : Nat} {task : Task} (hi : s.tasks[i]? = some task)
    (hnot : s.note? e ≠ some (.ended i))
    (hunended : task.unended = true ∨ s.note? e = some (.began i)) :
    ∃ task', s'.tasks[i]? = some task' ∧ task'.unended = true := by
  obtain ⟨task', hi', hnext⟩ := h.next hi
  refine ⟨task', hi', ?_⟩
  cases hnext with
  | turned he hturn =>
    rw [he, note?_turn hi] at hnot hunended
    exact (hturn.unended i hunended).resolve_left hnot
  | left he horphan =>
    rw [Task.unended, Task.attempt?_of_abandon? horphan]
    rcases hunended with hunended | hbegan
    · exact hunended
    · rw [he] at hbegan
      cases hbegan
  | kept he =>
    rcases hunended with hunended | hbegan
    · exact hunended
    · obtain ⟨j, c, other, rfl, -, hother⟩ := eq_turn_of_note? hbegan
      rcases Task.note?_cases hother with ⟨hij, -⟩ | hij
      · cases hij
        exact absurd rfl (he c)
      · cases hij

/-- While a task makes its pass, nothing is noted but the ends of other passes. -/
theorem Arises.ended_of_note? (h : s.Arises) {i : Nat} {task : Task} (hi : s.tasks[i]? = some task)
    (hexecutes : task.executes = true) {note : Note} (hnote : s.note? e = some note) :
    ∃ j, j ≠ i ∧ note = .ended j := by
  obtain ⟨j, c, other, rfl, hj, hother⟩ := eq_turn_of_note? hnote
  have hne : j ≠ i := by
    rintro rfl
    obtain rfl := Option.some.inj (hi.symm.trans hj)
    rw [Task.note?_of_executes hexecutes] at hother
    cases hother
  rcases Task.note?_cases hother with ⟨-, hholds⟩ | hended
  · exact absurd (h.eq_of_holds hj hholds hi (Task.holds_of_executes hexecutes)) hne
  · exact ⟨j, hne, hended⟩

/-! ## Runs -/

/-- How the notes `ns`, in the order in which they were made, fit what is the case. -/
structure Noted (s : Traffic) (ns : List Note) : Prop where
  /-- The ledger says what was noted last. -/
  isRunning : s.timetable.ledger.isRunning = (ns.getLast?.map Note.begins).getD false
  /-- Since a task began the pass that it makes, only the ends of other passes were noted. -/
  since : ∀ (i : Nat) (task : Task), s.tasks[i]? = some task → task.executes = true →
    ∃ before after, ns = before ++ .began i :: after ∧
      ∀ note ∈ after, ∃ j, j ≠ i ∧ note = .ended j
  /-- A pass whose beginning was noted last has no end, or its end is still to be noted. -/
  unended : ∀ i, ns.getLast? = some (.began i) →
    ∃ task, s.tasks[i]? = some task ∧ task.unended = true

theorem noted_untouched (service : Service) (timing : Timing) (n : Nat) :
    (untouched (.idle service timing n)).Noted [] :=
  ⟨rfl, nofun, nofun⟩

/-- If a beginning is noted last, the next event notes it, or it was so before and nothing is noted
since, the end of the same pass included. -/
theorem Noted.unended_of_getLast? (hs : s.Noted ns) {i : Nat}
    (hlast : (ns ++ (s.note? e).toList).getLast? = some (.began i)) :
    ∃ task, s.tasks[i]? = some task ∧ s.note? e ≠ some (.ended i) ∧
      (task.unended = true ∨ s.note? e = some (.began i)) := by
  cases hnote : s.note? e with
  | none =>
    rw [hnote, Option.toList_none, List.append_nil] at hlast
    obtain ⟨task, hi, hunended⟩ := hs.unended i hlast
    exact ⟨task, hi, nofun, .inl hunended⟩
  | some note =>
    rw [hnote, Option.toList_some, List.getLast?_concat] at hlast
    obtain rfl := Option.some.inj hlast
    obtain ⟨j, c, task, -, hj, htask⟩ := eq_turn_of_note? hnote
    rcases Task.note?_cases htask with ⟨hij, -⟩ | hij
    · cases hij
      exact ⟨task, hj, nofun, .inr rfl⟩
    · cases hij

theorem Noted.step (hs : s.Noted ns) (h : s.Arises) (hstep : s.step e = some s') :
    s'.Noted (ns ++ (s.note? e).toList) := by
  have hhappens := happens_of_step hstep
  refine ⟨?_, ?_, ?_⟩
  · rw [hhappens.isRunning, hs.isRunning]
    cases s.note? e <;> simp
  · intro i task hi hexecutes
    rcases hhappens.executes hi hexecutes with hbegan | ⟨before, hbefore, hexecutes⟩
    · rw [hbegan]
      exact ⟨ns, [], rfl, nofun⟩
    · obtain ⟨front, after, rfl, hafter⟩ := hs.since i before hbefore hexecutes
      refine ⟨front, after ++ (s.note? e).toList, by simp, fun note hnote => ?_⟩
      rcases List.mem_append.1 hnote with hnote | hnote
      · exact hafter note hnote
      · exact h.ended_of_note? hbefore hexecutes (Option.mem_toList.1 hnote)
  · intro i hlast
    obtain ⟨task, hi, hnot, hunended⟩ := hs.unended_of_getLast? hlast
    exact hhappens.unended hi hnot hunended

theorem Noted.run (hs : s.Noted ns) (h : s.Arises) (hrun : s.run events = some s') :
    s'.Noted (ns ++ s.notes events) := by
  induction events generalizing s ns with
  | nil =>
    cases hrun
    rw [notes, List.append_nil]
    exact hs
  | cons e rest ih =>
    obtain ⟨s₁, hstep, hrest⟩ := Option.bind_eq_some_iff.1 hrun
    rw [notes, hstep, ← List.append_assoc]
    exact ih (hs.step h hstep) (h.step hstep) hrest

theorem Noted.eq_true_iff (hs : s.Noted ns) :
    s.timetable.ledger.isRunning = true ↔ ∃ i, ns.getLast? = some (.began i) := by
  rw [hs.isRunning]
  cases ns.getLast? with
  | none => simp
  | some note => cases note <;> simp [Note.begins]

/-- While a task makes its pass, the ledger says so exactly as long as no other end is noted. -/
theorem Noted.eq_true_iff_of_executes (hs : s.Noted ns) {i : Nat} {task : Task}
    (hi : s.tasks[i]? = some task) (hexecutes : task.executes = true) :
    ∃ before after, ns = before ++ .began i :: after ∧
      (∀ note ∈ after, ∃ j, j ≠ i ∧ note = .ended j) ∧
      (s.timetable.ledger.isRunning = true ↔ after = []) := by
  obtain ⟨before, after, rfl, hafter⟩ := hs.since i task hi hexecutes
  refine ⟨before, after, rfl, hafter, ?_⟩
  rw [hs.eq_true_iff]
  constructor
  · rintro ⟨k, hlast⟩
    by_contra hne
    rw [List.getLast?_append, List.getLast?_cons, List.getLast?_eq_getLast_of_ne_nil hne] at hlast
    obtain ⟨j, -, hended⟩ := hafter _ (List.getLast_mem hne)
    rw [hended] at hlast
    cases hlast
  · rintro rfl
    exact ⟨i, List.getLast?_concat⟩

/-- When no task makes a pass and no caller waits for one, the ledger speaks of a pass exactly if
the pass that began last was one whose caller went away. -/
theorem Noted.eq_true_iff_of_rest (hs : s.Noted ns)
    (hnone : ∀ task ∈ s.tasks, task.executes = false)
    (hrest : ∀ a, .attempt a ∈ s.tasks → ∃ result, a = .answered result) :
    s.timetable.ledger.isRunning = true ↔
      ∃ i pass n, s.tasks[i]? = some (.orphan (.freed pass n)) ∧
        ns.getLast? = some (.began i) := by
  rw [hs.eq_true_iff]
  constructor
  · rintro ⟨i, hlast⟩
    obtain ⟨task, hi, hunended⟩ := hs.unended i hlast
    have hmem := List.mem_of_getElem? hi
    have hidle := hnone task hmem
    cases task with
    | attempt a =>
      obtain ⟨result, rfl⟩ := hrest a hmem
      cases hunended
    | orphan a =>
      cases a with
      | freed pass n => exact ⟨i, pass, n, hi, hlast⟩
      | started | made _ _ => cases hidle
      | _ => cases hunended
    | starting _ | stopping _ => cases hunended
  · rintro ⟨i, pass, n, -, hlast⟩
    exact ⟨i, hlast⟩

theorem noted_of_run {service : Service} {timing : Timing} {n : Nat} {t : Timetable}
    (hcreate : Timetable.create service timing n = .ok t)
    (hrun : (untouched t).run events = some s) : s.Noted ((untouched t).notes events) := by
  have hstart : (untouched t).Noted [] := by
    rw [eq_idle_of_create hcreate]
    exact noted_untouched service timing n
  exact hstart.run ⟨service, timing, n, t, [], hcreate, rfl⟩ hrun

/-- At most one task makes a pass. While it does, the ledger says so exactly as long as the end of
no earlier pass is noted after the beginning of this one. When none does and no caller waits for a
pass, the ledger still speaks of one exactly if the beginning noted last is that of a pass whose
caller went away. -/
theorem isRunning_of_run {service : Service} {timing : Timing} {n : Nat} {t : Timetable}
    (hcreate : Timetable.create service timing n = .ok t)
    (hrun : (untouched t).run events = some s) :
    (∀ (i j : Nat) (a b : Task), s.tasks[i]? = some a → s.tasks[j]? = some b → a.executes = true →
      b.executes = true → i = j) ∧
    (∀ (i : Nat) (task : Task), s.tasks[i]? = some task → task.executes = true →
      ∃ before after, (untouched t).notes events = before ++ .began i :: after ∧
        (∀ note ∈ after, ∃ j, j ≠ i ∧ note = .ended j) ∧
        (s.timetable.ledger.isRunning = true ↔ after = [])) ∧
    ((∀ task ∈ s.tasks, task.executes = false) →
      (∀ a, .attempt a ∈ s.tasks → ∃ result, a = .answered result) →
        (s.timetable.ledger.isRunning = true ↔
          ∃ i pass n, s.tasks[i]? = some (.orphan (.freed pass n)) ∧
            ((untouched t).notes events).getLast? = some (.began i))) := by
  have harises : s.Arises := ⟨service, timing, n, t, events, hcreate, hrun⟩
  have hnoted := noted_of_run hcreate hrun
  refine ⟨?_, ?_, ?_⟩
  · intro i j a b hi hj ha hb
    exact harises.eq_of_holds hi (Task.holds_of_executes ha) hj (Task.holds_of_executes hb)
  · intro i task hi hexecutes
    exact hnoted.eq_true_iff_of_executes hi hexecutes
  · intro hnone hrest
    exact hnoted.eq_true_iff_of_rest hnone hrest

/-! ## Passes of which the ledger does not tell the truth -/

/-- Two callers ask for a pass one after the other; the second begins its pass before the end of the
first is noted. -/
def beginBeforeEnd : List Event :=
  [.demand .pass, go 0, go 0, go 0, go 0, go 0, go 0, .demand .pass, go 1, go 1, go 1, go 1, go 0]

theorem isRunning_beginBeforeEnd : ∃ s before after, pairUntouched.run beginBeforeEnd = some s ∧
    pairUntouched.notes beginBeforeEnd = before ++ .began 1 :: after ∧
    (s.timetable.ledger.isRunning = true ↔ after = []) := by
  obtain ⟨s, hrun, htask⟩ : ∃ s, pairUntouched.run beginBeforeEnd = some s ∧
    s.tasks[1]? = some (.attempt .started) := ⟨_, rfl, rfl⟩
  have hcreate : Timetable.create Service.pairWaiting {} 0 =
    .ok (.idle Service.pairWaiting {} 0) := rfl
  obtain ⟨before, after, hnotes, -, hiff⟩ := (isRunning_of_run hcreate hrun).2.1 1 _ htask rfl
  exact ⟨s, before, after, hrun, hnotes, hiff⟩

/-- A caller asks for a pass and goes away while it is made. -/
def leaveDuringPass : List Event :=
  [.demand .pass, go 0, go 0, go 0, go 0, .abandon 0, go 0, go 0]

/-- A pass can be made while the ledger says that none is; and when none is made and no caller waits
for one, the ledger can say that one is made. -/
theorem not_isRunning_of_run :
    (∃ s, pairUntouched.run beginBeforeEnd = some s ∧ s.tasks[1]? = some (.attempt .started) ∧
      s.timetable.ledger.isRunning = false) ∧
    (∃ s pass, pairUntouched.run leaveDuringPass = some s ∧
      s.tasks = [.orphan (.freed pass 0)] ∧ s.timetable.ledger.isRunning = true) := by
  refine ⟨?_, _, _, rfl, rfl, rfl⟩
  obtain ⟨s, hrun, htask⟩ : ∃ s, pairUntouched.run beginBeforeEnd = some s ∧
    s.tasks[1]? = some (.attempt .started) := ⟨_, rfl, rfl⟩
  have hcreate : Timetable.create Service.pairWaiting {} 0 =
    .ok (.idle Service.pairWaiting {} 0) := rfl
  have hended : pairUntouched.notes beginBeforeEnd = [.began 0, .began 1, .ended 0] := rfl
  -- however the first pass ended, its end was noted last
  have hnoted := (noted_of_run hcreate hrun).isRunning
  exact ⟨s, hrun, htask, hnoted.trans (by rw [← pairUntouched, hended]; rfl)⟩

end Traffic

end Matchmaking
