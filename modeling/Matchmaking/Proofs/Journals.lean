import Matchmaking.Proofs.Interleavings

/-!
# Journals

While the pass of an attempt is made, clients call: while its groups are formed and between the
steps that follow. A run in which this is possible is written down in a journal: which attempt took
the latch, which attempt made its pass and what came of it, and what clients called in between. The
journal determines what happened to the matchmaker (`Course.service`).
-/

namespace Matchmaking

/-! ## Passes with calls in between -/

/-- What happens while a pass is made. -/
structure Meanwhile where
  /-- What the pass reads of its precision. -/
  precision : Precision
  /-- The calls made while groups are formed. -/
  inForming : List Intake
  /-- The calls made after the tickets of the groups are retired, before the first group is handed
  over, and while each of the groups is. -/
  inSettling : List (List Intake)

/-- Makes a pass while clients call. -/
def Timetable.makePassAmid (t : Timetable) (m : Meanwhile) : Pass × Timetable :=
  let (pass, service) := t.service.process m.precision m.inForming m.inSettling
  (pass, { t with
    service := service
    nextTask := t.nextTask + 1
    offered := pass.offered.or t.offered })

/-- What happens if nobody calls. -/
def Timetable.undisturbed (t : Timetable) : Meanwhile := ⟨t.service.config.precision, [], []⟩

theorem Timetable.makePassAmid_undisturbed (t : Timetable) :
    t.makePassAmid t.undisturbed = t.makePass := rfl

namespace Traffic

/-- What can happen next on a timetable if clients call while passes are made. -/
inductive Incident
  /-- Something happens in between; a pass that is made is not disturbed. -/
  | event (e : Event)
  /-- The attempt of a number makes its pass. -/
  | pass (i : Nat) (m : Meanwhile)

/-- What is the case after something happened, if it can happen. -/
def stepAmid (s : Traffic) : Incident → Option Traffic
  | .event e => s.step e
  | .pass i m =>
    match s.tasks[i]? with
    | some (.attempt .started) =>
      let (pass, t) := s.timetable.makePassAmid m
      some ⟨t, s.tasks.set i (.attempt (.made pass s.timetable.nextTask))⟩
    | _ => none

/-- What is the case after some things happened, one after the other. -/
def runAmid (s : Traffic) : List Incident → Option Traffic
  | [] => some s
  | x :: rest => (s.stepAmid x).bind fun s => s.runAmid rest

theorem runAmid_append (before after : List Incident) (s : Traffic) :
    s.runAmid (before ++ after) = (s.runAmid before).bind fun s => s.runAmid after := by
  induction before generalizing s with
  | nil => rfl
  | cons x rest ih =>
    rw [List.cons_append, runAmid, runAmid, Option.bind_assoc]
    exact congrArg _ (funext ih)

/-- Among these runs are those in which no pass is disturbed. -/
theorem runAmid_events (s : Traffic) (events : List Event) :
    s.runAmid (events.map .event) = s.run events := by
  induction events generalizing s with
  | nil => rfl
  | cons e rest ih =>
    rw [List.map_cons, runAmid, run, stepAmid]
    exact congrArg _ (funext ih)

end Traffic

/-! ## What is written down -/

/-- What is remarkable about the step of an attempt. -/
inductive Mark
  /-- It takes the latch. -/
  | took
  /-- It makes its pass. -/
  | made (m : Meanwhile) (pass : Pass)

/-- What is written in a journal. -/
inductive Remark
  /-- The attempt of a number did something. -/
  | attempt (i : Nat) (mark : Mark)
  /-- A client called while no pass was made. -/
  | call (c : Intake)

/-- What is remarkable about the next step of a task that nobody disturbs. -/
def Task.mark? (t : Timetable) : Task → Option Mark
  | .attempt .reaching => if t.latch.held then none else some .took
  | .attempt .started => some (.made t.undisturbed t.makePass.1)
  | _ => none

namespace Traffic

/-- What is written down of something that happens. -/
def remarks (s : Traffic) : Incident → List Remark
  | .event (.turn i _) => ((s.tasks[i]?.bind (Task.mark? s.timetable)).map (.attempt i)).toList
  | .event (.call c) => [.call c]
  | .event _ => []
  | .pass i m => [.attempt i (.made m (s.timetable.makePassAmid m).1)]

/-- The journal of a run, up to where it cannot go on. -/
def journal (s : Traffic) : List Incident → List Remark
  | [] => []
  | x :: rest => s.remarks x ++ (s.stepAmid x).elim [] fun s => s.journal rest

end Traffic

/-! ## Steps and remarks -/

/-- What the next step of a task with a caller can be, and what is remarkable about it. -/
inductive Task.Advance (t : Timetable) : Task → Option Mark → Task → Timetable → Prop
  | refuse : Advance t (.attempt .asked) none (.attempt (.answered (.error .stopped))) t
  | enter : Advance t (.attempt .asked) none (.attempt .entered) t
  | cancel : Advance t (.attempt .entered) none (.attempt (.answered (.error .stopped))) t
  | reach : Advance t (.attempt .entered) none (.attempt .reaching) t
  | skip : Advance t (.attempt .reaching) none
    (.attempt (.answered (.error .passInProgress))) t.noteSkip
  | take : Advance t (.attempt .reaching) (some .took) (.attempt .holding)
    { t with latch := { t.latch with held := true } }
  | begin : Advance t (.attempt .holding) none (.attempt .started)
    { t with ledger := t.ledger.start }
  | make (m : Meanwhile) : Advance t (.attempt .started) (some (.made m (t.makePassAmid m).1))
    (.attempt (.made (t.makePassAmid m).1 t.nextTask)) (t.makePassAmid m).2
  | free {pass : Pass} {n : Nat} : Advance t (.attempt (.made pass n)) none
    (.attempt (.freed pass n)) { t with latch := t.latch.release }
  | finish {pass : Pass} {n : Nat} {result : Except ScheduleFault Report} {outcome : Outcome}
    {groups tickets : Nat} (h : pass.Ends n result outcome groups tickets) :
    Advance t (.attempt (.freed pass n)) none (.attempt (.answered result))
      (t.noteEnd outcome groups tickets)
  | rest {result : Except ScheduleFault Report} :
    Advance t (.attempt (.answered result)) none (.attempt (.answered result)) t
  | starting {s s' : Starting} {t' : Timetable} (hledger : t'.ledger = t.ledger)
    (hservice : t'.service = t.service) : Advance t (.starting s) none (.starting s') t'
  | stopping {s s' : Stopping} {t' : Timetable} (hledger : t'.ledger = t.ledger)
    (hservice : t'.service = t.service) : Advance t (.stopping s) none (.stopping s') t'

/-- Whether the caller of a task has gone away. -/
def Task.isOrphan : Task → Bool
  | .orphan _ => true
  | _ => false

theorem Task.Turn.advance {c : Circumstance} {t t' : Timetable} {task task' : Task}
    (h : task.Turn c t task' t') (hcaller : task.isOrphan = false) :
    task.Advance t (task.mark? t) task' t' := by
  cases h with
  | attempt hstep =>
    cases hstep with
    | refused _ => exact .refuse
    | enter _ => exact .enter
    | cancelled _ => exact .cancel
    | reach _ => exact .reach
    | skip hheld =>
      rw [mark?, if_pos hheld]
      exact .skip
    | take hfree =>
      rw [mark?, if_neg (Bool.eq_false_iff.1 hfree)]
      exact .take
    | begin => exact .begin
    | make => exact .make t.undisturbed
    | free => exact .free
    | finish hends => exact .finish hends
    | rest => exact .rest
  | orphan _ _ | lost => cases hcaller
  | starting hstep => cases hstep <;> exact .starting rfl rfl
  | stopping hstep => cases hstep <;> exact .stopping rfl rfl

namespace Traffic

variable {s s' : Traffic} {incidents : List Incident} {remarks : List Remark}

/-- What something that happens leaves behind, if nobody goes away, and what is written down. -/
inductive Occurs (s : Traffic) : List Remark → Traffic → Prop
  /-- A task is begun. -/
  | begin (d : Demand) : Occurs s [] { s with tasks := s.tasks ++ [.ofDemand d] }
  /-- A task takes its next step. -/
  | advance {i : Nat} {task task' : Task} {mark : Option Mark} {t' : Timetable}
    (h : s.tasks[i]? = some task) (hadvance : task.Advance s.timetable mark task' t') :
    Occurs s (mark.map (.attempt i)).toList ⟨t', s.tasks.set i task'⟩
  /-- A client calls. -/
  | call (c : Intake) : Occurs s [.call c] { s with timetable := (s.timetable.perform c).2 }

/-- Nobody has gone away. -/
def Attended (s : Traffic) : Prop := ∀ task ∈ s.tasks, task.isOrphan = false

theorem occurs_of_stepAmid {x : Incident} (h : s.stepAmid x = some s') (hs : s.Attended)
    (hx : ∀ i, x ≠ .event (.abandon i)) : Occurs s (s.remarks x) s' := by
  cases x with
  | event e =>
    cases happens_of_step h with
    | demand d => exact .begin d
    | @turn i c task task' t' htask hturn =>
      have hmark : s.remarks (.event (.turn i c)) =
          ((task.mark? s.timetable).map (.attempt i)).toList := by
        rw [Traffic.remarks, htask]
        rfl
      rw [hmark]
      exact .advance htask (hturn.advance (hs task (List.mem_of_getElem? htask)))
    | abandon _ _ => exact absurd rfl (hx _)
    | call c => exact .call c
  | pass i m =>
    rw [stepAmid] at h
    split at h
    · rename_i htask
      cases h
      exact .advance htask (.make m)
    · cases h

theorem Occurs.attended (h : Occurs s remarks s') (hs : s.Attended) : s'.Attended := by
  intro task htask
  cases h with
  | begin d =>
    rcases List.mem_append.1 htask with htask | htask
    · exact hs task htask
    · rw [List.mem_singleton.1 htask]
      cases d <;> rfl
  | advance hi hadvance =>
    rcases List.mem_or_eq_of_mem_set htask with htask | rfl
    · exact hs task htask
    · cases hadvance <;> rfl
  | call c => exact hs task htask

/-- What some things that happen leave behind, if nobody goes away, and the journal of that. -/
inductive Course : Traffic → List Remark → Traffic → Prop
  /-- Nothing happens. -/
  | done (s : Traffic) : Course s [] s
  /-- Something happens first. -/
  | next {s s' s'' : Traffic} {remarks rest : List Remark} (h : Occurs s remarks s')
    (hrest : Course s' rest s'') : Course s (remarks ++ rest) s''

theorem course_of_runAmid (h : s.runAmid incidents = some s') (hs : s.Attended)
    (hpresent : ∀ i, .event (.abandon i) ∉ incidents) : Course s (s.journal incidents) s' := by
  induction incidents generalizing s with
  | nil =>
    obtain rfl := Option.some.inj h
    exact .done s
  | cons x rest ih =>
    obtain ⟨s₁, hstep, hrest⟩ := Option.bind_eq_some_iff.1 h
    have hfirst : Occurs s (s.remarks x) s₁ := occurs_of_stepAmid hstep hs fun i hx =>
      hpresent i (hx ▸ List.mem_cons_self)
    have hafter : Course s₁ (s₁.journal rest) s' := ih hrest (hfirst.attended hs) fun i hi =>
      hpresent i (List.mem_cons_of_mem x hi)
    rw [journal, hstep]
    exact .next hfirst hafter

theorem Course.attended (h : Course s remarks s') (hs : s.Attended) : s'.Attended := by
  induction h with
  | done s => exact hs
  | next hfirst _ ih => exact ih (hfirst.attended hs)

end Traffic

/-! ## What a journal says of the matchmaker -/

/-- What a remark says of the matchmaker. -/
def Remark.event? : Remark → Option Event
  | .attempt _ .took => none
  | .attempt _ (.made m _) => some (.pass m.precision m.inForming m.inSettling)
  | .call c => some (.call c)

/-- What a journal says of the matchmaker. -/
def eventsOf (remarks : List Remark) : List Event := remarks.filterMap Remark.event?

namespace Traffic

variable {s s' : Traffic} {remarks : List Remark}

theorem Occurs.service (h : Occurs s remarks s') :
    s'.timetable.service = s.timetable.service.run (eventsOf remarks) := by
  cases h with
  | begin d => rfl
  | call c => rfl
  | advance hi hadvance =>
    cases hadvance with
    | starting hledger hservice | stopping hledger hservice => exact hservice
    | _ => rfl

theorem Course.service (h : Course s remarks s') :
    s'.timetable.service = s.timetable.service.run (eventsOf remarks) := by
  induction h with
  | done s => rfl
  | next hfirst _ ih =>
    rw [ih, hfirst.service, eventsOf, eventsOf, eventsOf, List.filterMap_append,
      Service.run_append]

end Traffic

end Matchmaking
