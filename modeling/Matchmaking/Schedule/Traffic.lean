import Matchmaking.Schedule.Attempt

/-!
# Everything that happens on a timetable

Several calls can be under way at the same time: attempts to make a pass, calls that start the
timetable and calls that stop it. Their steps alternate in any order, with calls of clients
between them. The caller of an attempt can go away while its pass is made; the pass goes on and
frees the latch, but nobody notes its end.
-/

namespace Matchmaking

/-- What can be asked of a timetable. -/
inductive Demand
  /-- A caller asks for a pass. -/
  | pass
  /-- The timer asks for a pass. -/
  | tick
  /-- To start it. -/
  | start
  /-- To stop it. -/
  | stop
  deriving DecidableEq, Repr

/-- A demand that is being met, step by step. -/
inductive Task
  /-- An attempt to make a pass. -/
  | attempt (a : Attempt)
  /-- An attempt whose caller has gone away. -/
  | orphan (a : Attempt)
  /-- A call that starts the timetable. -/
  | starting (s : Starting)
  /-- A call that stops the timetable. -/
  | stopping (s : Stopping)

/-- What the next step of a task depends on besides the state. -/
structure Circumstance where
  /-- Why the timer refuses the job, if it does. -/
  refusal : Option String
  /-- Whether the time to wait for a pass is over. -/
  expired : Bool
  deriving DecidableEq, Repr

namespace Task

/-- The beginning of the task that meets a demand. -/
def ofDemand : Demand → Task
  | .pass => .attempt .asked
  | .tick => .attempt .entered
  | .start => .starting .asked
  | .stop => .stopping .asked

/-- The next step of a task. -/
def step (c : Circumstance) (t : Timetable) : Task → Task × Timetable
  | .attempt a =>
    let (a, t) := Attempt.step (a, t)
    (.attempt a, t)
  | .orphan (.freed pass n) => (.orphan (.freed pass n), t)
  | .orphan a =>
    let (a, t) := Attempt.step (a, t)
    (.orphan a, t)
  | .starting s =>
    let (s, t) := Starting.step c.refusal (s, t)
    (.starting s, t)
  | .stopping s =>
    let (s, t) := Stopping.step c.expired (s, t)
    (.stopping s, t)

/-- The task without its caller, who can go away while the pass is made. -/
def abandon? : Task → Option Task
  | .attempt .started => some (.orphan .started)
  | .attempt (.made pass n) => some (.orphan (.made pass n))
  | .attempt (.freed pass n) => some (.orphan (.freed pass n))
  | _ => none

end Task

/-- A timetable and the tasks that were begun on it. -/
structure Traffic where
  /-- The timetable. -/
  timetable : Timetable
  /-- The tasks, in the order in which they were begun. -/
  tasks : List Task

namespace Traffic

/-- What can happen next. -/
inductive Event
  /-- Somebody has a demand; the timer only if it has the job. -/
  | demand (d : Demand)
  /-- A task takes its next step. -/
  | turn (i : Nat) (c : Circumstance)
  /-- The caller of a task goes away. -/
  | abandon (i : Nat)
  /-- A client calls the matchmaker. -/
  | call (c : Intake)

/-- What is the case after something happened, if it can happen. -/
def step (s : Traffic) : Event → Option Traffic
  | .demand .tick =>
    if s.timetable.job then some { s with tasks := s.tasks ++ [.ofDemand .tick] } else none
  | .demand d => some { s with tasks := s.tasks ++ [.ofDemand d] }
  | .turn i c => (s.tasks[i]?).map fun task =>
    let (task, t) := task.step c s.timetable
    ⟨t, s.tasks.set i task⟩
  | .abandon i => do
    let task ← s.tasks[i]?
    let orphan ← task.abandon?
    pure { s with tasks := s.tasks.set i orphan }
  | .call c => some { s with timetable := (s.timetable.perform c).2 }

/-- What is the case after some things happened, one after the other. -/
def run (s : Traffic) : List Event → Option Traffic
  | [] => some s
  | e :: rest => (s.step e).bind fun s => s.run rest

end Traffic

end Matchmaking
