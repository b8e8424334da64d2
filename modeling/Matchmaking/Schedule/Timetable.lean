import Matchmaking.Schedule.Latch
import Matchmaking.Schedule.Ledger
import Matchmaking.Schedule.Timing
import Matchmaking.Service.Processing

/-!
# The timetable of passes

The timetable is created idle, is started once and is stopped for good. To start it, a repeated
job is registered with the timer; a timer that refuses leaves the timetable idle. To stop it, it
is marked as stopped, then everybody is told that passes are cancelled, and then the pass that is
under way is waited for, but not longer than the timing allows.

Starting and stopping are made of steps between which other things can happen.
-/

namespace Matchmaking

/-- The state of the timetable (`MatchmakerScheduler`). -/
structure Timetable where
  /-- When passes run. -/
  timing : Timing
  /-- The matchmaker whose passes they are. -/
  service : Service
  /-- Where it is in its life. -/
  phase : Phase
  /-- Whether the repeated job has been registered. -/
  job : Bool
  /-- Whether passes have been cancelled. -/
  cancelled : Bool
  /-- Taken by the pass that is under way. -/
  latch : Latch
  /-- What is remembered about passes. -/
  ledger : Ledger
  /-- The number of the task that makes the next pass. -/
  nextTask : Nat
  /-- What the selector was offered last. -/
  offered : Option (List Proposal)

namespace Timetable

/-- An idle timetable; the tasks that make passes are numbered from `firstTask` on. -/
def idle (service : Service) (timing : Timing) (firstTask : Nat) : Timetable where
  timing := timing
  service := service
  phase := .idle
  job := false
  cancelled := false
  latch := .initial
  ledger := {}
  nextTask := firstTask
  offered := none

/-- A new timetable (`MatchmakerScheduler::new`). The timing has to be valid. -/
def create (service : Service) (timing : Timing) (firstTask : Nat) :
    Except ScheduleFault Timetable :=
  match timing.validate with
  | .error f => .error f
  | .ok () => .ok (idle service timing firstTask)

/-- Whether a pass is under way. -/
def isPassRunning (t : Timetable) : Bool := t.latch.held

/-- Carries out a call of a client on the matchmaker. -/
def perform (t : Timetable) (call : Intake) : Reply × Timetable :=
  let (reply, service) := t.service.perform call
  (reply, { t with service := service })

end Timetable

/-! ## Starting -/

/-- Where a call is that starts the timetable (`start`). -/
inductive Starting
  /-- It will look at the phase next. -/
  | asked
  /-- It will register the job next. -/
  | registering
  /-- It has its answer. -/
  | answered (result : Except ScheduleFault Unit)

namespace Starting

/-- The next step; `refusal` is why the timer refuses the job, if it does. -/
def step (refusal : Option String) : Starting × Timetable → Starting × Timetable
  | (.asked, t) =>
    match t.phase with
    | .running => (.answered (.error .alreadyRunning), t)
    | .stopped => (.answered (.error .stopped), t)
    | .idle => (.registering, { t with phase := .running })
  | (.registering, t) =>
    match refusal with
    | some detail => (.answered (.error (.timer detail)), { t with phase := .idle })
    | none => (.answered (.ok ()), { t with job := true })
  | (.answered result, t) => (.answered result, t)

/-- The answer, once there is one. -/
def answer? : Starting → Option (Except ScheduleFault Unit)
  | .answered result => some result
  | _ => none

end Starting

/-! ## Stopping -/

/-- Where a call is that stops the timetable (`shutdown`). -/
inductive Stopping
  /-- It will look at the phase next. -/
  | asked
  /-- It will cancel passes next. -/
  | cancelling
  /-- It waits for the pass under way. -/
  | draining
  /-- It has its answer; if it succeeded, `inTime` says whether it saw the end of the pass. -/
  | answered (result : Except ScheduleFault Unit) (inTime : Bool)

namespace Stopping

/-- The next step; `expired` says whether the time to wait is over. -/
def step (expired : Bool) : Stopping × Timetable → Stopping × Timetable
  | (.asked, t) =>
    if t.phase = .running then (.cancelling, { t with phase := .stopped })
    else (.answered (.error .notRunning) false, t)
  | (.cancelling, t) => (.draining, { t with cancelled := true })
  | (.draining, t) =>
    if t.latch.isIdle then (.answered (.ok ()) true, t)
    else if expired then (.answered (.ok ()) false, t)
    else (.draining, t)
  | (.answered result inTime, t) => (.answered result inTime, t)

/-- The answer, once there is one. -/
def answer? : Stopping → Option (Except ScheduleFault Unit)
  | .answered result _ => some result
  | _ => none

end Stopping

namespace Timetable

/-- Starts the timetable while nothing else happens. -/
def start (t : Timetable) : Option (Except ScheduleFault Unit) × Timetable :=
  let (s, t) := Nat.repeat (Starting.step none) 2 (.asked, t)
  (s.answer?, t)

/-- Stops the timetable while nothing else happens; a pass that is under way does not end in time.
-/
def shutdown (t : Timetable) : Option (Except ScheduleFault Unit) × Timetable :=
  let (s, t) := Nat.repeat (Stopping.step true) 3 (.asked, t)
  (s.answer?, t)

end Timetable

end Matchmaking
