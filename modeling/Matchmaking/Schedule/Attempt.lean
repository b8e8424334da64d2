import Matchmaking.Schedule.Timetable
import Matchmaking.Text.Quoted

/-!
# Attempts to make a pass

A pass is attempted when the timer says so or when somebody asks for it. An attempt looks whether
passes have been cancelled, takes the latch, notes the beginning, lets the matchmaker make its
pass, frees the latch and notes the end. If the latch is taken, the attempt is noted as skipped. A
caller's attempt looks at the phase of the timetable before all that.

An attempt is made of steps between which other things can happen.
-/

namespace Matchmaking

/-- Where an attempt is (`PassRunner::run`). -/
inductive Attempt
  /-- A caller's attempt, which will look at the phase next. -/
  | asked
  /-- It will look next whether passes have been cancelled. -/
  | entered
  /-- It will reach for the latch next. -/
  | reaching
  /-- It has the latch and will note the beginning next. -/
  | holding
  /-- The pass will be made next, by the task of a number. -/
  | started
  /-- The pass was made; its groups may still be on their way, and the latch is still taken. -/
  | made (pass : Pass) (task : Nat)
  /-- The latch is free again, and the end will be noted next. -/
  | freed (pass : Pass) (task : Nat)
  /-- It has its answer. -/
  | answered (result : Except ScheduleFault Report)

/-- The words for a task that broke down. -/
def taskNotice (task : Nat) (message : String) : String :=
  "task " ++ toString task ++ " panicked with message " ++ Text.quoted message

namespace Timetable

/-- Why an attempt is skipped. -/
def skipReason : String := "pass in progress"

/-- Notes that another pass is under way. -/
def noteSkip (t : Timetable) : Timetable := { t with ledger := t.ledger.skip skipReason }

/-- Notes the end of a pass. The clock of the matchmaker does not move on while a pass is made. -/
def noteEnd (t : Timetable) (result : Outcome) (groups tickets : Nat) : Timetable :=
  { t with ledger := t.ledger.complete t.service.clock.now result 0 groups tickets }

/-- Makes a pass. -/
def makePass (t : Timetable) : Pass × Timetable :=
  let (pass, service) := t.service.process t.service.config.precision [] []
  (pass, { t with
    service := service
    nextTask := t.nextTask + 1
    offered := pass.offered.or t.offered })

end Timetable

namespace Attempt

/-- The next step. -/
def step : Attempt × Timetable → Attempt × Timetable
  | (.asked, t) => (if t.phase = .stopped then .answered (.error .stopped) else .entered, t)
  | (.entered, t) => (if t.cancelled then .answered (.error .stopped) else .reaching, t)
  | (.reaching, t) =>
    match t.latch.take? with
    | some latch => (.holding, { t with latch := latch })
    | none => (.answered (.error .passInProgress), t.noteSkip)
  | (.holding, t) => (.started, { t with ledger := t.ledger.start })
  | (.started, t) =>
    let (pass, after) := t.makePass
    (.made pass t.nextTask, after)
  | (.made pass task, t) => (.freed pass task, { t with latch := t.latch.release })
  | (.freed pass task, t) =>
    match pass.outcome with
    | .ok report =>
      (.answered (.ok report), t.noteEnd .success report.matched.length report.matchedTickets)
    | .error (.refused fault) =>
      (.answered (.error (.pass fault)), t.noteEnd (.failed fault.message) 0 0)
    | .error (.crashed message) =>
      let notice := taskNotice task message
      (.answered (.error (.task notice)), t.noteEnd (.failed notice) 0 0)
  | (.answered result, t) => (.answered result, t)

/-- The number of steps that are left at most. -/
def stepsLeft : Attempt → Nat
  | .asked => 7
  | .entered => 6
  | .reaching => 5
  | .holding => 4
  | .started => 3
  | .made _ _ => 2
  | .freed _ _ => 1
  | .answered _ => 0

/-- The answer, once there is one. -/
def answer? : Attempt → Option (Except ScheduleFault Report)
  | .answered result => some result
  | _ => none

/-- Whether the groups of the pass are on their way. -/
def handsOver : Attempt → Bool
  | .made pass _ => !pass.dispatched.isEmpty
  | _ => false

end Attempt

namespace Timetable

/-- Lets an attempt go on to its end while nothing else happens. -/
def finish (t : Timetable) (a : Attempt) : Attempt × Timetable :=
  Nat.repeat Attempt.step a.stepsLeft (a, t)

/-- Makes a pass because a caller asks for it (`run_now`). -/
def runNow (t : Timetable) : Attempt × Timetable := t.finish .asked

/-- Makes a pass because the timer says so. -/
def tick (t : Timetable) : Attempt × Timetable := t.finish .entered

/-- Makes a pass because a caller asks for it, up to where its groups are on their way; an attempt
without groups goes on to its end. -/
def runUntilHandOver (t : Timetable) : Attempt × Timetable :=
  let (a, t) := Nat.repeat Attempt.step 5 (.asked, t)
  if a.handsOver then (a, t) else t.finish a

end Timetable

end Matchmaking
