import Matchmaking.Settings.Basic

/-!
# Timing of passes

How much time lies between two passes, and how long a shutdown waits for the one that is under way.
-/

namespace Matchmaking

open Json

/-- When passes run (`SchedulerConfig`). -/
structure Timing where
  /-- Milliseconds between two passes. -/
  intervalMs : Nat := 15000
  /-- Seconds that a shutdown waits. -/
  shutdownTimeoutSecs : Nat := 30
  deriving DecidableEq, Repr, Inhabited

namespace Timing

/-- The timing that the settings of the matchmaker ask for; the interval has at most 64 bits. -/
def ofConfig (c : Config) : Timing :=
  { intervalMs := min (c.intervalSecs * 1000) (Nat.pow 2 64 - 1) }

/-- Passes need some time between them (`SchedulerConfig::validate`). -/
def validate (t : Timing) : Except ScheduleFault Unit :=
  if t.intervalMs = 0 then .error (.badInterval "interval_ms must be > 0") else .ok ()

/-- The JSON form. -/
def form (t : Timing) : Json :=
  .record [("interval_ms", nat t.intervalMs), ("shutdown_timeout_secs", nat t.shutdownTimeoutSecs)]

/-- Reads a timing; every field has its default. -/
def decode : Decoder Timing := fun o j => do
  let got ← fields "SchedulerConfig" [.defaulted "interval_ms" word,
    .defaulted "shutdown_timeout_secs" word] o j
  let standard : Timing := {}
  pure {
    intervalMs := ← get got o "interval_ms" word standard.intervalMs
    shutdownTimeoutSecs := ← get got o "shutdown_timeout_secs" word standard.shutdownTimeoutSecs }

end Timing

end Matchmaking
