/-!
# Precision

A pass may insist that the tickets of a group suit one another. It does so only for a while:
whether it still does is asked again for each pair, and the answers of one pass form a sequence. A
pass that never insists gets the answer no every time.
-/

namespace Matchmaking

/-- Whether a pass insists (`PrecisionGate`), reading after reading. -/
structure Precision where
  /-- Whether it was asked for at all. -/
  enabled : Bool
  /-- The answers to be read, in their order. -/
  readings : Nat → Bool

namespace Precision

/-- Never insists. -/
def off : Precision := ⟨false, fun _ => false⟩

/-- Insists during the whole pass. -/
def throughout : Precision := ⟨true, fun _ => true⟩

/-- Was asked for, but its time is over. -/
def expired : Precision := ⟨true, fun _ => false⟩

/-- What the settings ask for (`PrecisionGate::start`): nothing, or to insist for a number of
milliseconds. A pass is taken to be shorter than any such time except none. -/
def ofThreshold (enabled : Bool) (thresholdMs : Nat) : Precision :=
  if !enabled then off else if thresholdMs = 0 then expired else throughout

/-- The answer of a reading. -/
def isOpen (p : Precision) (i : Nat) : Bool := p.enabled && p.readings i

/-- How it is shown. -/
def describe (p : Precision) (i : Nat) : String :=
  let word (b : Bool) : String := if b then "true" else "false"
  "PrecisionGate \x7b enabled: " ++ word p.enabled ++ ", open: " ++ word (p.isOpen i) ++ " \x7d"

end Precision

end Matchmaking
