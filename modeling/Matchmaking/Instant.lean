/-!
# Points in time

A point in time is counted in nanoseconds since the beginning of 1970. Outside the program it is
known by its whole milliseconds, rounded down, also before 1970.
-/

namespace Matchmaking

/-- A point in time. -/
structure Instant where
  /-- Nanoseconds since the beginning of 1970. -/
  nanos : Int
  deriving DecidableEq, Repr, Inhabited

namespace Instant

/-- Nanoseconds per millisecond. -/
def perMilli : Int := 1000000

/-- The whole milliseconds since the beginning of 1970, rounded down. -/
def millis (t : Instant) : Int := t.nanos / perMilli

/-- The instant at which a millisecond begins. -/
def ofMillis (ms : Int) : Instant := ⟨ms * perMilli⟩

/-- The instant rounded down to a whole millisecond. -/
def floorMillis (t : Instant) : Instant := ofMillis t.millis

/-- The first millisecond of the calendar, at the beginning of the year -262143. -/
def minMillis : Int := -8334601228800000

/-- The last millisecond of the calendar, at the end of the year 262142. -/
def maxMillis : Int := 8210266876799999

instance : LE Instant := ⟨fun a b => a.nanos ≤ b.nanos⟩

instance : LT Instant := ⟨fun a b => a.nanos < b.nanos⟩

instance (a b : Instant) : Decidable (a ≤ b) := inferInstanceAs (Decidable (a.nanos ≤ b.nanos))

instance (a b : Instant) : Decidable (a < b) := inferInstanceAs (Decidable (a.nanos < b.nanos))

@[simp]
theorem millis_ofMillis (ms : Int) : (ofMillis ms).millis = ms := by
  simp only [millis, ofMillis, perMilli]
  omega

end Instant

end Matchmaking
