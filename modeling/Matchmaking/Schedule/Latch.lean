/-!
# The latch

At most one pass is made at a time: a pass has to take the latch before it begins, and when it is
over it frees the latch and then calls everybody who waits. A waiter registers first and looks
second. If it finds the latch free it goes on; if not, it parks until it is called, and begins
again. A call reaches everybody who is registered, parked or not, so that none is missed between
the look and the parking.
-/

namespace Matchmaking

/-- Where somebody is who waits for the latch to be free (`wait_idle`). -/
inductive Waiter
  /-- It will register next. -/
  | arriving
  /-- It is registered and will look next; it may have been called in the meantime. -/
  | registered (called : Bool)
  /-- It found the latch taken and is parked until it is called. -/
  | parked (called : Bool)
  /-- It found the latch free and has gone on. -/
  | gone
  deriving DecidableEq, Repr, Inhabited

namespace Waiter

/-- What a waiter does next, if it can do anything; `held` is what it finds when it looks. -/
def turn (held : Bool) : Waiter → Option Waiter
  | .arriving => some (.registered false)
  | .registered called => some (if held then .parked called else .gone)
  | .parked true => some .arriving
  | .parked false => none
  | .gone => none

/-- A waiter after a call. -/
def call : Waiter → Waiter
  | .registered _ => .registered true
  | .parked _ => .parked true
  | w => w

end Waiter

/-- The latch and those who wait for it (`OverlapGuard`). -/
structure Latch where
  /-- Whether a pass has taken it. -/
  held : Bool
  /-- The number of passes that have freed it and have still to call the waiters. -/
  callers : Nat
  /-- Everybody who waits or has waited. -/
  waiters : List Waiter
  deriving DecidableEq, Repr, Inhabited

namespace Latch

/-- A free latch for which nobody waits. -/
def initial : Latch := ⟨false, 0, []⟩

/-- What can happen to the latch. -/
inductive Event
  /-- A pass takes it. -/
  | take
  /-- The pass that has it frees it. -/
  | free
  /-- A pass that freed it calls the waiters. -/
  | call
  /-- Somebody begins to wait. -/
  | arrive
  /-- It is the turn of a waiter. -/
  | turn (i : Nat)
  deriving DecidableEq, Repr

/-- Takes the latch if it is free (`try_acquire`). -/
def take? (l : Latch) : Option Latch := if l.held then none else some { l with held := true }

/-- Frees the latch; the waiters are still to be called. -/
def free (l : Latch) : Latch := { l with held := false, callers := l.callers + 1 }

/-- Calls the waiters. -/
def call (l : Latch) : Latch :=
  { l with callers := l.callers - 1, waiters := l.waiters.map Waiter.call }

/-- The latch after something happened to it, if that can happen. -/
def step (l : Latch) : Event → Option Latch
  | .take => l.take?
  | .free => if l.held then some l.free else none
  | .call => if l.callers = 0 then none else some l.call
  | .arrive => some { l with waiters := l.waiters ++ [.arriving] }
  | .turn i => do
    let w ← l.waiters[i]?
    let w ← w.turn l.held
    pure { l with waiters := l.waiters.set i w }

/-- The latch after some things happened to it, one after the other. -/
def run (l : Latch) : List Event → Option Latch
  | [] => some l
  | e :: rest => (l.step e).bind fun l => l.run rest

/-- Frees the latch and calls the waiters. -/
def release (l : Latch) : Latch := l.free.call

/-- Whether somebody who comes to wait goes on without parking. -/
def isIdle (l : Latch) : Bool :=
  ((Waiter.arriving.turn l.held).bind (Waiter.turn l.held)) == some .gone

/-- Somebody who comes to wait need not park exactly if no pass has the latch. -/
@[simp]
theorem isIdle_eq (l : Latch) : l.isIdle = !l.held := by
  cases h : l.held <;> simp [isIdle, Waiter.turn, h]

@[simp]
theorem held_release (l : Latch) : l.release.held = false := rfl

end Latch

end Matchmaking
