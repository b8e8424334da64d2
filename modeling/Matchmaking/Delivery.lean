import Matchmaking.Ticket.Basic

/-!
# Delivery of groups

A group that was formed is handed to whoever wants to know. A queue whose reader is gone loses it,
and nobody minds.
-/

namespace Matchmaking

/-- Whoever is told about groups (`MatchDispatcher`). -/
inductive Receiver
  /-- A listener that is called. -/
  | listener
  /-- A queue with a reader. -/
  | queue
  /-- A queue whose reader is gone. -/
  | closedQueue
  /-- Nobody. -/
  | nobody
  deriving DecidableEq, Repr

namespace Receiver

/-- Whether a group arrives. -/
def hears : Receiver → Bool
  | .listener | .queue => true
  | .closedQueue | .nobody => false

/-- What has arrived after one more group was handed over. -/
def deliver (r : Receiver) (inbox : List Group) (g : Group) : List Group :=
  if r.hears then inbox ++ [g] else inbox

/-- What has arrived after some groups were handed over. -/
def deliverAll (r : Receiver) (inbox : List Group) (gs : List Group) : List Group :=
  gs.foldl r.deliver inbox

/-- Groups that arrive do so in their order. -/
theorem deliverAll_eq (r : Receiver) (inbox gs : List Group) :
    r.deliverAll inbox gs = if r.hears then inbox ++ gs else inbox := by
  induction gs generalizing inbox with
  | nil => simp [deliverAll]
  | cons g gs ih =>
    simp only [deliverAll, List.foldl_cons] at ih ⊢
    rw [ih]
    by_cases h : r.hears = true <;> simp [deliver, h]

end Receiver

end Matchmaking
