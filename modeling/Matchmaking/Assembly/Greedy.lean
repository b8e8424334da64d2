import Matchmaking.Round
import Matchmaking.Surplus

/-!
# Filling groups greedily

Each outer ticket in turn collects its candidates, best first, in buffers: a candidate joins the
first buffer that has room for it and none of whose tickets it conflicts with, and opens a new
buffer if there is none. A buffer that is full forms a group with the outer ticket. On the last
interval of the outer ticket a buffer is also complete when it is large enough and no later
candidate would fit; at the end the buffers that are large enough are tried, the largest first. A
group whose size is no multiple that all tickets accept sends surplus tickets away.
-/

namespace Matchmaking.Greedy

/-- The number of entries that some tickets bring (`entry_count`). -/
def entryCount (ts : List Pooled) : Nat := (ts.map fun p => p.ticket.count).foldr (· + ·) 0

/-- What surplus calculations know of a buffer. -/
def members (buffer : List Pooled) : List Surplus.Member :=
  buffer.map fun p => ⟨p.ticket.count, p.ticket.createdMillis⟩

/-- The tickets of a buffer that stay under a plan. -/
def kept (plan : Surplus.Plan) (buffer : List Pooled) : List Pooled :=
  ((List.range buffer.length).zip buffer).filterMap fun (i, p) =>
    if plan.keeps i then some p else none

/-- The members of the group that an outer ticket and a buffer form under a plan, if all of them
accept its size. -/
def settle? (outer : Pooled) (buffer : List Pooled) (size : Nat) (plan : Surplus.Plan) :
    Option (List Pooled) :=
  let stay := kept plan buffer
  let final := size - plan.excess
  if !stay.isEmpty && outer.ticket.acceptsSize final && stay.all fun p => p.ticket.acceptsSize final
  then some (outer :: stay)
  else none

/-- The members of the group that an outer ticket and a buffer form (`finalize`). -/
def finalize (outer : Pooled) (buffer : List Pooled) : Option (List Pooled) :=
  let size := outer.ticket.count + entryCount buffer
  (Surplus.plans (members buffer) size outer.ticket.multiple outer.ticket.minCount).findSome?
    (settle? outer buffer size)

/-- Whether two tickets can never be in the same group. -/
def clash (a b : Pooled) : Bool :=
  a.ticket.sharesSession b.ticket || a.ticket.partyConflict b.ticket

/-- Puts a candidate into the first buffer that takes it, or into a new one; gives back all buffers
and the one that took it. -/
def place (outer hit : Pooled) :
    List (List Pooled) → Round → List (List Pooled) × List Pooled × Round
  | [], r => ([[hit]], [hit], r)
  | b :: rest, r =>
    let full := outer.ticket.maxCount < outer.ticket.count + entryCount b + hit.ticket.count
    if full || b.any fun m => clash m hit then
      let (rest, taken, r) := place outer hit rest r
      (b :: rest, taken, r)
    else match Round.compatibleWithAll hit b r with
      | (true, r) => ((b ++ [hit]) :: rest, b ++ [hit], r)
      | (false, r) =>
        let (rest, taken, r) := place outer hit rest r
        (b :: rest, taken, r)

/-- Whether a candidate can be in a group with the outer ticket at all. -/
def admissible (outer hit : Pooled) : Bool :=
  outer.ticket.count + hit.ticket.count ≤ outer.ticket.maxCount &&
    !outer.ticket.partyConflict hit.ticket

/-- Whether a buffer is complete: it is full or, on the last interval, it is large enough and none
of the candidates to come would fit. -/
def complete (outer : Pooled) (last : Bool) (later buffer : List Pooled) : Bool :=
  let size := outer.ticket.count + entryCount buffer
  size == outer.ticket.maxCount ||
    (last && outer.ticket.minCount ≤ size &&
      !later.any fun next => size + next.ticket.count ≤ outer.ticket.maxCount)

/-- Distributes candidates until a group is formed; gives back its members, or the buffers. -/
def fill (outer : Pooled) (last : Bool) :
    List Pooled → List (List Pooled) → Round → (List Pooled ⊕ List (List Pooled)) × Round
  | [], buffers, r => (.inr buffers, r)
  | hit :: rest, buffers, r =>
    if admissible outer hit then
      let (buffers, taken, r) := place outer hit buffers r
      if complete outer last rest taken then
        match finalize outer taken with
        | some group => (.inl group, r)
        | none => fill outer last rest buffers r
      else fill outer last rest buffers r
    else fill outer last rest buffers r

/-- The members of the first group among the buffers that are large enough, the largest first. -/
def settleForLess (outer : Pooled) (buffers : List (List Pooled)) : Option (List Pooled) :=
  let largestFirst := buffers.mergeSort fun a b => entryCount b ≤ entryCount a
  let largeEnough (b : List Pooled) : Bool :=
    outer.ticket.minCount ≤ outer.ticket.count + entryCount b
  (largestFirst.takeWhile largeEnough).findSome? (finalize outer)

/-- The members of the group that an outer ticket forms with its candidates (`assemble_for`). -/
def assembleFor (outer : Pooled) (candidates : List Pooled) (last : Bool) (r : Round) :
    Option (List Pooled) × Round :=
  match fill outer last candidates [] r with
  | (.inl group, r) => (some group, r)
  | (.inr buffers, r) => (if last then settleForLess outer buffers else none, r)

/-- The turn of one outer ticket. -/
def turn (outer : Pooled) (active : Bool) (r : Round) : Option Group × Round :=
  if r.isAvailable outer then
    let (last, r) := r.beginInterval outer active
    let (candidates, r) := r.candidates outer r.config.batchSize
    if candidates.isEmpty then (none, r)
    else match assembleFor outer candidates last r with
      | (some group, r) =>
        let (g, r) := r.form group
        (some g, r)
      | (none, r) => (none, r)
  else (none, r)

/-- The turns of some outer tickets, one after the other. -/
def turns : List (Pooled × Bool) → Round → List Group × Round
  | [], r => ([], r)
  | (outer, active) :: rest, r =>
    let (g, r) := turn outer active r
    let (gs, r) := turns rest r
    (g.toList ++ gs, r)

/-- The groups of a pass (`DefaultStrategy::assemble`), and its end. What a pass does that breaks
down is lost. -/
def assemble (r : Round) : Except Setback (List Group) × Round :=
  let (groups, last) := turns r.order r
  match last.breakdown with
  | some message => (.error (.crashed message), r)
  | none => (.ok groups, last)

end Matchmaking.Greedy
