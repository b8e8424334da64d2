/-!
# Surplus entries

A group that has too many entries can be brought down to a size that its tickets accept by sending
some of them away. A plan says how many entries go and which members carry them. Plans are listed
by increasing excess: first what exceeds a multiple, then one more multiple each time, as long as
the rest stays large enough. For each excess the members to go add up to it exactly; among several
choices those made last go, measured by their average time, then the fewest.
-/

namespace Matchmaking

namespace Surplus

/-- A ticket that may be sent away (`TrimMember`). -/
structure Member where
  /-- The number of its entries. -/
  count : Nat
  /-- The millisecond in which it was made. -/
  createdMillis : Int
  deriving DecidableEq, Repr, Inhabited

/-- A way to bring a group down (`TrimPlan`). -/
structure Plan where
  /-- The number of entries that go. -/
  excess : Nat
  /-- The positions of the members that go, in increasing order. -/
  removed : List Nat
  deriving DecidableEq, Repr, Inhabited

/-- Whether a member stays. -/
def Plan.keeps (p : Plan) (i : Nat) : Bool := !p.removed.contains i

/-- The greatest number of members that are considered for one excess. -/
def maxMembers : Nat := 16

/-- The positions of the members that may go, the youngest first: those that have no more entries
than there are to go, up to a fixed number of them. -/
def eligible (members : List Member) (target : Nat) : List (Nat × Member) :=
  let fitting := ((List.range members.length).zip members).filter fun m => m.2.count ≤ target
  (fitting.mergeSort fun a b => b.2.createdMillis ≤ a.2.createdMillis).take maxMembers

/-- Some of the members that may go. -/
structure Choice where
  /-- Their positions. -/
  members : List Nat
  /-- The number of their entries. -/
  count : Nat
  /-- The sum of the milliseconds in which they were made. -/
  created : Int
  deriving DecidableEq, Repr

/-- No member. -/
def Choice.none : Choice := ⟨[], 0, 0⟩

/-- One more member. -/
def Choice.add (i : Nat) (m : Member) (c : Choice) : Choice :=
  ⟨i :: c.members, m.count + c.count, m.createdMillis + c.created⟩

/-- All choices with at most `target` entries. The first member changes fastest, as the lowest digit
of a number in base two does. -/
def choices (target : Nat) : List (Nat × Member) → List Choice
  | [] => [.none]
  | (i, m) :: rest => (choices target rest).flatMap fun c =>
    if m.count + c.count ≤ target then [c, c.add i m] else [c]

/-- Whether a choice is better than another one: made later on average, or as late and fewer. -/
def Choice.better (a b : Choice) : Bool :=
  let mine := a.created * b.members.length
  let other := b.created * a.members.length
  decide (other < mine) || (mine == other && a.members.length < b.members.length)

/-- The first of the best choices. -/
def best : List Choice → Option Choice
  | [] => none
  | c :: rest => some (rest.foldl (fun b c => if c.better b then c else b) c)

/-- The members to go for an excess (`best_subset`), if some of them add up to it. -/
def bestSubset (members : List Member) (target : Nat) : Option (List Nat) :=
  let exact := (choices target (eligible members target)).filter fun c =>
    c.count = target && !c.members.isEmpty
  (best exact).map fun c => c.members.mergeSort

/-- The excesses to try for a group of `size` entries: `size % multiple` and on by multiples, while
at least one entry and at least `floor` of them stay. -/
def excesses (size multiple floor : Nat) : List Nat :=
  if size % multiple + floor ≤ size then
    let steps := min (size / multiple) ((size - size % multiple - floor) / multiple + 1)
    (List.range steps).map fun k => size % multiple + k * multiple
  else []

/-- The plan for an excess, if there is one. -/
def plan? (members : List Member) (excess : Nat) : Option Plan :=
  if excess = 0 then some ⟨0, []⟩ else (bestSubset members excess).map fun r => ⟨excess, r⟩

/-- All plans for a group of `size` entries that has to end at a multiple and not below `floor`
(`removal_plans`). -/
def plans (members : List Member) (size multiple floor : Nat) : List Plan :=
  if multiple = 0 || size = 0 then []
  else (excesses size multiple floor).filterMap (plan? members)

/-- Whether the members considered for an excess add up to at most 64 bits. -/
def fits (members : List Member) (excess : Nat) : Bool :=
  excess == 0 ||
    ((eligible members excess).map fun m => m.2.count).foldr (· + ·) 0 < Nat.pow 2 64

/-- All plans, unless some sum along the way has more than 64 bits. -/
def plans? (members : List Member) (size multiple floor : Nat) : Option (List Plan) :=
  if multiple = 0 || size = 0 || (excesses size multiple floor).all (fits members) then
    some (plans members size multiple floor)
  else none

end Surplus

end Matchmaking
