import Matchmaking.Assembly.Exhaustive

/-!
# Largest first

A selector that goes through the proposals from the largest to the smallest, those of equal size in
the order in which they were made, and takes each one that has no ticket in common with those taken.
-/

namespace Matchmaking.LargestFirst

/-- The proposals from the largest to the smallest. -/
def sorted (proposals : List Proposal) : List Proposal :=
  proposals.mergeSort fun a b => b.size ≤ a.size

/-- Takes each proposal that has no ticket in common with the tickets taken before. -/
def takeDisjoint (taken : Names) : List Proposal → List Proposal
  | [] => []
  | p :: rest =>
    let ids := p.entries.map Entry.ticketId
    if ids.any taken.contains then takeDisjoint taken rest
    else p :: takeDisjoint (ids.foldl Names.add taken) rest

/-- The chosen proposals (`largest_first`). -/
def choose (proposals : List Proposal) : List Proposal := takeDisjoint .empty (sorted proposals)

/-- The selector. -/
def selector : Selector := fun _ proposals => .ok (choose proposals)

end Matchmaking.LargestFirst
