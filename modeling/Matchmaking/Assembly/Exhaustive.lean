import Matchmaking.Round
import Std.Data.HashMap

/-!
# Trying all combinations

Each outer ticket proposes every combination of its best candidates that could be a group: its
members conflict neither with one another nor with the outer ticket, and all of them accept its
size. Before the last interval of the outer ticket only full groups are proposed. A combination
found twice is proposed once. A selector outside chooses among the proposals; what it chooses is
looked up by its tickets, so that it can neither invent groups nor change them, and formed if
everybody is available.
-/

namespace Matchmaking

/-- A proposed group (`ProposedGroup`), as the selector sees it. -/
structure Proposal where
  /-- The entries of the group. -/
  entries : List Entry
  deriving DecidableEq, Repr, Inhabited

namespace Proposal

/-- The number of entries. -/
def size (p : Proposal) : Nat := p.entries.length

/-- The names of the tickets (`ticket_key`), each once, in increasing order. -/
def ticketKey (p : Proposal) : List String := (Names.ofList (p.entries.map Entry.ticketId)).keys

end Proposal

/-- What a selector answers: the groups to form, or why it does not choose. -/
abbrev Verdict := Except Setback (List Proposal)

/-- A selector (`MatchmakerOverride`): what it answers to proposals when it is asked for the n-th
time. -/
abbrev Selector := Nat → List Proposal → Verdict

namespace Exhaustive

/-! ## Combinations -/

/-- Whether two candidates can never be together. -/
def conflict (a b : Pooled) : Bool :=
  a.ticket.sharesSession b.ticket || a.ticket.partyConflict b.ticket ||
    !a.ticket.countsCompatible b.ticket

/-- Whether a candidate can be together with each of the candidates after it. -/
def row (a : Pooled) : List Pooled → Round → List Bool × Round
  | [], r => ([], r)
  | b :: rest, r =>
    let (ok, r) := if conflict a b then (false, r) else r.compatible a b
    let (oks, r) := row a rest r
    (ok :: oks, r)

/-- Every candidate with its row. -/
def rows : List Pooled → Round → List (Pooled × List Bool) × Round
  | [], r => ([], r)
  | a :: rest, r =>
    let (oks, r) := row a rest r
    let (more, r) := rows rest r
    ((a, oks) :: more, r)

/-- Some of the candidates. -/
structure Pick where
  /-- For each candidate, whether it is among them. -/
  chosen : List Bool
  /-- Those that are, in their order. -/
  members : List Pooled
  /-- The number of their entries. -/
  count : Nat

/-- No candidate. -/
def Pick.none : Pick := ⟨[], [], 0⟩

/-- The pick without one more candidate at the beginning. -/
def Pick.skip (p : Pick) : Pick := { p with chosen := false :: p.chosen }

/-- The pick with one more candidate at the beginning. -/
def Pick.take (c : Pooled) (p : Pick) : Pick :=
  ⟨true :: p.chosen, c :: p.members, c.ticket.count + p.count⟩

/-- Whether a candidate can be together with all of a pick. -/
def allows : List Bool → List Bool → Bool
  | ok :: oks, chosen :: rest => (ok || !chosen) && allows oks rest
  | _, _ => true

/-- All picks of candidates that can be together and have at most `room` entries. The first
candidate changes fastest, as the lowest digit of a number in base two does. -/
def picks (room : Nat) : List (Pooled × List Bool) → List Pick
  | [] => [.none]
  | (c, oks) :: rest => (picks room rest).flatMap fun p =>
    if allows oks p.chosen && c.ticket.count + p.count ≤ room then [p.skip, p.take c] else [p.skip]

/-- Whether an outer ticket and some candidates with `count` entries can be a group. -/
def fits (outer : Pooled) (last : Bool) (members : List Pooled) (count : Nat) : Bool :=
  let size := outer.ticket.count + count
  !members.isEmpty && (last || size == outer.ticket.maxCount) && outer.ticket.acceptsSize size &&
    members.all fun m => m.ticket.acceptsSize size

/-- The number of candidates that are too many to be combined: there is a bit of a word for each of
them. -/
def tooMany : Nat := 32

/-- The words with which combining too many candidates breaks down. -/
def tooManyNotice : String := "attempt to shift left with overflow"

/-- All groups that an outer ticket can form with some of its candidates (`enumerate`). The pass
breaks down if there are too many of these. -/
def enumerate (outer : Pooled) (candidates : List Pooled) (last : Bool) (r : Round) :
    List (List Pooled) × Round :=
  let (table, r) := rows candidates r
  let found := (picks (outer.ticket.maxCount - outer.ticket.count) table).filter fun p =>
    fits outer last p.members p.count
  (found.map fun p => outer :: p.members,
    if candidates.length < tooMany then r else r.breakDown tooManyNotice)

/-! ## Proposals -/

/-- The names of some tickets in increasing order. -/
def keyOf (members : List Pooled) : List String := (members.map Pooled.id).mergeSort

/-- A combination under the names of its tickets. -/
abbrev Combination := List String × List Pooled

/-- The combinations that were found so far, no two of them of the same tickets. -/
structure Found where
  /-- The combinations, the last one first. -/
  latestFirst : List Combination
  /-- The combination of each set of names. -/
  index : Std.HashMap (List String) (List Pooled)
  /-- The index holds what the list holds. -/
  getElem?_index : ∀ k, index[k]? = latestFirst.lookup k

namespace Found

/-- Nothing was found. -/
def none : Found := ⟨[], ∅, by simp⟩

/-- The combination of some names, if it was found. -/
def members? (f : Found) (key : List String) : Option (List Pooled) := f.index[key]?

/-- Adds a combination, unless its tickets are together already. -/
def add (f : Found) (members : List Pooled) : Found :=
  let key := keyOf members
  if (f.members? key).isSome then f
  else ⟨(key, members) :: f.latestFirst, f.index.insert key members, by
    intro k
    rw [Std.HashMap.getElem?_insert, f.getElem?_index, List.lookup_cons]
    by_cases h : k = key
    · simp [h]
    · rw [beq_false_of_ne h]
      simp [Ne.symm h]⟩

/-- The combinations in the order in which they were found. -/
def toList (f : Found) : List Combination := f.latestFirst.reverse

/-- Whether nothing was found. -/
def isEmpty (f : Found) : Bool := f.latestFirst.isEmpty

end Found

/-- The turn of one outer ticket. -/
def turn (outer : Pooled) (active : Bool) (known : Found) (r : Round) : Found × Round :=
  let (last, r) := r.beginInterval outer active
  let (candidates, r) := r.candidates outer r.config.batchSize
  let best := candidates.take r.config.maxCustomCandidates
  if best.isEmpty then (known, r)
  else
    let (found, r) := enumerate outer best last r
    (found.foldl Found.add known, r)

/-- The turns of some outer tickets, one after the other. -/
def turns : List (Pooled × Bool) → Found → Round → Found × Round
  | [], known, r => (known, r)
  | (outer, active) :: rest, known, r =>
    let (known, r) := turn outer active known r
    turns rest known r

/-- All combinations of a pass. -/
def propose (r : Round) : Found × Round := turns r.order .none r

/-- A combination as the selector sees it. -/
def offer (c : Combination) : Proposal := ⟨c.2.flatMap fun m => m.ticket.entries⟩

/-- What the selector is offered. -/
def Found.offers (f : Found) : List Proposal := f.toList.map offer

/-! ## Choices -/

/-- Forms the chosen groups: those that were proposed and whose members are all available. -/
def formChosen (found : Found) : List Proposal → Round → List Group × Round
  | [], r => ([], r)
  | choice :: rest, r =>
    match found.members? choice.ticketKey with
    | none => formChosen found rest r
    | some members =>
      if members.all r.isAvailable then
        let (g, r) := r.form members
        let (gs, r) := formChosen found rest r
        (g :: gs, r)
      else formChosen found rest r

/-- The outcome of asking a selector about what was found; about nothing it is not asked. -/
def settle (found : Found) (ask : List Proposal → Verdict) (r : Round) :
    Except Setback (List Group) × Round :=
  if found.isEmpty then (.ok [], r)
  else match ask found.offers with
    | .ok groups =>
      let (gs, r) := formChosen found groups r
      (.ok gs, r)
    | .error setback => (.error setback, r)

/-- The groups of a pass with a selector that is asked for the n-th time
(`CustomStrategy::assemble`), and its end. What a pass does that breaks down is lost, and the
selector is not asked. -/
def assemble (selector : Selector) (n : Nat) (r : Round) : Except Setback (List Group) × Round :=
  let (found, last) := propose r
  match last.breakdown with
  | some message => (.error (.crashed message), r)
  | none => settle found (selector n) last

end Exhaustive

end Matchmaking
