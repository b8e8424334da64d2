import Matchmaking.Catalog.Search
import Matchmaking.Roster

/-!
# Satisfaction in both directions

Two tickets suit each other if the card of each matches the query of the other. What was found for a
pair is remembered, whichever of the two is named first.
-/

namespace Matchmaking

/-- Whether the card of one ticket matches the query of another one (`one_way`); a query that the
catalog cannot answer matches nothing. -/
def suits (s : Shelf) (asker other : Pooled) : Bool :=
  match s.probe asker.query other.id with
  | .ok found => found
  | .error _ => false

/-- Whether two tickets suit each other. -/
def suitEachOther (s : Shelf) (a b : Pooled) : Bool := suits s a b && suits s b a

/-- What was found for pairs of tickets (`MutualMatcher`), by the smaller name and then by the
greater one. -/
structure TwoWay where
  /-- The answers. -/
  answers : Table (Table Bool)

namespace TwoWay

/-- Nothing is remembered. -/
def empty : TwoWay := ⟨.empty⟩

/-- The smaller of two names. -/
def lower (a b : String) : String := if a ≤ b then a else b

/-- The greater of two names. -/
def upper (a b : String) : String := if a ≤ b then b else a

/-- What is remembered for a pair. -/
def find? (m : TwoWay) (a b : String) : Option Bool :=
  (m.answers.get? (lower a b)).bind fun row => row.get? (upper a b)

/-- Remembers an answer for a pair. -/
def store (m : TwoWay) (a b : String) (answer : Bool) : TwoWay :=
  let row := (m.answers.get? (lower a b)).getD .empty
  ⟨m.answers.insert (lower a b) (row.insert (upper a b) answer)⟩

/-- The number of pairs for which an answer is remembered. -/
def size (m : TwoWay) : Nat := (m.answers.values.map Table.size).foldr (· + ·) 0

/-- Whether two tickets suit each other (`MutualMatcher::check`), from memory if possible. -/
def check (m : TwoWay) (s : Shelf) (a b : Pooled) : Bool × TwoWay :=
  match m.find? a.id b.id with
  | some answer => (answer, m)
  | none =>
    let answer := suitEachOther s a b
    (answer, m.store a.id b.id answer)

end TwoWay

end Matchmaking
