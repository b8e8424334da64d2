import Matchmaking.Query.Clause

/-!
# Matching

Which cards a query matches. The meaning of a query depends on nothing but the card itself.
-/

namespace Matchmaking

open Query (Occur)

/-! ## Values and ranges -/

/-- The order of values of the same kind; values of different kinds are not comparable. -/
def Value.lt : Value → Value → Bool
  | .text a, .text b => a < b
  | .nat a, .nat b => a < b
  | .int a, .int b => a < b
  | _, _ => false

/-- Whether a value lies above the lower end of a range. -/
def Limit.below : Limit → Value → Bool
  | .none, _ => true
  | .inclusive low, v => low.lt v || low == v
  | .exclusive low, v => low.lt v

/-- Whether a value lies below the upper end of a range. -/
def Limit.above : Limit → Value → Bool
  | .none, _ => true
  | .inclusive high, v => v.lt high || v == high
  | .exclusive high, v => v.lt high

/-! ## Phrases -/

/-- The positions at which a card holds a value at a place. -/
def Card.positions (c : Card) (t : Term) : List Nat :=
  ((c.postings t.place).filter fun p => p.value == t.value).map Posting.position

/-- The positions at which a card holds a word that begins with a given text. -/
def Card.startPositions (c : Card) (place : Place) (start : String) : List Nat :=
  (c.postings place).filterMap fun p => match p.value with
    | .text s => if start.isPrefixOf s then some p.position else none
    | _ => none

namespace Phrase

/-- The positions of a word of the phrase on a card, counted from the beginning of the phrase. -/
def shifted (p : Phrase) (c : Card) (w : Text.Word) : List Int :=
  (c.positions ⟨p.place, .text w.text⟩).map fun (i : Nat) => (i : Int) - w.position

/-- The positions of the words that go on the last word, counted from the beginning of the phrase.
-/
def shiftedStart (p : Phrase) (c : Card) (w : Text.Word) : List Int :=
  (c.startPositions p.place w.text).map fun (i : Nat) => (i : Int) - w.position

/-- Those of some positions that are near to one of others. -/
def near (slop : Nat) (here others : List Int) : List Int :=
  here.filter fun i => others.any fun j => (i - j).natAbs ≤ slop

/-- The places where all of some words stand, given their positions. -/
def common (slop : Nat) : List (List Int) → List Int
  | [] => []
  | first :: rest => rest.foldl (fun found next => near slop next found) first

/-- The words that have to stand on the card as they are: all, or all but an open-ended last one. -/
def closedWords (p : Phrase) : List Text.Word := if p.openEnded then p.words.dropLast else p.words

/-- The places where the words of the phrase stand on a card that have to stand as they are. -/
def closedPlaces (p : Phrase) (c : Card) : List Int :=
  common p.slop (p.closedWords.map (p.shifted c))

/-- The places where the phrase stands on a card. -/
def places (p : Phrase) (c : Card) : List Int :=
  match p.openEnded, p.words.getLast? with
  | true, some w => near 0 (p.shiftedStart c w) (p.closedPlaces c)
  | _, _ => p.closedPlaces c

end Phrase

/-! ## Queries -/

/-- Whether a card matches a query without clauses. -/
def Atom.matchesCard (c : Card) : Atom → Bool
  | .all => true
  | .term t => (c.values t.place).contains t.value
  | .phrase p => !(p.places c).isEmpty
  | .range place low high => (c.values place).any fun v => low.below v && high.above v
  | .among terms => terms.any fun t => (c.values t.place).contains t.value

namespace Query

mutual

/-- Whether a card matches a query. -/
def matchesCard (c : Card) : Query → Bool
  | .atom a => a.matchesCard c
  | .boosted q _ => matchesCard c q
  | .clauses parts =>
    needed c parts && !excluded c parts && (requires parts || optional c parts)

/-- Whether a card matches every clause that has to match. -/
def needed (c : Card) : List (Occur × Query) → Bool
  | [] => true
  | (.must, q) :: rest => matchesCard c q && needed c rest
  | _ :: rest => needed c rest

/-- Whether a card matches a clause that must not match. -/
def excluded (c : Card) : List (Occur × Query) → Bool
  | [] => false
  | (.mustNot, q) :: rest => matchesCard c q || excluded c rest
  | _ :: rest => excluded c rest

/-- Whether a card matches a clause that may match. -/
def optional (c : Card) : List (Occur × Query) → Bool
  | [] => false
  | (.should, q) :: rest => matchesCard c q || optional c rest
  | _ :: rest => optional c rest

/-- Whether some clause has to match. -/
def requires : List (Occur × Query) → Bool
  | [] => false
  | (.must, _) :: _ => true
  | _ :: rest => requires rest

end

end Query

end Matchmaking
