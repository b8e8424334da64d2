import Matchmaking.Catalog.Basic
import Matchmaking.Query.Matching

/-!
# Relevance

How well a card fits a query. A rare word counts more than a frequent one, a word counts more the
more often it stands on a card, and less the more else stands there. The frequencies are those of
the whole shelf, removed cards included. Numbers have single precision.
-/

namespace Matchmaking

open Query (Occur)

namespace Relevance

/-! ## Frequencies -/

/-- How much the number of occurrences is levelled. -/
def saturation : Float32 := 1.2

/-- How much the length of a field counts. -/
def lengthShare : Float32 := 0.75

/-- The number of cards that hold a value. -/
def cardsWith (s : Shelf) (t : Term) : Nat :=
  s.filed.countP fun f => (f.card.values t.place).contains t.value

/-- The average length of a field. -/
def averageLength (s : Shelf) (f : Field) : Float32 :=
  Float32.ofNat ((s.filed.map fun x => x.card.fieldLength f).foldr (· + ·) 0) /
    Float32.ofNat s.filed.length

/-- The weight of a value that `found` of `total` cards hold. -/
def rarity (found total : Nat) : Float32 :=
  let odds := (Float32.ofNat (total - found) + 0.5) / (Float32.ofNat found + 0.5)
  Float32.log (1.0 + odds)

/-- Lengths below this bound count exactly. -/
def exactLengths : Nat := 24

/-- A length as it is remembered: beyond an exact part, its four highest bits. -/
def rememberedLength (n : Nat) : Nat :=
  if n < exactLengths + 8 then n
  else
    let shift := Nat.log2 (n - exactLengths) - 3
    exactLengths + ((n - exactLengths) >>> shift) <<< shift

/-- The length of a field as it counts; properties all count as equally long. -/
def countedLength (c : Card) (f : Field) : Nat :=
  match f with
  | .properties => 1
  | f => rememberedLength (c.fieldLength f)

/-- The share of its weight that a value earns. -/
def earned (occurrences length : Nat) (average : Float32) : Float32 :=
  let n := Float32.ofNat occurrences
  n / (n + saturation * (1.0 - lengthShare + lengthShare * Float32.ofNat length / average))

/-! ## Weights -/

/-- What an atom is worth on the cards that match it. -/
inductive Weight
  /-- The same on all cards. -/
  | flat (x : Float32)
  /-- A share that hangs on how often it occurs on the card and how long the field is. -/
  | shared (x average : Float32)

/-- The weight of an atom on a shelf, multiplied by a factor. -/
def weigh (s : Shelf) (factor : Float32) : Atom → Weight
  | .term t =>
    let total := s.filed.length
    .shared (rarity (cardsWith s t) total * (1.0 + saturation) * factor)
      (averageLength s t.place.field)
  | .phrase p =>
    let total := s.filed.length
    let words := p.closedWords
    if p.openEnded && words.length = 1 then .flat factor
    else
      let sum := words.foldl
        (fun sum w => sum + rarity (cardsWith s ⟨p.place, .text w.text⟩) total) (0 : Float32)
      .shared (sum * (1.0 + saturation) * factor) (averageLength s p.place.field)
  | _ => .flat factor

/-- The number of times that an atom occurs on a card. -/
def occurrences (c : Card) : Atom → Nat
  | .term t => if t.place.field = .query || t.place.field = .properties
    then (c.values t.place).count t.value else 1
  | .phrase p => if p.slop = 0 then (p.closedPlaces c).length else 1
  | _ => 1

/-- The field of an atom. -/
def fieldOf : Atom → Field
  | .term t => t.place.field
  | .phrase p => p.place.field
  | _ => .query

/-- What an atom is worth on a card that matches it. -/
def worth (c : Card) (a : Atom) : Weight → Float32
  | .flat x => x
  | .shared x average => x * earned (occurrences c a) (countedLength c (fieldOf a)) average

/-! ## Weighed queries -/

/-- A query with the weights of its atoms. -/
inductive Weighed where
  /-- An atom. -/
  | atom (a : Atom) (w : Weight)
  /-- A list of clauses. -/
  | clauses (parts : List (Occur × Weighed))

mutual

/-- The weights of a query on a shelf, multiplied by a factor. -/
def weighQuery (s : Shelf) (factor : Float32) : Query → Weighed
  | .atom a => .atom a (weigh s factor a)
  | .boosted q x => weighQuery s (factor * x.toFloat.toFloat32) q
  | .clauses parts => .clauses (weighParts s factor parts)

/-- The weights of some clauses. -/
def weighParts (s : Shelf) (factor : Float32) : List (Occur × Query) → List (Occur × Weighed)
  | [] => []
  | (o, q) :: rest => (o, weighQuery s factor q) :: weighParts s factor rest

end

/-- The scores of clauses joined: none if a clause that has to match has none, if one that must not
match has one, or if nothing matches; otherwise the sum. -/
def joinScores (parts : List (Occur × Option Float32)) : Option Float32 :=
  let missing := parts.any fun p => p.1 == .must && p.2.isNone
  let barred := parts.any fun p => p.1 == .mustNot && p.2.isSome
  let counted := parts.filterMap fun p => if p.1 == .mustNot then none else p.2
  if missing || barred || counted.isEmpty then none
  else some (counted.foldl (· + ·) 0)

mutual

/-- The score of a card, if it matches. -/
def score (c : Card) : Weighed → Option Float32
  | .atom a w => if a.matchesCard c then some (worth c a w) else none
  | .clauses parts => joinScores (scoreParts c parts)

/-- The scores of a card for some clauses. -/
def scoreParts (c : Card) : List (Occur × Weighed) → List (Occur × Option Float32)
  | [] => []
  | (o, w) :: rest => (o, score c w) :: scoreParts c rest

end

end Relevance

end Matchmaking
