import Matchmaking.Catalog.Card
import Matchmaking.Query.Expression

/-!
# Queries

A query whose fields and values are known. A clause list matches a card if every clause that has
to match does, none that must not match does and, where nothing has to match, at least one of the
others does. A list of exclusions alone matches nothing.
-/

namespace Matchmaking

open Query (Occur)

/-- A value at a place. -/
structure Term where
  /-- The place. -/
  place : Place
  /-- The value. -/
  value : Value
  deriving DecidableEq, Repr

/-- One end of a range. -/
inductive Limit
  /-- No end. -/
  | none
  /-- An end that belongs to the range. -/
  | inclusive (v : Value)
  /-- An end that does not belong to the range. -/
  | exclusive (v : Value)
  deriving DecidableEq, Repr

/-- Words that follow one another. -/
structure Phrase where
  /-- The place. -/
  place : Place
  /-- The words with their positions in the phrase. -/
  words : List Text.Word
  /-- How far they may be displaced. -/
  slop : Nat
  /-- Whether the last word may go on. -/
  openEnded : Bool
  deriving DecidableEq, Repr

/-- A query without clauses. -/
inductive Atom
  /-- Everything. -/
  | all
  /-- A value. -/
  | term (t : Term)
  /-- Several words. -/
  | phrase (p : Phrase)
  /-- The values between two ends. -/
  | range (place : Place) (low high : Limit)
  /-- One of several values. -/
  | among (terms : List Term)
  deriving DecidableEq, Repr

/-- A query whose fields and values are known. -/
inductive Query where
  /-- A query without clauses. -/
  | atom (a : Atom)
  /-- A query whose matches count more or less. -/
  | boosted (q : Query) (factor : Number)
  /-- A list of clauses. -/
  | clauses (parts : List (Occur × Query))
  deriving Inhabited

namespace Query

/-- The query that nothing matches. -/
def nothing : Query := .clauses []

mutual

/-- Whether a query only excludes: every part is excluded or only excludes. -/
def onlyExcludes : Query → Bool
  | .atom _ => false
  | .boosted q _ => onlyExcludes q
  | .clauses parts => allExclude parts

/-- Whether every one of some clauses excludes. -/
def allExclude : List (Occur × Query) → Bool
  | [] => true
  | (o, q) :: rest => (o == .mustNot || onlyExcludes q) && allExclude rest

end

/-- The clauses of a query that takes part in a list in a given way: a list of clauses that all take
part in that same way stands for its clauses, unless they are exclusions. -/
def flattened (o : Occur) (q : Query) : List (Occur × Query) :=
  match q with
  | .clauses parts =>
    if o != .mustNot && !parts.isEmpty && parts.all (fun p => p.1 == o) then parts else [(o, q)]
  | q => [(o, q)]

mutual

/-- The query without lists inside lists that mean the same without them, and without empty lists.
-/
def simplify : Query → Query
  | .clauses parts => .clauses (simplifyParts parts)
  | q => q

/-- Some clauses, simplified. -/
def simplifyParts : List (Occur × Query) → List (Occur × Query)
  | [] => []
  | (o, q) :: rest => flattened o (simplify q) ++ simplifyParts rest

end

mutual

/-- Whether nothing is left of a query when its empty lists are dropped. -/
def isVoid : Query → Bool
  | .clauses parts => allVoid parts
  | _ => false

/-- Whether nothing is left of some clauses. -/
def allVoid : List (Occur × Query) → Bool
  | [] => true
  | (_, q) :: rest => isVoid q && allVoid rest

end

mutual

/-- The query without empty lists of clauses. -/
def trim : Query → Query
  | .clauses parts => .clauses (trimParts parts)
  | q => q

/-- Some clauses without those of which nothing is left. -/
def trimParts : List (Occur × Query) → List (Occur × Query)
  | [] => []
  | (o, q) :: rest => if isVoid q then trimParts rest else (o, trim q) :: trimParts rest

end

mutual

/-- Whether the catalog can answer the query: it has no ranges of properties. -/
def runnable : Query → Bool
  | .atom (.range p _ _) => p.field != .properties
  | .atom _ => true
  | .boosted q _ => runnable q
  | .clauses parts => allRunnable parts

/-- Whether the catalog can answer each of some clauses. -/
def allRunnable : List (Occur × Query) → Bool
  | [] => true
  | (_, q) :: rest => runnable q && allRunnable rest

end

end Query

end Matchmaking
