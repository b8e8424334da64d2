import Matchmaking.Decimal.Number

/-!
# Query expressions

What a query says, as it is written: words, phrases, ranges and sets, each possibly for a field,
joined by signs and by the words for "and", "or" and "not".

The parts of a list of clauses carry a sign or none. Where parts are joined by words, a part between
two "and"s belongs to a group all of whose parts are needed, and each group is one alternative.
-/

namespace Matchmaking.Query

/-- How a clause takes part in a list of clauses. -/
inductive Occur
  /-- It has to match. -/
  | must
  /-- It may match. -/
  | should
  /-- It must not match. -/
  | mustNot
  deriving DecidableEq, Repr

/-- One end of a range as it is written. -/
inductive Bound
  /-- No end. -/
  | unbounded
  /-- An end that belongs to the range. -/
  | inclusive (value : String)
  /-- An end that does not belong to the range. -/
  | exclusive (value : String)
  deriving DecidableEq, Repr

/-- What follows a word or phrase. -/
structure Suffix where
  /-- How far the words of a phrase may be displaced. -/
  slop : Nat
  /-- Whether the last word may go on. -/
  openEnded : Bool
  deriving DecidableEq, Repr

/-- A query without signs or joining words. -/
inductive Leaf
  /-- Everything. -/
  | all
  /-- A word or a phrase. -/
  | words (field : Option String) (text : String) (suffix : Suffix)
  /-- The values between two ends. -/
  | range (field : Option String) (low high : Bound)
  /-- One of several values. -/
  | among (field : Option String) (values : List String)
  /-- Any value of a field. -/
  | present (field : Option String)
  deriving DecidableEq, Repr

/-- A leaf for a field; a leaf that has its own field keeps it, and "everything" becomes "any
value of the field". "Any value" of no field stays what it is. -/
def Leaf.within (field : String) : Leaf → Leaf
  | .all => .present (some field)
  | .words none s x => .words (some field) s x
  | .range none low high => .range (some field) low high
  | .among none values => .among (some field) values
  | l => l

/-- A query as it is written. -/
inductive Expression where
  /-- A query without signs or joining words. -/
  | leaf (l : Leaf)
  /-- A query whose matches count more or less. -/
  | boosted (e : Expression) (factor : Number)
  /-- A list of clauses with their signs. -/
  | clauses (parts : List (Option Occur × Expression))
  deriving Inhabited

namespace Expression

/-- The query without clauses. -/
def nothing : Expression := .clauses []

/-- The opposite of a query. -/
def negate (e : Expression) : Expression := .clauses [(some .mustNot, e)]

/-! ## Fields of groups -/

mutual

/-- A query with a field for all its leaves that have none. -/
def within (field : String) : Expression → Expression
  | .leaf l => .leaf (l.within field)
  | .boosted e x => .boosted (within field e) x
  | .clauses parts => .clauses (withinParts field parts)

/-- Some clauses with a field for all their leaves that have none. -/
def withinParts (field : String) :
    List (Option Occur × Expression) → List (Option Occur × Expression)
  | [] => []
  | (o, e) :: rest => (o, within field e) :: withinParts field rest

end

/-! ## Joining -/

/-- A word that joins a part with the one before it. -/
inductive Joint
  /-- Both are needed. -/
  | and
  /-- One is enough. -/
  | or
  deriving DecidableEq, Repr

/-- A part of a joined query. -/
structure Part where
  /-- The word before it. -/
  joint : Option Joint
  /-- The sign before it. -/
  sign : Option Occur
  /-- What it says. -/
  content : Expression
  deriving Inhabited

/-- The occurrence of a part without a sign that is not joined by "and" to the one before it: it
hangs on the words before and after. -/
def defaultOccur (before after : Option Joint) : Option Occur :=
  match after with
  | some .and => some .must
  | some .or => some .should
  | none => if before.isSome then some .should else none

/-- A part that begins a new group. An excluded part that is one of several alternatives becomes an
alternative of its own. -/
def Part.opening (p : Part) (after : Option Joint) : Option Occur × Expression :=
  let standard := defaultOccur p.joint after
  if p.sign = some .mustNot ∧ standard = some .should then (some .should, p.content.negate)
  else (p.sign.or standard, p.content)

/-- A part that is joined by "and" to the one before it. -/
def Part.joined (p : Part) : Option Occur × Expression := (p.sign.or (some .must), p.content)

/-- The groups of parts, each a list of parts joined by "and". -/
def groups : List Part → List (List (Option Occur × Expression))
  | [] => []
  | p :: rest =>
    let after := rest.head?.bind Part.joint
    let clause := if p.joint = some .and then p.joined else p.opening after
    match groups rest with
    | [] => [[clause]]
    | g :: gs => if after = some .and then (clause :: g) :: gs else [clause] :: g :: gs

/-- A group as one clause: a single part as it is, several as an alternative. -/
def groupClause : List (Option Occur × Expression) → Option Occur × Expression
  | [clause] => clause
  | g => (some .should, .clauses g)

/-- The query of some joined parts. -/
def join (parts : List Part) : Expression :=
  match groups parts with
  | [[(some .mustNot, e)]] => e.negate
  | [[(_, e)]] => e
  | [g] => .clauses g
  | gs => .clauses (gs.map groupClause)

/-- The query of a single part with a sign or none. -/
def single (sign : Option Occur) (e : Expression) : Expression :=
  if sign = some .mustNot then e.negate else e

/-! ## The outermost list -/

/-- A clause without a sign that consists of one clause stands for that clause. -/
def unwrapPart : Option Occur × Expression → Option Occur × Expression
  | (none, .clauses [part]) => part
  | part => part

/-- A query whose outermost clauses are unwrapped. -/
def unwrap : Expression → Expression
  | .clauses parts => .clauses (parts.map unwrapPart)
  | e => e

end Expression

end Matchmaking.Query
