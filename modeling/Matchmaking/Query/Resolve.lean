import Matchmaking.Decimal.Reading
import Matchmaking.Query.Clause
import Matchmaking.Query.Grammar
import Matchmaking.Text.Quoted

/-!
# From expressions to queries

Finds the fields that an expression names and turns its texts into values of these fields. A word
of the field of queries is a search for its words; a word of a property may also stand for a
number or a truth value. The first thing that is wrong is reported.
-/

namespace Matchmaking

open Query (Occur Bound Leaf Suffix Expression)

/-- Why a text is no query. -/
inductive QueryFault
  /-- The text does not follow the grammar. -/
  | unreadable (text : String)
  /-- A field that does not exist. -/
  | unknownField (name : String)
  /-- A text in place of a whole number. -/
  | badInteger (fault : Decimal.IntegerFault)
  /-- A range, a set or "any value" that needs a field. -/
  | fieldNeeded
  /-- A name inside a field that has no names. -/
  | noNames (field : Field)
  /-- The end of a range, or the value of a set, that is not one word. -/
  | notOneWord (text : String) (field : Field) (words : List String)
  /-- An open-ended phrase with fewer than two words. -/
  | tooFewWords (text : String) (splitting : String)
  /-- Nothing is searched for, something is only excluded. -/
  | onlyExcludes
  /-- "Any value" without a field, which breaks the search engine. -/
  | bareAsterisk
  deriving DecidableEq, Repr

/-- The word for what is wrong with a whole number. -/
def Decimal.IntegerFault.word : Decimal.IntegerFault → String
  | .empty => "Empty"
  | .invalidDigit => "InvalidDigit"
  | .aboveRange => "PosOverflow"
  | .belowRange => "NegOverflow"

/-- A word of a field in a message. -/
def wordNotice (f : Field) (w : String) : String :=
  "Term(field=" ++ toString f.place ++ ", type=Str, " ++ Text.quoted w ++ ")"

/-- The wording of a fault. -/
def QueryFault.message : QueryFault → String
  | .unreadable text => "Syntax Error: " ++ text
  | .unknownField name => "Field does not exist: '" ++ name ++ "'"
  | .badInteger fault =>
    "Expected a valid integer: 'ParseIntError \x7b kind: " ++ fault.word ++ " \x7d'"
  | .fieldNeeded => "Unsupported query: Range query need to target a specific field."
  | .noNames f => "Unsupported query: Json path is not supported for field " ++ Text.quoted f.name
  | .notOneWord text f words =>
    "Unsupported query: Range query boundary cannot have multiple tokens: " ++ Text.quoted text ++
      " [[" ++ ", ".intercalate (words.map (wordNotice f)) ++ "]]."
  | .tooFewWords text splitting =>
    "The phrase '" ++ Text.quoted text ++
      "' does not produce at least two terms using the tokenizer '" ++ Text.quoted splitting ++ "'"
  | .onlyExcludes => "Invalid query: Only excluding terms given"
  | .bareAsterisk => "Exist query without a field isn't allowed"

namespace Query

/-! ## Fields -/

/-- The ways to cut a name at a point that has no backslash before it. -/
def cuts : List Char → List (List Char × List Char)
  | '\\' :: c :: rest => (cuts rest).map fun (a, b) => ('\\' :: c :: a, b)
  | '.' :: rest => ([], rest) :: (cuts rest).map fun (a, b) => ('.' :: a, b)
  | c :: rest => (cuts rest).map fun (a, b) => (c :: a, b)
  | [] => []

/-- The parts of a path: cut at points without a backslash, which is dropped. -/
def segments (part : List Char) : List Char → List String
  | '\\' :: c :: rest => segments (c :: part) rest
  | '\\' :: [] => [String.ofList part.reverse]
  | '.' :: rest => String.ofList part.reverse :: segments [] rest
  | c :: rest => segments (c :: part) rest
  | [] => [String.ofList part.reverse]

/-- A name in a query: a field, and the path inside it. -/
structure Target where
  /-- The field. -/
  field : Field
  /-- The path inside the field, empty if there is none. -/
  path : String
  deriving DecidableEq, Repr

/-- The field that a name begins with: the name itself, or its longest beginning before a point. -/
def Target.ofName? (name : String) : Option Target :=
  match Field.ofName? name with
  | some f => some ⟨f, ""⟩
  | none => (cuts name.toList).reverse.findSome? fun (a, b) =>
    (Field.ofName? (String.ofList a)).map fun f => ⟨f, String.ofList b⟩

/-- The field of a name, which has to exist. -/
def target (name : String) : Except QueryFault Target :=
  match Target.ofName? name with
  | some t => .ok t
  | none => .error (.unknownField name)

/-- What separates the parts of a path in the name of a property. -/
def pathMark : String := "\x01"

/-- The place that a name leads to. Only properties have names of their own. -/
def Target.place (t : Target) : Place :=
  if t.field = .properties then ⟨t.field, pathMark.intercalate (segments [] t.path.toList)⟩
  else ⟨t.field, ""⟩

/-! ## Values -/

/-- The natural number that a text stands for. -/
def natural (s : String) : Except QueryFault Value :=
  match Decimal.readUnsigned s with
  | .ok n => .ok (.nat n)
  | .error f => .error (.badInteger f)

/-- The integer that a text stands for. -/
def integer (s : String) : Except QueryFault Value :=
  match Decimal.readSigned s with
  | .ok i => .ok (.int i)
  | .error f => .error (.badInteger f)

/-- The number or truth value that a text stands for, if it does. -/
def typed? (s : String) : Option Value :=
  match Decimal.readSigned s with
  | .ok i => some (.int i)
  | .error _ => match Decimal.readUnsigned s with
    | .ok n => some (.nat n)
    | .error _ => match Decimal.readNumber? s with
      | some x => some (.number x)
      | none => if s == "true" then some (.flag true)
        else if s == "false" then some (.flag false)
        else none

/-- The single value of a set, or of the end of a range. -/
def oneValue (t : Target) (s : String) : Except QueryFault Value :=
  if t.field != .properties && !t.path.isEmpty then .error (.noNames t.field)
  else match t.field.kind with
    | .natural => natural s
    | .integer => integer s
    | .whole => .ok (.text s)
    | .words => match Text.words s with
      | [w] => .ok (.text w.text)
      | ws => .error (.notOneWord s t.field (ws.map Text.Word.text))
    | .tree => .ok ((typed? s).getD (.text s))

/-- The end of a range. -/
def limit (t : Target) : Bound → Except QueryFault Limit
  | .unbounded => .ok .none
  | .inclusive s => (oneValue t s).map .inclusive
  | .exclusive s => (oneValue t s).map .exclusive

/-! ## Leaves -/

/-- A search for words: for one of them, or for a phrase; none for no words. -/
def wordsAtom (place : Place) (s : Suffix) : List Text.Word → Option Atom
  | [] => none
  | [w] => some (.term ⟨place, .text w.text⟩)
  | ws => some (.phrase ⟨place, ws, s.slop, s.openEnded⟩)

/-- The searches that a text stands for in a field. -/
def wordsAtoms (t : Target) (text : String) (s : Suffix) : Except QueryFault (List Atom) :=
  if t.field != .properties && !t.path.isEmpty then
    .error (.unknownField (t.field.name ++ "." ++ t.path))
  else match t.field.kind with
    | .natural => (natural text).map fun v => [.term ⟨t.place, v⟩]
    | .integer => (integer text).map fun v => [.term ⟨t.place, v⟩]
    | .whole =>
      if s.openEnded then .error (.tooFewWords text "raw")
      else .ok [.term ⟨t.place, .text text⟩]
    | .words =>
      let ws := Text.words text
      if s.openEnded && ws.length ≤ 1 then .error (.tooFewWords text "default")
      else .ok (wordsAtom t.place s ws).toList
    | .tree =>
      let value := (typed? text).map fun v => Atom.term ⟨t.place, v⟩
      .ok (value.toList ++ (wordsAtom t.place ⟨0, false⟩ (Text.words text)).toList)

/-- The query of some searches of which one is enough; a single one stands for itself. -/
def anyOf : List Atom → Query
  | [a] => .atom a
  | atoms => .clauses (atoms.map fun a => (.should, .atom a))

/-- The field of a range, a set or "any value". -/
def neededTarget : Option String → Except QueryFault Target
  | none => .error .fieldNeeded
  | some name => target name

/-- The query of a leaf; what names no field is searched in the queries of tickets. -/
def ofLeaf : Leaf → Except QueryFault Query
  | .all => .ok (.atom .all)
  | .words none text s => (wordsAtoms ⟨.query, ""⟩ text s).map anyOf
  | .words (some name) text s => do
    let t ← target name
    (wordsAtoms t text s).map anyOf
  | .range name low high => do
    let t ← neededTarget name
    let low ← limit t low
    let high ← limit t high
    pure (if low = .none ∧ high = .none then .nothing else .atom (.range t.place low high))
  | .among name values => do
    let t ← neededTarget name
    let values ← values.mapM (oneValue t)
    pure (.atom (.among (values.map fun v => ⟨t.place, v⟩)))
  | .present _ => .error .fieldNeeded

/-! ## Whole expressions -/

mutual

/-- The query of an expression, as it stands. -/
def ofExpression : Expression → Except QueryFault Query
  | .leaf l => ofLeaf l
  | .boosted e x => (ofExpression e).map fun q => .boosted q x
  | .clauses parts => (ofParts parts).map .clauses

/-- The clauses of an expression; one without a sign may match. -/
def ofParts : List (Option Occur × Expression) → Except QueryFault (List (Occur × Query))
  | [] => .ok []
  | (o, e) :: rest => do
    let q ← ofExpression e
    let qs ← ofParts rest
    pure ((o.getD .should, q) :: qs)

end

mutual

/-- Whether "any value" is asked for without a field. -/
def hasBareAsterisk : Expression → Bool
  | .leaf (.present none) => true
  | .leaf _ => false
  | .boosted e _ => hasBareAsterisk e
  | .clauses parts => anyBareAsterisk parts

/-- Whether one of some clauses asks for "any value" without a field. -/
def anyBareAsterisk : List (Option Occur × Expression) → Bool
  | [] => false
  | (_, e) :: rest => hasBareAsterisk e || anyBareAsterisk rest

end

/-- Whether a query has clauses, all of which exclude. -/
def excludesAll : Query → Bool
  | .clauses [] => false
  | q => q.onlyExcludes

/-- Reads a text as a query. -/
def parse (text : String) : Except QueryFault Query :=
  match Grammar.read? text with
  | none => .error (.unreadable text)
  | some e =>
    if hasBareAsterisk e then .error .bareAsterisk
    else do
      let q ← ofExpression e
      if q.excludesAll then throw .onlyExcludes
      pure q.simplify.trim

end Query

/-- A query together with its text (`ParsedQuery`). -/
structure ParsedQuery where
  /-- The text. -/
  text : String
  /-- What it means. -/
  query : Query

namespace ParsedQuery

/-- Reads a text as a query (`ParsedQuery::parse`). -/
def parse (text : String) : Except QueryFault ParsedQuery :=
  (Query.parse text).map fun q => ⟨text, q⟩

/-- How a parsed query is shown. -/
def describe (q : ParsedQuery) : String :=
  "ParsedQuery \x7b text: " ++ Text.quoted q.text ++ " \x7d"

end ParsedQuery

end Matchmaking
