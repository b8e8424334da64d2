import Matchmaking.Decimal.Reading
import Matchmaking.Query.Expression
import Matchmaking.Text.Blank

/-!
# The query language

Reads a query text. A reader takes the rest of the text and gives back what it read and what is
left; where several forms are possible the first one that fits is taken and never reconsidered.

    query   := gap (ast | nothing) gap
    ast     := gap (occ gap1 next+ | occ) gap
    next    := ("AND " | "OR ")? gap occ gap
    occ     := ("+" | "-")? leaf ("^" number)?
    leaf    := "(" ast ")" | "*" | "NOT" gap1 leaf | literal
    literal := field? (range | set | present | term) | field gap "(" gap ast ")"

A text that is left over makes the whole text no query.
-/

namespace Matchmaking.Query.Grammar

open Expression (Joint Part)

/-- The rest of a text. -/
abbrev Rest := List Char

/-- A reader of a part of a text. -/
abbrev Reader (α : Type) := Rest → Option (α × Rest)

/-! ## Characters -/

/-- White space between the parts of a query. -/
def isGap (c : Char) : Bool := c == ' ' || c == '\t' || c == '\r' || c == '\n'

/-- What follows white space. -/
def gap (cs : Rest) : Rest := cs.dropWhile isGap

/-- What follows white space, which has to be there. -/
def gap1 : Rest → Option Rest
  | c :: cs => if isGap c then some (gap cs) else none
  | [] => none

/-- What follows a given beginning. -/
def after? (start : String) (cs : Rest) : Option Rest :=
  let s := start.toList
  if s.isPrefixOf cs then some (cs.drop s.length) else none

/-- A character that needs a backslash in the name of a field. -/
def isReserved (c : Char) : Bool :=
  ['+', '^', '\x60', ':', '\x7b', '\x7d', '\x22', '\x27', '[', ']', '(', ')', '!', '\\', '*',
    ' '].contains c

/-- A character that needs a backslash in a word. -/
def isGuarded (c : Char) : Bool :=
  ['^', '\x60', ':', '\x7b', '\x7d', '\x22', '\x27', '[', ']', '(', ')', '\\'].contains c

/-- A character that stands for itself in a word, except that a hyphen does not begin one. -/
def isWordChar (c : Char) : Bool := !Text.isBlank c && !isGuarded c

/-- The characters that end the bound of a range. -/
def isDelimiter (c : Char) : Bool := ['\x7b', '\x7d', '\x22', '[', ']', '(', ')'].contains c

/-- A character of the bound of a range, except that a grave accent does not begin one. -/
def isBoundChar (c : Char) : Bool := !Text.isBlank c && !isDelimiter c

/-! ## Words and phrases -/

/-- Digits, at least one. -/
def digits1 (cs : Rest) : Option (List Char × Rest) :=
  let ds := cs.takeWhile Char.isDigit
  if ds.isEmpty then none else some (ds, cs.dropWhile Char.isDigit)

/-- Digits with an optional point and more digits. -/
def magnitude (cs : Rest) : Option (List Char × Rest) :=
  match digits1 cs with
  | none => none
  | some (whole, '.' :: rest) =>
    match digits1 rest with
    | some (places, rest') => some (whole ++ '.' :: places, rest')
    | none => some (whole, '.' :: rest)
  | some r => some r

/-- A number below zero. -/
def negativeNumber : Reader String
  | '-' :: rest => (magnitude rest).map fun (ds, rest) => (String.ofList ('-' :: ds), rest)
  | _ => none

/-- The text up to a closing quote; a backslash takes the next character as it is. -/
def quotedBody (quote : Char) : List Char → Reader String
  | got, '\\' :: c :: rest => quotedBody quote (c :: got) rest
  | got, c :: rest =>
    if c == quote then some (String.ofList got.reverse, rest) else quotedBody quote (c :: got) rest
  | _, [] => none

/-- A quoted text. -/
def quoted (quote : Char) : Reader String
  | c :: rest => if c == quote then quotedBody quote [] rest else none
  | [] => none

/-- The characters of a word after the first one, as they are written. -/
def wordTail : Rest → List Char × Rest
  | '\\' :: c :: rest =>
    let (got, rest) := wordTail rest
    ('\\' :: c :: got, rest)
  | c :: rest =>
    if isWordChar c then
      let (got, rest) := wordTail rest
      (c :: got, rest)
    else ([], c :: rest)
  | [] => ([], [])

/-- A word without the backslashes that it needs; a backslash before another character is kept. -/
def unescape : List Char → List Char
  | '\\' :: c :: rest =>
    if Text.isBlank c || isGuarded c || c == '-' then c :: unescape rest
    else '\\' :: c :: unescape rest
  | '\\' :: [] => []
  | c :: rest => c :: unescape rest
  | [] => []

/-- The words that join or negate, which are no words of their own. -/
def keywords : List String := ["OR", "AND", "NOT", "IN"]

/-- A word. -/
def word (cs : Rest) : Option (String × Rest) :=
  let start : Option (List Char × Rest) := match cs with
    | '\\' :: c :: rest => some (['\\', c], rest)
    | c :: rest => if isWordChar c && c != '-' then some ([c], rest) else none
    | [] => none
  match start with
  | none => none
  | some (first, rest) =>
    let (tail, rest) := wordTail rest
    let written := first ++ tail
    if keywords.contains (String.ofList written) then none
    else some (String.ofList (unescape written), rest)

/-- A word, a quoted text or a number below zero. -/
def simple (cs : Rest) : Option (String × Rest) :=
  (((negativeNumber cs).or (quoted '\'' cs)).or (quoted '\x22' cs)).or (word cs)

/-- What may follow a word or phrase. -/
def suffix (cs : Rest) : Suffix × Rest :=
  match cs with
  | '*' :: rest => (⟨0, true⟩, rest)
  | '~' :: rest =>
    match digits1 rest with
    | some (ds, rest') =>
      let n := Decimal.digitsValue ds
      if n < Nat.pow 2 32 then (⟨n, false⟩, rest') else (⟨0, false⟩, cs)
    | none => (⟨0, false⟩, cs)
  | _ => (⟨0, false⟩, cs)

/-- A word or phrase and what follows it. -/
def term (field : Option String) (cs : Rest) : Option (Leaf × Rest) :=
  (simple cs).map fun (text, rest) =>
    let (s, rest) := suffix rest
    (.words field text s, rest)

/-! ## Fields, ranges and sets -/

/-- The characters of a field's name after the first one. -/
def nameTail : Rest → List Char × Rest
  | '\\' :: c :: rest =>
    if isReserved c then
      let (got, rest) := nameTail rest
      (c :: got, rest)
    else
      let (got, rest) := nameTail rest
      ('\\' :: c :: got, rest)
  | '\\' :: [] => (['\\'], [])
  | c :: rest =>
    if isReserved c then ([], c :: rest)
    else
      let (got, rest) := nameTail rest
      (c :: got, rest)
  | [] => ([], [])

/-- The name of a field with its colon. -/
def field (cs : Rest) : Option (String × Rest) :=
  let start : Option (Char × Rest) := match cs with
    | '\\' :: c :: rest => if isReserved c then some (c, rest) else none
    | c :: rest => if !isReserved c && c != '-' then some (c, rest) else none
    | [] => none
  match start with
  | none => none
  | some (first, rest) =>
    let (tail, rest) := nameTail rest
    match gap rest with
    | ':' :: rest => some (String.ofList (first :: tail), gap rest)
    | _ => none

/-- The value at the end of a range. -/
def boundValue (cs : Rest) : Option (String × Rest) :=
  (negativeNumber cs).or <|
    let value := cs.takeWhile isBoundChar
    match value with
    | [] => none
    | c :: _ => if c == '\x60' then none else some (String.ofList value, cs.dropWhile isBoundChar)

/-- The end of a range with a given value; an asterisk is no end. -/
def Bound.of (inclusive : Bool) (value : String) : Bound :=
  if value == "*" then .unbounded else if inclusive then .inclusive value else .exclusive value

/-- A range with one end. -/
def comparison (field : Option String) (cs : Rest) : Option (Leaf × Rest) := do
  let cs := gap cs
  let (inclusive, below, rest) ←
    ((((after? ">=" cs).map fun r => (true, false, r)).or
      ((after? "<=" cs).map fun r => (true, true, r))).or
      ((after? "<" cs).map fun r => (false, true, r))).or
      ((after? ">" cs).map fun r => (false, false, r))
  let (value, rest) ← boundValue (gap rest)
  let bound := Bound.of inclusive value
  pure (if below then .range field .unbounded bound else .range field bound .unbounded, rest)

/-- A range with two ends. -/
def interval (field : Option String) (cs : Rest) : Option (Leaf × Rest) := do
  let (lowInclusive, rest) ← match cs with
    | '[' :: rest => some (true, rest)
    | '\x7b' :: rest => some (false, rest)
    | _ => none
  let (low, rest) ← boundValue (gap rest)
  let rest ← gap1 rest
  let rest ← after? "TO" rest
  let rest ← gap1 rest
  let (high, rest) ← boundValue rest
  let (highInclusive, rest) ← match gap rest with
    | ']' :: rest => some (true, rest)
    | '\x7d' :: rest => some (false, rest)
    | _ => none
  pure (.range field (Bound.of lowInclusive low) (Bound.of highInclusive high), rest)

/-- The values of a set after the first one. -/
def moreValues : Nat → Rest → List String × Rest
  | 0, cs => ([], cs)
  | fuel + 1, cs =>
    match (gap1 cs).bind simple with
    | some (value, rest) =>
      let (values, rest) := moreValues fuel rest
      (value :: values, rest)
    | none => ([], cs)

/-- A set of values. -/
def set (field : Option String) (cs : Rest) : Option (Leaf × Rest) := do
  let rest ← after? "IN" (gap cs)
  let rest ← gap1 rest
  let rest ← after? "[" rest
  let rest := gap rest
  let (values, rest) := match simple rest with
    | some (value, rest) =>
      let (values, rest) := moreValues rest.length rest
      (value :: values, rest)
    | none => ([], rest)
  let rest ← after? "]" rest
  pure (.among field values, rest)

/-- An asterisk in place of a value, with nothing after it that could belong to a word. -/
def present (field : Option String) (cs : Rest) : Option (Leaf × Rest) :=
  match gap cs with
  | '*' :: rest =>
    match rest with
    | [] => some (.present field, [])
    | c :: _ => if Text.isBlank c || isGuarded c then some (.present field, rest) else none
  | _ => none

/-- A literal that is no group. -/
def plain (field : Option String) (cs : Rest) : Option (Leaf × Rest) :=
  ((((comparison field cs).or (interval field cs)).or (set field cs)).or (present field cs)).or
    (term field cs)

/-! ## Signs, joints and groups -/

/-- A sign, if there is one. -/
def sign : Rest → Option Occur × Rest
  | '+' :: rest => (some .must, rest)
  | '-' :: rest => (some .mustNot, rest)
  | rest => (none, rest)

/-- Factors this near to one make no difference. -/
def smallest : Float := 2.220446049250313e-16

/-- A factor, if there is one, applied to a query; a factor of one changes nothing. -/
def boost (e : Expression) (cs : Rest) : Expression × Rest :=
  match cs with
  | '^' :: rest =>
    match magnitude rest with
    | some (ds, rest') =>
      let x := (Decimal.readMagnitude ds).getD 1
      (if (x - 1).abs > smallest then .boosted e (Number.ofFloat x) else e, rest')
    | none => (e, cs)
  | _ => (e, cs)

/-- A word that joins, if there is one. -/
def joint (cs : Rest) : Option Joint × Rest :=
  match after? "AND " cs with
  | some rest => (some .and, rest)
  | none => match after? "OR " cs with
    | some rest => (some .or, rest)
    | none => (none, cs)

mutual

/-- A query up to something that cannot belong to it. -/
def ast : Nat → Reader Expression
  | 0, _ => none
  | fuel + 1, cs =>
    match occ fuel (gap cs) with
    | none => none
    | some ((s, e), rest) =>
      let more := match gap1 rest with
        | some rest => parts fuel rest
        | none => ([], rest)
      match more with
      | ([], _) => some (Expression.single s e, gap rest)
      | (ps, rest) => some (Expression.join (⟨none, s, e⟩ :: ps), gap rest)

/-- The parts after the first one. -/
def parts : Nat → Rest → List Part × Rest
  | 0, cs => ([], cs)
  | fuel + 1, cs =>
    let (j, rest) := joint cs
    match occ fuel (gap rest) with
    | none => ([], cs)
    | some ((s, e), rest) =>
      let (ps, rest) := parts fuel (gap rest)
      (⟨j, s, e⟩ :: ps, rest)

/-- A leaf with its sign and its factor. -/
def occ : Nat → Reader (Option Occur × Expression)
  | 0, _ => none
  | fuel + 1, cs =>
    let (s, rest) := sign cs
    match leaf fuel rest with
    | none => none
    | some (e, rest) =>
      let (e, rest) := boost e rest
      some ((s, e), rest)

/-- A query without sign and without joining words. -/
def leaf : Nat → Reader Expression
  | 0, _ => none
  | fuel + 1, cs =>
    match bracketed fuel cs with
    | some r => some r
    | none => match cs with
      | '*' :: rest => some (.leaf .all, rest)
      | _ => match negated fuel cs with
        | some r => some r
        | none => literal fuel cs

/-- A query in brackets. -/
def bracketed : Nat → Reader Expression
  | 0, _ => none
  | fuel + 1, cs =>
    match cs with
    | '(' :: rest =>
      match ast fuel rest with
      | some (e, ')' :: rest) => some (e, rest)
      | _ => none
    | _ => none

/-- The opposite of a query. -/
def negated : Nat → Reader Expression
  | 0, _ => none
  | fuel + 1, cs =>
    match (after? "NOT" cs).bind gap1 with
    | some rest => (leaf fuel rest).map fun (e, rest) => (e.negate, rest)
    | none => none

/-- A literal, or a group for a field. -/
def literal : Nat → Reader Expression
  | 0, _ => none
  | fuel + 1, cs =>
    match field cs with
    | none => (plain none cs).map fun (l, rest) => (.leaf l, rest)
    | some (name, rest) =>
      match plain (some name) rest with
      | some (l, rest) => some (.leaf l, rest)
      | none => match bracketed fuel (gap rest) with
        | some (e, rest) => some (e.within name, rest)
        | none => none

end

/-- Reads a whole text. -/
def read? (s : String) : Option Expression :=
  let cs := gap s.toList
  if cs.isEmpty then some .nothing
  else match ast (8 * cs.length + 8) cs with
    | some (e, rest) => if (gap rest).isEmpty then some e.unwrap else none
    | none => none

end Matchmaking.Query.Grammar
