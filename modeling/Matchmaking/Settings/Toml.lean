import Matchmaking.Json.Value
import Matchmaking.Decimal.Reading

/-!
# TOML files

Reads a TOML document into an object. A line is a header or a key with its value. A table may be
opened by one header only, a key may be given once, and what was given in one piece (a plain
value, an array, an inline table) cannot be extended afterwards. Dates and times become their
texts.
-/

namespace Matchmaking.Toml

/-! ## Characters -/

/-- A blank or a tab. -/
def isGap (c : Char) : Bool := c == ' ' || c == '\t'

/-- What follows blanks and tabs. -/
def skipGap (cs : List Char) : List Char := cs.dropWhile isGap

/-- A character that a comment or a string may hold as it is. -/
def isPlain (c : Char) : Bool := c == '\t' || (0x20 ≤ c.toNat && c.toNat != 0x7f)

/-- A character of a bare key. -/
def isBare (c : Char) : Bool := c.isAlphanum || c == '-' || c == '_'

/-- A line break. -/
def newline? : List Char → Option (List Char)
  | '\n' :: rest => some rest
  | '\r' :: '\n' :: rest => some rest
  | _ => none

/-- What follows blanks and an optional comment on the same line. -/
def skipComment (cs : List Char) : List Char :=
  match skipGap cs with
  | '#' :: rest => rest.dropWhile isPlain
  | rest => rest

/-- The end of a line: the end of the text, or a line break. -/
def endOfLine? (cs : List Char) : Option (List Char) :=
  match skipComment cs with
  | [] => some []
  | rest => newline? rest

/-- What follows blanks, comments and line breaks. -/
def skipLines : Nat → List Char → List Char
  | 0, cs => cs
  | fuel + 1, cs =>
    let rest := skipComment cs
    match newline? rest with
    | some rest => skipLines fuel rest
    | none => rest

/-! ## Strings -/

/-- The value of a hexadecimal digit. -/
def hexValue? (c : Char) : Option Nat :=
  if c.isDigit then some (c.toNat - '0'.toNat)
  else if 'a' ≤ c && c ≤ 'f' then some (c.toNat - 'a'.toNat + 10)
  else if 'A' ≤ c && c ≤ 'F' then some (c.toNat - 'A'.toNat + 10)
  else none

/-- A character given by some hexadecimal digits. -/
def codePoint? (width : Nat) (cs : List Char) : Option (Char × List Char) :=
  let digits := cs.take width
  if digits.length < width then none
  else match digits.mapM hexValue? with
    | none => none
    | some values =>
      let n := values.foldl (fun n v => 16 * n + v) 0
      if n.isValidChar then some (Char.ofNat n, cs.drop width) else none

/-- The character of an escape, after its backslash. -/
def escape? : List Char → Option (Char × List Char)
  | 'b' :: rest => some ('\x08', rest)
  | 't' :: rest => some ('\t', rest)
  | 'n' :: rest => some ('\n', rest)
  | 'f' :: rest => some ('\x0c', rest)
  | 'r' :: rest => some ('\r', rest)
  | '\x22' :: rest => some ('\x22', rest)
  | '\\' :: rest => some ('\\', rest)
  | 'u' :: rest => codePoint? 4 rest
  | 'U' :: rest => codePoint? 8 rest
  | _ => none

/-- A string on one line, up to its closing quote; with escapes or without. -/
def shortString? (quote : Char) (escapes : Bool) :
    Nat → List Char → List Char → Option (String × List Char)
  | 0, _, _ => none
  | _ + 1, _, [] => none
  | fuel + 1, got, c :: rest =>
    if c == quote then some (String.ofList got.reverse, rest)
    else if escapes && c == '\\' then
      match escape? rest with
      | some (d, rest) => shortString? quote escapes fuel (d :: got) rest
      | none => none
    else if isPlain c then shortString? quote escapes fuel (c :: got) rest
    else none

/-- A backslash at the end of a line: what follows all white space, if there is a line break. -/
def continued? (cs : List Char) : Option (List Char) :=
  match newline? (skipGap cs) with
  | some rest => some (rest.dropWhile fun c => isGap c || c == '\n' || c == '\r')
  | none => none

/-- A string of several lines, up to three closing quotes; up to two more quotes belong to it. -/
def longString? (quote : Char) (escapes : Bool) :
    Nat → List Char → List Char → Option (String × List Char)
  | 0, _, _ => none
  | _ + 1, _, [] => none
  | fuel + 1, got, c :: rest =>
    let quotes := ((c :: rest).takeWhile (· == quote)).length
    if 3 ≤ quotes then
      let extra := min (quotes - 3) 2
      some (String.ofList (got.reverse ++ List.replicate extra quote), (c :: rest).drop (3 + extra))
    else if escapes && c == '\\' then
      match continued? rest with
      | some rest => longString? quote escapes fuel got rest
      | none => match escape? rest with
        | some (d, rest) => longString? quote escapes fuel (d :: got) rest
        | none => none
    else match newline? (c :: rest) with
      | some rest => longString? quote escapes fuel ('\n' :: got) rest
      | none => if isPlain c then longString? quote escapes fuel (c :: got) rest else none

/-- The text after a line break that directly follows the opening quotes. -/
def trimFirstBreak (cs : List Char) : List Char := (newline? cs).getD cs

/-- A string of any of the four kinds. -/
def string? (cs : List Char) : Option (String × List Char) :=
  let fuel := cs.length + 1
  match cs with
  | '\x22' :: '\x22' :: '\x22' :: rest => longString? '\x22' true fuel [] (trimFirstBreak rest)
  | '\'' :: '\'' :: '\'' :: rest => longString? '\'' false fuel [] (trimFirstBreak rest)
  | '\x22' :: rest => shortString? '\x22' true fuel [] rest
  | '\'' :: rest => shortString? '\'' false fuel [] rest
  | _ => none

/-! ## Keys -/

/-- One part of a key: bare, or a string on one line. -/
def simpleKey? (cs : List Char) : Option (String × List Char) :=
  let fuel := cs.length + 1
  match cs with
  | '\x22' :: rest => shortString? '\x22' true fuel [] rest
  | '\'' :: rest => shortString? '\'' false fuel [] rest
  | _ =>
    let name := cs.takeWhile isBare
    if name.isEmpty then none else some (String.ofList name, cs.dropWhile isBare)

/-- A key: its parts, separated by points. -/
def key? : Nat → List Char → Option (List String × List Char)
  | 0, _ => none
  | fuel + 1, cs =>
    match simpleKey? (skipGap cs) with
    | none => none
    | some (name, rest) =>
      match skipGap rest with
      | '.' :: rest => (key? fuel rest).map fun (names, rest) => (name :: names, rest)
      | rest => some ([name], rest)

/-! ## Plain values -/

/-- A number without the underscores between two of its digits; nothing if one stands elsewhere. -/
def ungroup? (isDigit : Char → Bool) : List Char → Option (List Char)
  | [] => some []
  | [c] => if c == '_' then none else some [c]
  | c :: '_' :: rest =>
    if isDigit c && rest.head?.any isDigit then (ungroup? isDigit rest).map (c :: ·) else none
  | c :: rest => if c == '_' then none else (ungroup? isDigit rest).map (c :: ·)

/-- A whole number in base 2, 8 or 16. -/
def based? (base : Nat) (cs : List Char) : Option Json := do
  let digits ← ungroup? (fun c => (hexValue? c).isSome) cs
  if digits.isEmpty then none
  let values ← digits.mapM hexValue?
  if values.any (base ≤ ·) then none
  let n := values.foldl (fun n v => base * n + v) 0
  if n < Nat.pow 2 63 then some (.int n) else none

/-- No leading zero before another digit. -/
def wellBegun : List Char → Bool
  | ['0'] => true
  | '0' :: _ => false
  | [] => false
  | _ => true

/-- A whole number in base 10. -/
def whole? (negative : Bool) (digits : List Char) : Option Json :=
  if wellBegun digits && digits.all Char.isDigit then
    let n := Decimal.digitsValue digits
    if negative then (if n ≤ Nat.pow 2 63 then some (.int (-(n : Int))) else none)
    else if n < Nat.pow 2 63 then some (.int n) else none
  else none

/-- A number with a point or a power of ten. -/
def fractional? (negative : Bool) (cs : List Char) : Option Json :=
  let whole := cs.takeWhile Char.isDigit
  let rest := cs.dropWhile Char.isDigit
  let (fraction, tail) := match rest with
    | '.' :: ds => (ds.takeWhile Char.isDigit, ds.dropWhile Char.isDigit)
    | ds => (['0'], ds)
  if !wellBegun whole || fraction.isEmpty then none
  else match Decimal.readNumber? (String.ofList cs), Decimal.readPower tail with
    | some x, some _ =>
      if x.isFinite then some (.real (if negative then .ofFloat (-x.toFloat) else x)) else none
    | _, _ => none

/-- A number. -/
def number? (cs : List Char) : Option Json :=
  match cs with
  | '0' :: 'x' :: rest => based? 16 rest
  | '0' :: 'o' :: rest => based? 8 rest
  | '0' :: 'b' :: rest => based? 2 rest
  | _ =>
    let (negative, rest) := match cs with
      | '-' :: rest => (true, rest)
      | '+' :: rest => (false, rest)
      | rest => (false, rest)
    if rest == "inf".toList then some (.real (.ofFloat (if negative then -1 / 0 else 1 / 0)))
    else if rest == "nan".toList then some (.real (.ofFloat (0 / 0)))
    else match ungroup? Char.isDigit rest with
      | none => none
      | some digits => (whole? negative digits).orElse fun _ => fractional? negative digits

/-- Some digits of a given number, within bounds. -/
def field? (width low high : Nat) (cs : List Char) : Option (List Char) :=
  let digits := cs.take width
  let n := Decimal.digitsValue digits
  if digits.length = width && digits.all Char.isDigit && low ≤ n && n ≤ high then
    some (cs.drop width)
  else none

/-- A given character. -/
def mark? (c : Char) : List Char → Option (List Char)
  | d :: rest => if c == d then some rest else none
  | [] => none

/-- A date; what follows it. -/
def day? (cs : List Char) : Option (List Char) := do
  let cs ← field? 4 0 9999 cs
  let cs ← mark? '-' cs
  let cs ← field? 2 1 12 cs
  let cs ← mark? '-' cs
  field? 2 1 31 cs

/-- A time of day; what follows it. -/
def clock? (cs : List Char) : Option (List Char) := do
  let cs ← field? 2 0 23 cs
  let cs ← mark? ':' cs
  let cs ← field? 2 0 59 cs
  let cs ← mark? ':' cs
  let cs ← field? 2 0 60 cs
  match cs with
  | '.' :: rest =>
    if (rest.takeWhile Char.isDigit).isEmpty then none else some (rest.dropWhile Char.isDigit)
  | _ => some cs

/-- A distance to universal time; what follows it. -/
def offset? : List Char → Option (List Char)
  | [] => some []
  | c :: rest =>
    if c == 'Z' || c == 'z' then some rest
    else if c == '+' || c == '-' then do
      let cs ← field? 2 0 23 rest
      let cs ← mark? ':' cs
      field? 2 0 59 cs
    else some (c :: rest)

/-- A date, a time or both; what follows it. -/
def moment? (cs : List Char) : Option (List Char) :=
  match day? cs with
  | some [] => some []
  | some (c :: rest) =>
    if c == 'T' || c == 't' || c == ' ' then (clock? rest).bind offset? else some (c :: rest)
  | none => clock? cs

/-- The normal text of a date or time. -/
def momentText (cs : List Char) : String :=
  String.ofList (cs.map fun c => if c == 't' || c == ' ' then 'T' else c.toUpper)

/-- A character of a plain value. -/
def isScalar (c : Char) : Bool := isBare c || c == '+' || c == '.' || c == ':'

/-- A value without brackets or quotes. -/
def scalar? (cs : List Char) : Option (Json × List Char) :=
  match moment? cs with
  | some rest => some (.text (momentText (cs.take (cs.length - rest.length))), rest)
  | none =>
    let word := cs.takeWhile isScalar
    let rest := cs.dropWhile isScalar
    if word == "true".toList then some (.bool true, rest)
    else if word == "false".toList then some (.bool false, rest)
    else (number? word).map fun j => (j, rest)

/-! ## Tables -/

/-- How a table came to be. -/
inductive Origin
  /-- It was passed through by a header. -/
  | passed
  /-- It was opened by a header of its own. -/
  | opened
  /-- It was passed through by the key of a value. -/
  | dotted
  deriving DecidableEq, Repr

/-- What a key leads to while a document is read. -/
inductive Node
  /-- A value in one piece. -/
  | whole (j : Json)
  /-- A table. -/
  | table (origin : Origin) (fields : List (String × Node))
  /-- An array of tables; the last one is open. -/
  | rows (tables : List (List (String × Node)))
  deriving Inhabited

mutual

/-- The JSON value of a node. -/
def Node.json : Node → Json
  | .whole j => j
  | .table _ fields => .record (fieldsJson fields)
  | .rows tables => .list (rowsJson tables)

/-- The JSON values of some fields. -/
def fieldsJson : List (String × Node) → List (String × Json)
  | [] => []
  | (name, n) :: rest => (name, n.json) :: fieldsJson rest

/-- The JSON values of some tables. -/
def rowsJson : List (List (String × Node)) → List Json
  | [] => []
  | fields :: rest => .record (fieldsJson fields) :: rowsJson rest

end

/-- The fields of a table while a document is read. -/
abbrev Fields := List (String × Node)

/-- Puts a node under a key, in place of an earlier one. -/
def Fields.put (name : String) (n : Node) : Fields → Fields
  | [] => [(name, n)]
  | (name', n') :: rest =>
    if name' == name then (name, n) :: rest else (name', n') :: put name n rest

/-- Stores a value under a key with several parts. Only tables that were passed through may be
extended. -/
def store (j : Json) : List String → Fields → Option Fields
  | [], _ => none
  | [name], fields =>
    if (fields.lookup name).isSome then none else some (Fields.put name (.whole j) fields)
  | name :: path, fields =>
    match fields.lookup name with
    | none => (store j path []).map fun inner => Fields.put name (.table .dotted inner) fields
    | some (.table .opened _) => none
    | some (.table origin inner) =>
      (store j path inner).map fun inner => Fields.put name (.table origin inner) fields
    | some _ => none

/-- Opens the table of a header. -/
def openTable : List String → Fields → Option Fields
  | [], _ => none
  | [name], fields =>
    match fields.lookup name with
    | none => some (Fields.put name (.table .opened []) fields)
    | some (.table .passed inner) => some (Fields.put name (.table .opened inner) fields)
    | some _ => none
  | name :: path, fields =>
    match fields.lookup name with
    | none => (openTable path []).map fun inner => Fields.put name (.table .passed inner) fields
    | some (.table origin inner) =>
      (openTable path inner).map fun inner => Fields.put name (.table origin inner) fields
    | some (.rows tables) =>
      (openTable path (tables.getLast?.getD [])).map fun inner =>
        Fields.put name (.rows (tables.dropLast ++ [inner])) fields
    | some (.whole _) => none

/-- Opens one more table of an array of tables. -/
def openRow : List String → Fields → Option Fields
  | [], _ => none
  | [name], fields =>
    match fields.lookup name with
    | none => some (Fields.put name (.rows [[]]) fields)
    | some (.rows tables) => some (Fields.put name (.rows (tables ++ [[]])) fields)
    | some _ => none
  | name :: path, fields =>
    match fields.lookup name with
    | none => (openRow path []).map fun inner => Fields.put name (.table .passed inner) fields
    | some (.table origin inner) =>
      (openRow path inner).map fun inner => Fields.put name (.table origin inner) fields
    | some (.rows tables) =>
      (openRow path (tables.getLast?.getD [])).map fun inner =>
        Fields.put name (.rows (tables.dropLast ++ [inner])) fields
    | some (.whole _) => none

/-- Stores a value inside the table that the last header opened. -/
def storeAt (path : List String) (j : Json) : List String → Fields → Option Fields
  | [], fields => store j path fields
  | name :: header, fields =>
    match fields.lookup name with
    | some (.table origin inner) =>
      (storeAt path j header inner).map fun inner => Fields.put name (.table origin inner) fields
    | some (.rows tables) =>
      (storeAt path j header (tables.getLast?.getD [])).map fun inner =>
        Fields.put name (.rows (tables.dropLast ++ [inner])) fields
    | _ => none

/-! ## Values and documents -/

mutual

/-- A value. -/
def value? : Nat → List Char → Option (Json × List Char)
  | 0, _ => none
  | fuel + 1, cs =>
    match cs with
    | '[' :: rest => (items? fuel rest).map fun (items, rest) => (.list items, rest)
    | '\x7b' :: rest =>
      match skipGap rest with
      | '\x7d' :: rest => some (.record [], rest)
      | rest => (inline? fuel [] rest).map fun (fields, rest) => (.record (fieldsJson fields), rest)
    | c :: _ =>
      if c == '\x22' || c == '\'' then (string? cs).map fun (s, rest) => (.text s, rest)
      else scalar? cs
    | [] => none

/-- The items of an array up to its closing bracket. -/
def items? : Nat → List Char → Option (List Json × List Char)
  | 0, _ => none
  | fuel + 1, cs =>
    match skipLines cs.length cs with
    | ']' :: rest => some ([], rest)
    | cs =>
      match value? fuel cs with
      | none => none
      | some (j, rest) =>
        match skipLines rest.length rest with
        | ',' :: rest => (items? fuel rest).map fun (items, rest) => (j :: items, rest)
        | ']' :: rest => some ([j], rest)
        | _ => none

/-- The fields of an inline table up to its closing brace. -/
def inline? : Nat → Fields → List Char → Option (Fields × List Char)
  | 0, _, _ => none
  | fuel + 1, fields, cs =>
    match key? (cs.length + 1) cs with
    | some (path, '=' :: rest) =>
      match value? fuel (skipGap rest) with
      | none => none
      | some (j, rest) =>
        match store j path fields with
        | none => none
        | some fields =>
          match skipGap rest with
          | ',' :: rest => inline? fuel fields rest
          | '\x7d' :: rest => some (fields, rest)
          | _ => none
    | _ => none

end

/-- Reads the lines of a document below the last header. -/
def lines? : Nat → List String → Fields → List Char → Option Fields
  | 0, _, _, _ => none
  | fuel + 1, header, fields, cs =>
    match skipLines cs.length cs with
    | [] => some fields
    | '[' :: '[' :: rest =>
      match key? (rest.length + 1) rest with
      | some (path, ']' :: ']' :: rest) =>
        match openRow path fields, endOfLine? rest with
        | some fields, some rest => lines? fuel path fields rest
        | _, _ => none
      | _ => none
    | '[' :: rest =>
      match key? (rest.length + 1) rest with
      | some (path, ']' :: rest) =>
        match openTable path fields, endOfLine? rest with
        | some fields, some rest => lines? fuel path fields rest
        | _, _ => none
      | _ => none
    | cs =>
      match key? (cs.length + 1) cs with
      | some (path, '=' :: rest) =>
        match value? (rest.length + 1) (skipGap rest) with
        | none => none
        | some (j, rest) =>
          match storeAt path j header fields, endOfLine? rest with
          | some fields, some rest => lines? fuel header fields rest
          | _, _ => none
      | _ => none

/-- Reads a document. -/
def read? (s : String) : Option Json :=
  let cs := s.toList
  (lines? (cs.length + 1) [] [] cs).map fun fields => .record (fieldsJson fields)

end Matchmaking.Toml
