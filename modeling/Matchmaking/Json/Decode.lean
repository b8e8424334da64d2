import Matchmaking.Json.Reader
import Matchmaking.Decimal.Shortest
import Matchmaking.Text.Quoted
import Matchmaking.Calendar

/-!
# Decoding JSON

A decoder turns a JSON value into a value of the domain or says what is the first thing wrong with
it. Objects are read field by field in the order in which they stand: an unknown field is passed
over, a repeated one is refused, and only when all fields have been seen is a missing one noticed.
An object may also be written as an array of its fields in their declared order.
-/

namespace Matchmaking.Json

/-- What a decoder came upon. -/
inductive Found
  /-- Null. -/
  | null
  /-- A truth value. -/
  | bool (b : Bool)
  /-- A whole number. -/
  | int (i : Int)
  /-- Any other number. -/
  | real (x : Number)
  /-- A string. -/
  | text (s : String)
  /-- An array. -/
  | list
  /-- An object. -/
  | record
  /-- The name of an alternative without its content. -/
  | bare
  deriving DecidableEq, Repr

/-- The words for what a decoder came upon. -/
def Found.words : Found → String
  | .null => "null"
  | .bool b => "boolean `" ++ (if b then "true" else "false") ++ "`"
  | .int i => "integer `" ++ toString i ++ "`"
  | .real x => "floating point `" ++ Decimal.brief x ++ "`"
  | .text s => "string " ++ Text.quoted s
  | .list => "sequence"
  | .record => "map"
  | .bare => "unit variant"

/-- What a value looks like to a decoder; a text that breaks off looks like nothing. -/
def found? : Json → Option Found
  | .null => some .null
  | .bool b => some (.bool b)
  | .int i => some (.int i)
  | .real x => some (.real x)
  | .text s => some (.text s)
  | .list _ => some .list
  | .record _ => some .record
  | .cut => none

/-- Why a value does not decode. -/
inductive Mismatch
  /-- The text is no JSON. -/
  | notJson
  /-- A value of another kind. -/
  | invalidType (found : Found) (expected : String)
  /-- A value of the right kind that is not allowed. -/
  | invalidValue (found : Found) (expected : String)
  /-- An array of the wrong length. -/
  | invalidLength (length : Nat) (expected : String)
  /-- A field without default is missing. -/
  | missingField (name : String)
  /-- A field is given twice. -/
  | duplicateField (name : String)
  /-- The name of no alternative. -/
  | unknownVariant (name : String) (known : List String)
  /-- A number of milliseconds outside the calendar. -/
  | noInstant (millis : Int)
  /-- A text that is no date. -/
  | noDate (fault : Calendar.DateFault)
  deriving DecidableEq, Repr

/-- The names of alternatives, as a message lists them. -/
def expectedNames : List String → String
  | [] => "there are no variants"
  | [a] => "expected `" ++ a ++ "`"
  | [a, b] => "expected `" ++ a ++ "` or `" ++ b ++ "`"
  | l => "expected one of " ++ ", ".intercalate (l.map fun a => "`" ++ a ++ "`")

/-- The wording of a mismatch. -/
def Mismatch.message : Mismatch → String
  | .notJson => "not JSON"
  | .invalidType f e => "invalid type: " ++ f.words ++ ", expected " ++ e
  | .invalidValue f e => "invalid value: " ++ f.words ++ ", expected " ++ e
  | .invalidLength n e => "invalid length " ++ toString n ++ ", expected " ++ e
  | .missingField n => "missing field `" ++ n ++ "`"
  | .duplicateField n => "duplicate field `" ++ n ++ "`"
  | .unknownVariant n known => "unknown variant `" ++ n ++ "`, " ++ expectedNames known
  | .noInstant ms => "value is not a legal timestamp: " ++ toString ms
  | .noDate fault => fault.message

/-- Where a value comes from. In a text, what follows the last expected item of an array counts as
text that is no JSON; in a value that is already at hand it is an array of the wrong length. -/
inductive Origin
  /-- A text that is being read. -/
  | text
  /-- A value at hand. -/
  | value
  deriving DecidableEq, Repr

/-- A decoder of values of a type. -/
abbrev Decoder (α : Type) := Origin → Json → Except Mismatch α

/-- The mismatch with a value of another kind. -/
def mismatch (expected : String) (j : Json) : Mismatch :=
  match j.found? with
  | some f => .invalidType f expected
  | none => .notJson

/-! ## Plain values -/

/-- A string. -/
def string : Decoder String := fun _ j =>
  match j with
  | .text s => .ok s
  | j => .error (mismatch "a string" j)

/-- A truth value. -/
def boolean : Decoder Bool := fun _ j =>
  match j with
  | .bool b => .ok b
  | j => .error (mismatch "a boolean" j)

/-- A natural number below a bound, under the name of its type. -/
def natural (bound : Nat) (type : String) : Decoder Nat := fun _ j =>
  match j with
  | .int i => if 0 ≤ i ∧ i < bound then .ok i.toNat else .error (.invalidValue (.int i) type)
  | j => .error (mismatch type j)

/-- A count: a natural number of 64 bits. -/
def count : Decoder Nat := natural (Nat.pow 2 64) "usize"

/-- A natural number of 64 bits. -/
def word : Decoder Nat := natural (Nat.pow 2 64) "u64"

/-- A natural number of 32 bits. -/
def halfWord : Decoder Nat := natural (Nat.pow 2 32) "u32"

/-- A number in double precision; a whole number is converted. -/
def number : Decoder Number := fun _ j =>
  match j with
  | .int i => .ok (Number.ofInt i)
  | .real x => .ok x
  | j => .error (mismatch "f64" j)

/-- An instant as its whole milliseconds. -/
def millis : Decoder Instant := fun _ j =>
  match j with
  | .int i =>
    if Instant.minMillis ≤ i ∧ i ≤ Instant.maxMillis then .ok (Instant.ofMillis i)
    else .error (.noInstant i)
  | j => .error (mismatch "a unix timestamp in milliseconds" j)

/-- An instant in its written form. -/
def date : Decoder Instant := fun _ j =>
  match j with
  | .text s => match Calendar.read s with
    | .ok t => .ok t
    | .error fault => .error (.noDate fault)
  | j => .error (mismatch "an RFC 3339 formatted date and time string" j)

/-! ## Options, arrays and maps -/

/-- Null or a value. -/
def optional {α : Type} (d : Decoder α) : Decoder (Option α) := fun o j =>
  match j with
  | .null => .ok none
  | j => (d o j).map some

/-- Decodes the items of an array one after the other. -/
def decodeAll {α : Type} (d : Decoder α) (o : Origin) : List Json → Except Mismatch (List α)
  | [] => .ok []
  | j :: rest => do
    let x ← d o j
    let xs ← decodeAll d o rest
    pure (x :: xs)

/-- An array. -/
def listOf {α : Type} (d : Decoder α) : Decoder (List α) := fun o j =>
  match j with
  | .list items => decodeAll d o items
  | j => .error (mismatch "a sequence" j)

/-- Decodes the fields of an object one after the other. -/
def decodeFields {α : Type} (d : Decoder α) (o : Origin) :
    List (String × Json) → Except Mismatch (List (String × α))
  | [] => .ok []
  | (name, j) :: rest => do
    let x ← d o j
    let xs ← decodeFields d o rest
    pure ((name, x) :: xs)

/-- An object as a table; of a repeated name the last value counts. -/
def tableOf {α : Type} (d : Decoder α) : Decoder (Table α) := fun o j =>
  match j with
  | .record fields => (decodeFields d o fields).map Table.ofList
  | j => .error (mismatch "a map" j)

/-! ## Objects with known fields -/

/-- A field of an object. -/
structure Slot where
  /-- The name of the field. -/
  name : String
  /-- Judges the value of the field. -/
  check : Origin → Json → Except Mismatch Unit
  /-- Whether an object has to have the field. -/
  required : Bool
  /-- Whether an array in place of the object has to have the item. -/
  requiredInRow : Bool

/-- A field that has to be there. -/
def Slot.needed {α : Type} (name : String) (d : Decoder α) : Slot :=
  ⟨name, fun o j => (d o j).map fun _ => (), true, true⟩

/-- A field with a default. -/
def Slot.defaulted {α : Type} (name : String) (d : Decoder α) : Slot :=
  ⟨name, fun o j => (d o j).map fun _ => (), false, false⟩

/-- A field that an object may leave out. -/
def Slot.omissible {α : Type} (name : String) (d : Decoder α) : Slot :=
  ⟨name, fun o j => (d o j).map fun _ => (), false, true⟩

/-- The fields of an object, in the order of the text; `got` holds what has been seen. -/
def scanFields (slots : List Slot) (o : Origin) :
    List (String × Json) → List (String × Json) → Except Mismatch (List (String × Json))
  | got, [] => .ok got
  | got, (name, j) :: rest =>
    match slots.find? fun s => s.name == name with
    | none => if j.isCut then .error .notJson else scanFields slots o got rest
    | some slot =>
      if (got.lookup name).isSome then .error (.duplicateField name)
      else match slot.check o j with
        | .error e => .error e
        | .ok () => scanFields slots o (got ++ [(name, j)]) rest

/-- The items of an array in place of an object; `expected` names the object. -/
def scanRow (expected : String) (o : Origin) (length : Nat) :
    List Slot → List Json → Nat → Except Mismatch (List (String × Json))
  | [], [], _ => .ok []
  | [], _ :: _, _ =>
    .error (if o = .text then .notJson else .invalidLength length "fewer elements in array")
  | slot :: slots, [], at_ =>
    if slot.requiredInRow then .error (.invalidLength at_ expected)
    else scanRow expected o length slots [] (at_ + 1)
  | slot :: slots, j :: rest, at_ =>
    match slot.check o j with
    | .error e => .error e
    | .ok () => (scanRow expected o length slots rest (at_ + 1)).map ((slot.name, j) :: ·)

/-- The values of the known fields of an object of a named type, each judged by its slot. -/
def fields (type : String) (slots : List Slot) : Decoder (List (String × Json)) := fun o j =>
  match j with
  | .record fs =>
    match scanFields slots o [] fs with
    | .error e => .error e
    | .ok got =>
      match slots.find? fun s => s.required && (got.lookup s.name).isNone with
      | some slot => .error (.missingField slot.name)
      | none => .ok got
  | .list items =>
    let n := slots.length
    let expected := "struct " ++ type ++ " with " ++ toString n ++
      (if n = 1 then " element" else " elements")
    scanRow expected o items.length slots items 0
  | j => .error (mismatch ("struct " ++ type) j)

/-- The decoded value of a field that was seen. -/
def need {α : Type} (got : List (String × Json)) (o : Origin) (name : String) (d : Decoder α) :
    Except Mismatch α :=
  match got.lookup name with
  | some j => d o j
  | none => .error (.missingField name)

/-- The decoded value of a field, or its default. -/
def get {α : Type} (got : List (String × Json)) (o : Origin) (name : String) (d : Decoder α)
    (default : α) : Except Mismatch α :=
  match got.lookup name with
  | some j => d o j
  | none => .ok default

/-! ## Alternatives -/

/-- An alternative of a type: its name, and how its content decodes, if it has any. -/
structure Variant (α : Type) where
  /-- The name of the alternative. -/
  name : String
  /-- A value without content, or a decoder of the content. -/
  content : α ⊕ Decoder α

/-- The alternative of a name. -/
def variant {α : Type} (variants : List (Variant α)) (name : String) :
    Except Mismatch (Variant α) :=
  match variants.find? fun v => v.name == name with
  | some v => .ok v
  | none => .error (.unknownVariant name (variants.map Variant.name))

/-- One of several alternatives: a name alone, or an object whose one field is the name. -/
def oneOf {α : Type} (variants : List (Variant α)) : Decoder α := fun o j =>
  match j with
  | .text s => do
    let v ← variant variants s
    match v.content with
    | .inl x => pure x
    | .inr _ => throw (.invalidType .bare "newtype variant")
  | .record fs =>
    match o, fs with
    | .value, [] | .value, _ :: _ :: _ => .error (.invalidValue .record "map with a single key")
    | .text, [] => .error .notJson
    | o, (name, j) :: rest => do
      let v ← variant variants name
      let x ← match v.content with
        | .inl x => match j with
          | .null => pure x
          | j => throw (mismatch "unit" j)
        | .inr d => d o j
      if rest.isEmpty then pure x else throw .notJson
  | j =>
    if o = .text then .error .notJson else .error (mismatch "string or map" j)

/-! ## Whole texts -/

/-- Decodes a text: a value, and nothing but white space after it. -/
def decodeText {α : Type} (d : Decoder α) (s : String) : Except Mismatch α :=
  let (j, clean) := read s
  match d .text j with
  | .error e => .error e
  | .ok x => if clean then .ok x else .error .notJson

end Matchmaking.Json
