import Matchmaking.Table
import Matchmaking.Decimal.Number

/-!
# JSON values

A JSON value as it was read, fields in the order of the text and repeated fields kept, so that a
decoder can answer for the first thing that is wrong. Where the text stops being JSON the value
holds `cut`: what stands before that place is still there to be judged.
-/

namespace Matchmaking

/-- A JSON value, possibly one whose text breaks off. -/
inductive Json where
  /-- The null value. -/
  | null
  /-- A truth value. -/
  | bool (b : Bool)
  /-- A whole number between -2^63 and 2^64 - 1. -/
  | int (i : Int)
  /-- Any other number. -/
  | real (x : Number)
  /-- A string. -/
  | text (s : String)
  /-- An array. -/
  | list (items : List Json)
  /-- An object, with its fields in the order of the text. -/
  | record (fields : List (String × Json))
  /-- The place where the text is no JSON. -/
  | cut
  deriving Inhabited

namespace Json

mutual

/-- Whether the text of the value breaks off somewhere. -/
def isCut : Json → Bool
  | .list items => anyCut items
  | .record fields => anyFieldCut fields
  | .cut => true
  | _ => false

/-- Whether one of some values breaks off. -/
def anyCut : List Json → Bool
  | [] => false
  | j :: rest => isCut j || anyCut rest

/-- Whether the value of one of some fields breaks off. -/
def anyFieldCut : List (String × Json) → Bool
  | [] => false
  | (_, j) :: rest => isCut j || anyFieldCut rest

end

/-- The last value given for a field. -/
def field? (j : Json) (name : String) : Option Json :=
  match j with
  | .record fields => fields.foldl (fun found f => if f.1 == name then some f.2 else found) none
  | _ => none

mutual

/-- The same value with the fields of every object in the order of their names and, of a repeated
field, the last value alone. -/
def canonical : Json → Json
  | .list items => .list (canonicalList items)
  | .record fields => .record (Table.ofList (canonicalFields fields)).entries
  | j => j

/-- Each of some values in canonical form. -/
def canonicalList : List Json → List Json
  | [] => []
  | j :: rest => canonical j :: canonicalList rest

/-- Some fields with their values in canonical form. -/
def canonicalFields : List (String × Json) → List (String × Json)
  | [] => []
  | (name, j) :: rest => (name, canonical j) :: canonicalFields rest

end

/-- A natural number as a JSON value. -/
def nat (n : Nat) : Json := .int n

/-- An optional value, null if there is none. -/
def option {α : Type} (f : α → Json) : Option α → Json
  | none => .null
  | some x => f x

/-- A list of strings. -/
def texts (l : List String) : Json := .list (l.map .text)

/-- A table as an object. -/
def table {α : Type} (f : α → Json) (t : Table α) : Json :=
  .record (t.entries.map fun e => (e.1, f e.2))

end Json

end Matchmaking
