import Matchmaking.Json.Value

/-!
# Writing JSON

The text of a value, on one line or with one field or item per line. A finite number that is not
whole is written as a string of its bits, so that nothing is lost; a number that is not finite has
no JSON form and is written as null.
-/

namespace Matchmaking.Json

/-- A hexadecimal escape of four digits. -/
def hexEscape (n : Nat) : String :=
  let digits := Nat.toDigits 16 n
  "\\u" ++ String.ofList (List.replicate (4 - digits.length) '0' ++ digits)

/-- One character inside a string. -/
def writeChar (c : Char) : String :=
  if c == '\x22' then "\\\""
  else if c == '\\' then "\\\\"
  else if c == '\n' then "\\n"
  else if c == '\r' then "\\r"
  else if c == '\t' then "\\t"
  else if c.toNat < 0x20 then hexEscape c.toNat
  else c.toString

/-- A string with its quotes. -/
def writeString (s : String) : String := "\"" ++ String.join (s.toList.map writeChar) ++ "\""

mutual

/-- The text of a value on one line. -/
def write : Json → String
  | .null => "null"
  | .bool b => if b then "true" else "false"
  | .int i => toString i
  | .real x => if x.isFinite then writeString x.hex else "null"
  | .text s => writeString s
  | .list items => "[" ++ writeItems items ++ "]"
  | .record fields => "\x7b" ++ writeFields fields ++ "\x7d"
  | .cut => "null"

/-- The items of an array, with commas between them. -/
def writeItems : List Json → String
  | [] => ""
  | [j] => write j
  | j :: rest => write j ++ "," ++ writeItems rest

/-- The fields of an object, with commas between them. -/
def writeFields : List (String × Json) → String
  | [] => ""
  | [(name, j)] => writeString name ++ ":" ++ write j
  | (name, j) :: rest => writeString name ++ ":" ++ write j ++ "," ++ writeFields rest

end

/-- An object whose fields hold no objects, one field per line and two spaces before each. -/
def writeLines (fields : List (String × Json)) : String :=
  if fields.isEmpty then "\x7b\x7d"
  else
    let lines := fields.map fun f => "  " ++ writeString f.1 ++ ": " ++ f.2.write
    "\x7b\n" ++ ",\n".intercalate lines ++ "\n\x7d"

end Matchmaking.Json
