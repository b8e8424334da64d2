import Matchmaking.Json.Value

/-!
# Reading JSON

A reader of JSON texts that never gives up: from a text that is no JSON it makes a value that breaks
off (`Json.cut`) where the text does. Whole numbers that fit 64 bits stay whole; every other number
becomes a double by multiplying or dividing its leading digits, as far as they fit 64 bits, by a
power of ten.

The functions recurse on the fuel of the wrapper `Json.read`. A step of the reader uses up at least
one character between two uses of fuel, so the length of the text is enough.
-/

namespace Matchmaking.Json

/-- Spaces, tabs and line ends, the white space of JSON. -/
def isSpace (c : Char) : Bool := c == ' ' || c == '\t' || c == '\n' || c == '\r'

/-- The rest of a text after its leading white space. -/
def skipSpace (cs : List Char) : List Char := cs.dropWhile isSpace

/-! ## Strings -/

/-- The value of a hexadecimal digit. -/
def hexDigit? (c : Char) : Option Nat :=
  if c.isDigit then some (c.toNat - '0'.toNat)
  else if 'a' ≤ c && c ≤ 'f' then some (c.toNat - 'a'.toNat + 10)
  else if 'A' ≤ c && c ≤ 'F' then some (c.toNat - 'A'.toNat + 10)
  else none

/-- The value of four hexadecimal digits and the rest. -/
def hexFour? : List Char → Option (Nat × List Char)
  | a :: b :: c :: d :: rest => do
    let a ← hexDigit? a
    let b ← hexDigit? b
    let c ← hexDigit? c
    let d ← hexDigit? d
    pure (((a * 16 + b) * 16 + c) * 16 + d, rest)
  | _ => none

/-- The character that an escape stands for, after the backslash. A character outside the basic
plane is written as a pair of surrogates; a surrogate on its own is no character. -/
def escaped? : List Char → Option (Char × List Char)
  | 'n' :: rest => some ('\n', rest)
  | 't' :: rest => some ('\t', rest)
  | 'r' :: rest => some ('\r', rest)
  | 'b' :: rest => some ('\x08', rest)
  | 'f' :: rest => some ('\x0c', rest)
  | '/' :: rest => some ('/', rest)
  | '\\' :: rest => some ('\\', rest)
  | '\x22' :: rest => some ('\x22', rest)
  | 'u' :: rest => do
    let (high, rest) ← hexFour? rest
    if 0xdc00 ≤ high && high ≤ 0xdfff then none
    else if 0xd800 ≤ high && high ≤ 0xdbff then
      match rest with
      | '\\' :: 'u' :: rest => do
        let (low, rest) ← hexFour? rest
        if 0xdc00 ≤ low && low ≤ 0xdfff then
          some (Char.ofNat (0x10000 + (high - 0xd800) * 0x400 + (low - 0xdc00)), rest)
        else none
      | _ => none
    else some (Char.ofNat high, rest)
  | _ => none

/-- The rest of a string after its opening quote; `done` holds what was read, last first. -/
def readString? : Nat → List Char → List Char → Option (String × List Char)
  | 0, _, _ => none
  | _ + 1, _, [] => none
  | fuel + 1, done, c :: rest =>
    if c == '\x22' then some (String.ofList done.reverse, rest)
    else if c == '\\' then
      match escaped? rest with
      | some (c, rest) => readString? fuel (c :: done) rest
      | none => none
    else if c.toNat < 0x20 then none
    else readString? fuel (c :: done) rest

/-! ## Numbers -/

/-- The largest number of 64 bits. -/
def maxUnsigned : Nat := Nat.pow 2 64 - 1

/-- `m * 10 ^ e` for a number `m` of 64 bits, by one multiplication or division; a negative power of
ten beyond the range of doubles takes several. None if the result would be infinite. -/
def scaleByTen? : Nat → Float → Int → Option Float
  | 0, _, _ => none
  | fuel + 1, x, e =>
    if e.natAbs ≤ 308 then
      let power := Float.ofScientific 1 false e.natAbs
      let y := if 0 ≤ e then x * power else x / power
      if y.isInf then none else some y
    else if x == 0 then some x
    else if 0 ≤ e then none
    else scaleByTen? fuel (x / Float.ofScientific 1 false 308) (e + 308)

/-- The double of a sign, leading digits and a power of ten. -/
def double? (negative : Bool) (m : Nat) (e : Int) : Option Json :=
  (scaleByTen? 5 (Float.ofNat m) e).map fun x => .real (Number.ofFloat (if negative then -x else x))

/-- Takes digits as long as the number stays within 64 bits: the number, how many digits were taken,
and the rest. -/
def takeDigits : Nat → Nat → List Char → Nat × Nat × List Char
  | n, taken, [] => (n, taken, [])
  | n, taken, c :: rest =>
    if c.isDigit then
      let n' := 10 * n + (c.toNat - '0'.toNat)
      if maxUnsigned < n' then (n, taken, c :: rest) else takeDigits n' (taken + 1) rest
    else (n, taken, c :: rest)

/-- The largest power of ten that is not called out of range. -/
def maxPower : Nat := Nat.pow 2 31 - 1

/-- The end of a number from its mark of a power of ten on; `m * 10 ^ e` is what stands before. -/
def readPower? (negative : Bool) (m : Nat) (e : Int) (cs : List Char) :
    Option (Json × List Char) := do
  let (down, cs) := match cs with
    | '+' :: rest => (false, rest)
    | '-' :: rest => (true, rest)
    | cs => (false, cs)
  let digits := cs.takeWhile Char.isDigit
  let rest := cs.dropWhile Char.isDigit
  if digits.isEmpty then none
  else
    let power := digits.foldl (fun n c => 10 * n + (c.toNat - '0'.toNat)) 0
    if maxPower < power then
      if m ≠ 0 && !down then none else (double? negative 0 0).map (·, rest)
    else (double? negative m (if down then e - power else e + power)).map (·, rest)

/-- The end of a number with a fraction or a power of ten; `m * 10 ^ e` is what stands before. -/
def readReal? (negative : Bool) (m : Nat) (e : Int) (cs : List Char) : Option (Json × List Char) :=
  match cs with
  | '.' :: rest =>
    let (n, taken, rest') := takeDigits m 0 rest
    let digits := rest.takeWhile Char.isDigit
    if digits.isEmpty then none
    else
      let rest := if taken = digits.length then rest' else rest.dropWhile Char.isDigit
      match rest with
      | 'e' :: power | 'E' :: power => readPower? negative n (e - taken) power
      | _ => (double? negative n (e - taken)).map (·, rest)
  | 'e' :: power | 'E' :: power => readPower? negative m e power
  | _ => (double? negative m e).map (·, cs)

/-- A number, after its sign. A leading zero stands alone before the point. -/
def readNumber? (negative : Bool) (cs : List Char) : Option (Json × List Char) :=
  let (m, taken, rest) := takeDigits 0 0 cs
  if taken = 0 then none
  else if cs.head? == some '0' && 1 < taken then none
  else
    let dropped := rest.takeWhile Char.isDigit
    if !dropped.isEmpty then readReal? negative m dropped.length (rest.dropWhile Char.isDigit)
    else match rest.head? with
      | some '.' | some 'e' | some 'E' => readReal? negative m 0 rest
      | _ =>
        if !negative then some (.int m, rest)
        else if m = 0 || Nat.pow 2 63 < m then (double? true m 0).map (·, rest)
        else some (.int (-(m : Int)), rest)

/-! ## Values -/

mutual

/-- One value, after white space, and what follows it. -/
def readValue : Nat → List Char → Json × List Char
  | 0, cs => (.cut, cs)
  | fuel + 1, cs =>
    match skipSpace cs with
    | 'n' :: 'u' :: 'l' :: 'l' :: rest => (.null, rest)
    | 't' :: 'r' :: 'u' :: 'e' :: rest => (.bool true, rest)
    | 'f' :: 'a' :: 'l' :: 's' :: 'e' :: rest => (.bool false, rest)
    | '\x22' :: rest =>
      match readString? (rest.length + 1) [] rest with
      | some (s, rest) => (.text s, rest)
      | none => (.cut, [])
    | '[' :: rest =>
      match skipSpace rest with
      | ']' :: rest => (.list [], rest)
      | rest => let (items, rest) := readItems fuel rest; (.list items, rest)
    | '\x7b' :: rest =>
      match skipSpace rest with
      | '\x7d' :: rest => (.record [], rest)
      | rest => let (fields, rest) := readFields fuel rest; (.record fields, rest)
    | '-' :: rest => (readNumber? true rest).getD (.cut, [])
    | rest => (readNumber? false rest).getD (.cut, [])

/-- The items of an array up to its closing bracket; a last item that breaks off stands for
whatever is wrong with the rest. -/
def readItems : Nat → List Char → List Json × List Char
  | 0, cs => ([.cut], cs)
  | fuel + 1, cs =>
    let (item, rest) := readValue fuel cs
    if item.isCut then ([item], [])
    else match skipSpace rest with
      | ']' :: rest => ([item], rest)
      | ',' :: rest => let (items, rest) := readItems fuel rest; (item :: items, rest)
      | _ => ([item, .cut], [])

/-- The fields of an object up to its closing brace; a last field that breaks off stands for
whatever is wrong with the rest. -/
def readFields : Nat → List Char → List (String × Json) × List Char
  | 0, cs => ([("", .cut)], cs)
  | fuel + 1, cs =>
    match skipSpace cs with
    | '\x22' :: rest =>
      match readString? (rest.length + 1) [] rest with
      | none => ([("", .cut)], [])
      | some (name, rest) =>
        match skipSpace rest with
        | ':' :: rest =>
          let (value, rest) := readValue fuel rest
          if value.isCut then ([(name, value)], [])
          else match skipSpace rest with
            | '\x7d' :: rest => ([(name, value)], rest)
            | ',' :: rest =>
              let (fields, rest) := readFields fuel rest
              ((name, value) :: fields, rest)
            | _ => ([(name, value), ("", .cut)], [])
        | _ => ([(name, .cut)], [])
    | _ => ([("", .cut)], [])

end

/-- The value at the beginning of a text, and whether only white space follows it. -/
def read (s : String) : Json × Bool :=
  let cs := s.toList
  let (value, rest) := readValue (2 * cs.length + 2) cs
  (value, (skipSpace rest).isEmpty)

/-- The value of a text that is JSON from beginning to end. -/
def parse? (s : String) : Option Json :=
  let (value, clean) := read s
  if clean && !value.isCut then some value else none

end Matchmaking.Json
