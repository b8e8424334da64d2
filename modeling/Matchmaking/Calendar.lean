import Matchmaking.Instant

/-!
# Dates

The written form of an instant: date and time of day in the Gregorian calendar, separated by `T`,
and the distance to universal time. What is written is always in universal time, with as many
groups of three places after the seconds as the instant needs. What is read may use a blank in
place of `T`, numbers with fewer digits and any distance to universal time.
-/

namespace Matchmaking.Calendar

/-- Why a text is no date and time. -/
inductive DateFault
  /-- A number lies outside its range. -/
  | outOfRange
  /-- A character that cannot stand in its place. -/
  | invalid
  /-- The text ends too early. -/
  | tooShort
  /-- Something follows. -/
  | tooLong
  deriving DecidableEq, Repr

/-- The wording of a fault. -/
def DateFault.message : DateFault → String
  | .outOfRange => "input is out of range"
  | .invalid => "input contains invalid characters"
  | .tooShort => "premature end of input"
  | .tooLong => "trailing input"

/-! ## Days and dates -/

/-- The number of days from the beginning of 1970 to a date. Years are counted from March, so that a
leap day ends a year, and in eras of 400 years. -/
def dayNumber (year month day : Int) : Int :=
  let y := if month ≤ 2 then year - 1 else year
  let era := y / 400
  let yearOfEra := y - era * 400
  let shifted := if month ≤ 2 then month + 9 else month - 3
  let dayOfYear := (153 * shifted + 2) / 5 + day - 1
  let dayOfEra := yearOfEra * 365 + yearOfEra / 4 - yearOfEra / 100 + dayOfYear
  era * 146097 + dayOfEra - 719468

/-- The date of a day, counted from the beginning of 1970. -/
def dateOfDay (n : Int) : Int × Int × Int :=
  let z := n + 719468
  let era := z / 146097
  let dayOfEra := z - era * 146097
  let yearOfEra := (dayOfEra - dayOfEra / 1460 + dayOfEra / 36524 - dayOfEra / 146096) / 365
  let dayOfYear := dayOfEra - (365 * yearOfEra + yearOfEra / 4 - yearOfEra / 100)
  let shifted := (5 * dayOfYear + 2) / 153
  let day := dayOfYear - (153 * shifted + 2) / 5 + 1
  let month := if shifted < 10 then shifted + 3 else shifted - 9
  let year := yearOfEra + era * 400 + if month ≤ 2 then 1 else 0
  (year, month, day)

/-! ## Writing -/

/-- A number with leading zeros up to a width. -/
def padded (width : Nat) (n : Nat) : String :=
  let digits := Nat.toDigits 10 n
  String.ofList (List.replicate (width - digits.length) '0' ++ digits)

/-- A year: four digits, or a sign and at least five. -/
def yearText (y : Int) : String :=
  if 0 ≤ y && y ≤ 9999 then padded 4 y.toNat
  else (if y < 0 then "-" else "+") ++ padded (if y < 0 then 4 else 5) y.natAbs

/-- The places after the seconds, in groups of three. -/
def fractionText (nanos : Nat) : String :=
  if nanos = 0 then ""
  else if nanos % 1000000 = 0 then "." ++ padded 3 (nanos / 1000000)
  else if nanos % 1000 = 0 then "." ++ padded 6 (nanos / 1000)
  else "." ++ padded 9 nanos

/-- Nanoseconds per second. -/
def perSecond : Int := 1000000000

/-- The written form of an instant. -/
def write (t : Instant) : String :=
  let seconds := t.nanos / perSecond
  let nanos := (t.nanos % perSecond).toNat
  let day := seconds / 86400
  let ofDay := (seconds % 86400).toNat
  let (year, month, dayOfMonth) := dateOfDay day
  yearText year ++ "-" ++ padded 2 month.toNat ++ "-" ++ padded 2 dayOfMonth.toNat ++ "T" ++
    padded 2 (ofDay / 3600) ++ ":" ++ padded 2 (ofDay / 60 % 60) ++ ":" ++ padded 2 (ofDay % 60) ++
    fractionText nanos ++ "Z"

/-! ## Reading -/

/-- White space that may stand before a number. -/
def skipBlank (cs : List Char) : List Char := cs.dropWhile Char.isWhitespace

/-- At most `most` digits. -/
def readDigits (most : Nat) (cs : List Char) : Except DateFault (Nat × List Char) :=
  let digits := (cs.take most).takeWhile Char.isDigit
  if digits.isEmpty then .error (if cs.isEmpty then .tooShort else .invalid)
  else .ok (digits.foldl (fun n c => 10 * n + (c.toNat - '0'.toNat)) 0, cs.drop digits.length)

/-- A number of at most two digits within bounds. -/
def readTwo (low high : Nat) (cs : List Char) : Except DateFault (Nat × List Char) := do
  let (n, rest) ← readDigits 2 (skipBlank cs)
  if low ≤ n && n ≤ high then pure (n, rest) else throw .outOfRange

/-- A year: four digits, or a sign and any number of them. -/
def readYear (cs : List Char) : Except DateFault (Int × List Char) :=
  match skipBlank cs with
  | '-' :: rest => (readDigits rest.length rest).map fun (n, rest) => (-(n : Int), rest)
  | '+' :: rest => (readDigits rest.length rest).map fun (n, rest) => ((n : Int), rest)
  | rest => (readDigits 4 rest).map fun (n, rest) => ((n : Int), rest)

/-- A given character, after white space. -/
def readMark (c : Char) (cs : List Char) : Except DateFault (List Char) :=
  match skipBlank cs with
  | [] => .error .tooShort
  | d :: rest => if d = c then .ok rest else .error .invalid

/-- The places after the seconds; those beyond the ninth are passed over. -/
def readFraction (cs : List Char) : Except DateFault (Nat × List Char) :=
  match cs with
  | '.' :: rest => do
    let (n, rest') ← readDigits 9 rest
    let taken := rest.length - rest'.length
    pure (n * Nat.pow 10 (9 - taken), rest'.dropWhile Char.isDigit)
  | _ => .ok (0, cs)

/-- The distance to universal time in seconds: `Z`, `UTC`, or a sign, hours and minutes. -/
def readZone (cs : List Char) : Except DateFault (Int × List Char) :=
  match cs with
  | [] => .error .tooShort
  | c :: rest =>
    if c == 'Z' || c == 'z' then .ok (0, rest)
    else if (cs.take 3).map Char.toUpper == ['U', 'T', 'C'] then .ok (0, cs.drop 3)
    else if c == '+' || c == '-' then do
      match rest with
      | a :: b :: rest =>
        if !a.isDigit || !b.isDigit then throw .invalid
        let rest := rest.dropWhile fun d => d == ':' || d.isWhitespace
        match rest with
        | m :: n :: rest =>
          if !m.isDigit || !n.isDigit then throw .invalid
          let value (c : Char) : Nat := c.toNat - '0'.toNat
          let minutes := value m * 10 + value n
          let hours := value a * 10 + value b
          if 60 ≤ minutes || 24 ≤ hours then throw .outOfRange
          let seconds : Int := hours * 3600 + minutes * 60
          pure (if c == '-' then -seconds else seconds, rest)
        | _ => throw .tooShort
      | _ => throw .tooShort
    else .error .invalid

/-- The number of days of a month. -/
def daysOfMonth (year : Int) (month : Nat) : Nat :=
  (dayNumber (if month = 12 then year + 1 else year) (if month = 12 then 1 else month + 1) 1 -
    dayNumber year month 1).toNat

/-- Reads the written form of an instant. -/
def read (s : String) : Except DateFault Instant := do
  let (year, cs) ← readYear s.toList
  let cs ← readMark '-' cs
  let (month, cs) ← readTwo 1 12 cs
  let cs ← readMark '-' cs
  let (day, cs) ← readTwo 1 31 cs
  let cs ← match cs with
    | [] => throw .tooShort
    | c :: rest => if c == 'T' || c == 't' || c == ' ' then pure rest else throw .invalid
  let (hour, cs) ← readTwo 0 23 cs
  let cs ← readMark ':' cs
  let (minute, cs) ← readTwo 0 59 cs
  let cs ← readMark ':' cs
  let (second, cs) ← readTwo 0 60 cs
  let (nanos, cs) ← readFraction cs
  let (zone, cs) ← readZone (skipBlank cs)
  if !(skipBlank cs).isEmpty then throw .tooLong
  if daysOfMonth year month < day then throw .outOfRange
  let seconds := dayNumber year month day * 86400 + hour * 3600 + minute * 60 + second - zone
  let t : Instant := ⟨seconds * perSecond + nanos⟩
  if t.millis < Instant.minMillis || Instant.maxMillis < t.millis then throw .outOfRange
  pure t

end Matchmaking.Calendar
