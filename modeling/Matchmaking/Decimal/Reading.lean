import Matchmaking.Decimal.Number

/-!
# Reading numbers

Whole numbers within bounds, with the cause when a text is none, and numbers in double precision.
Digits are judged from left to right: the first character that is no digit, or the first digit that
leaves the bounds, decides.
-/

namespace Matchmaking.Decimal

/-- Why a text is no whole number within bounds. -/
inductive IntegerFault
  /-- There is nothing to read. -/
  | empty
  /-- Something other than a digit. -/
  | invalidDigit
  /-- The number exceeds the upper bound. -/
  | aboveRange
  /-- The number is below the lower bound. -/
  | belowRange
  deriving DecidableEq, Repr

/-- Reads digits after `n`, up to the magnitude `bound`. -/
def readDigits (bound : Nat) (fault : IntegerFault) : Nat → List Char → Except IntegerFault Nat
  | n, [] => .ok n
  | n, c :: rest =>
    if c.isDigit then
      let n' := 10 * n + (c.toNat - '0'.toNat)
      if bound < n' then .error fault else readDigits bound fault n' rest
    else .error .invalidDigit

/-- A sign followed by at least one digit, or digits alone; a minus only if negative numbers are in
bounds. -/
def readInteger (low high : Int) (s : String) : Except IntegerFault Int :=
  match s.toList with
  | [] => .error .empty
  | ['+'] => .error .invalidDigit
  | ['-'] => .error .invalidDigit
  | '+' :: rest => (readDigits high.toNat .aboveRange 0 rest).map Int.ofNat
  | '-' :: rest =>
    if low < 0 then (readDigits low.natAbs .belowRange 0 rest).map fun n => -Int.ofNat n
    else .error .invalidDigit
  | cs => (readDigits high.toNat .aboveRange 0 cs).map Int.ofNat

/-- Whole numbers from 0 to 2^64 - 1. -/
def readUnsigned (s : String) : Except IntegerFault Nat :=
  (readInteger 0 (Int.pow 2 64 - 1) s).map Int.toNat

/-- Whole numbers from -2^63 to 2^63 - 1. -/
def readSigned (s : String) : Except IntegerFault Int :=
  readInteger (-Int.pow 2 63) (Int.pow 2 63 - 1) s

/-- The value of a run of digits. -/
def digitsValue (cs : List Char) : Nat := cs.foldl (fun n c => 10 * n + (c.toNat - '0'.toNat)) 0

/-- The number nearest to `m * 10 ^ e`; far outside the range of doubles it is infinite or zero. -/
def nearest (m : Nat) (e : Int) : Float :=
  if m = 0 then 0
  else
    let magnitude := (Nat.toDigits 10 m).length + e
    if 320 < magnitude then 1 / 0
    else if magnitude < -340 then 0
    else match e with
      | .ofNat n => Float.ofScientific m false n
      | .negSucc n => Float.ofScientific m true (n + 1)

/-- The optional power of ten at the end of a number: nothing, or a mark, a sign and digits. -/
def readPower : List Char → Option Int
  | [] => some 0
  | c :: rest =>
    if c == 'e' || c == 'E' then
      let (negative, digits) := match rest with
        | '-' :: ds => (true, ds)
        | '+' :: ds => (false, ds)
        | ds => (false, ds)
      if digits.isEmpty || !digits.all Char.isDigit then none
      else
        let n : Int := digitsValue digits
        some (if negative then -n else n)
    else none

/-- An unsigned number: digits with an optional point and an optional power of ten, or one of the
names of infinity and of the undefined number, in any case. -/
def readMagnitude (cs : List Char) : Option Float :=
  let word := cs.map Char.toLower
  if word == "inf".toList || word == "infinity".toList then some (1 / 0)
  else if word == "nan".toList then some (0 / 0)
  else
    let whole := cs.takeWhile Char.isDigit
    let rest := cs.dropWhile Char.isDigit
    let (fraction, rest) := match rest with
      | '.' :: ds => (ds.takeWhile Char.isDigit, ds.dropWhile Char.isDigit)
      | ds => ([], ds)
    if whole.isEmpty && fraction.isEmpty then none
    else (readPower rest).map fun e =>
      nearest (digitsValue (whole ++ fraction)) (e - fraction.length)

/-- A number in double precision: the nearest one to the decimal that is written. -/
def readNumber? (s : String) : Option Number :=
  match s.toList with
  | '-' :: rest => (readMagnitude rest).map fun x => Number.ofFloat (-x)
  | '+' :: rest => (readMagnitude rest).map Number.ofFloat
  | cs => (readMagnitude cs).map Number.ofFloat

end Matchmaking.Decimal
