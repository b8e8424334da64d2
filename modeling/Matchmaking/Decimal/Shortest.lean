import Matchmaking.Decimal.Number

/-!
# The shortest decimal

A number in a message is written with the fewest decimal digits that read back as the same number;
among several candidates the nearest one is taken, and of two equally near ones the even one.

A finite positive number is `m * 2 ^ q` for a whole `m`. The decimals that read back as it lie
between the two midpoints to its neighbours, the midpoints included exactly if `m` is even. For
`n = 1, 2, …, 17` digits the two decimals of `n` digits around the number are tested against these
bounds, in exact arithmetic on natural numbers.
-/

namespace Matchmaking.Decimal

/-- A decimal number `digits * 10 ^ exponent`. -/
structure Figure where
  /-- The digits, read as one natural number. -/
  digits : Nat
  /-- The power of ten that they count. -/
  exponent : Int
  deriving DecidableEq, Repr

/-- A positive fraction. -/
structure Fraction where
  /-- The numerator. -/
  num : Nat
  /-- The denominator. -/
  den : Nat

/-- The fraction `n * b ^ e`. -/
def Fraction.scaled (n b : Nat) : Int → Fraction
  | .ofNat e => ⟨n * Nat.pow b e, 1⟩
  | .negSucc e => ⟨n, Nat.pow b (e + 1)⟩

/-- The fraction `x * 10 ^ e`. -/
def Fraction.timesTen (x : Fraction) : Int → Fraction
  | .ofNat e => ⟨x.num * Nat.pow 10 e, x.den⟩
  | .negSucc e => ⟨x.num, x.den * Nat.pow 10 (e + 1)⟩

/-- Strictly smaller. -/
def Fraction.lt (x y : Fraction) : Bool := x.num * y.den < y.num * x.den

/-- At most as large. -/
def Fraction.le (x y : Fraction) : Bool := x.num * y.den ≤ y.num * x.den

/-- The reals that read back as one number: those between two bounds. -/
structure Interval where
  /-- The lower bound. -/
  low : Fraction
  /-- The upper bound. -/
  high : Fraction
  /-- Whether the bounds themselves belong to it. -/
  closed : Bool

/-- Whether a fraction lies in the interval. -/
def Interval.holds (i : Interval) (x : Fraction) : Bool :=
  if i.closed then i.low.le x && x.le i.high else i.low.lt x && x.lt i.high

/-- The least `e` from -325 on with `x < 10 ^ e`; 640 steps reach every double. -/
def magnitude (x : Fraction) : Int :=
  let found := (List.range 640).find? fun k => x.lt (Fraction.scaled 1 10 (Int.ofNat k - 325))
  Int.ofNat (found.getD 0) - 325

/-- The decimal of `n` digits that reads back as `x`, if there is one; `e` is the magnitude. -/
def ofDigits? (x : Fraction) (i : Interval) (e : Int) (n : Nat) : Option Figure :=
  let exponent := e - n
  let y := x.timesTen (-exponent)
  let below := y.num / y.den
  let hits := [below, below + 1].filter fun d => d ≠ 0 && i.holds (Fraction.scaled d 10 exponent)
  match hits with
  | [] => none
  | [d] => some ⟨d, exponent⟩
  | d :: d' :: _ =>
    let rest := y.num % y.den
    let down := if 2 * rest = y.den then d % 2 = 0 else 2 * rest < y.den
    some ⟨if down then d else d', exponent⟩

/-- The shortest decimal of a finite positive number. -/
def shortest (x : Number) : Figure :=
  let fraction := x.fractionBits
  let subnormal := x.exponentBits = 0
  let m := if subnormal then fraction else fraction + Nat.pow 2 52
  let q : Int := (if subnormal then 1 else x.exponentBits) - 1075
  let tight := fraction = 0 && 1 < x.exponentBits
  let value := Fraction.scaled (4 * m) 2 (q - 2)
  let interval : Interval := {
    low := Fraction.scaled (4 * m - if tight then 1 else 2) 2 (q - 2)
    high := Fraction.scaled (4 * m + 2) 2 (q - 2)
    closed := m % 2 = 0 }
  let e := magnitude value
  ((List.range 17).findSome? fun n => ofDigits? value interval e (n + 1)).getD ⟨0, 0⟩

/-- A decimal written out in full, without a power of ten. -/
def Figure.positional (d : Figure) : String :=
  let digits := Nat.toDigits 10 d.digits
  match d.exponent with
  | .ofNat e => String.ofList (digits ++ List.replicate e '0')
  | .negSucc e =>
    let places := e + 1
    let padded := List.replicate (places + 1 - digits.length) '0' ++ digits
    let whole := padded.take (padded.length - places)
    let rest := padded.drop (padded.length - places)
    let kept := (rest.reverse.dropWhile (· == '0')).reverse
    String.ofList (if kept.isEmpty then whole else whole ++ '.' :: kept)

/-- The text of a number: the shortest decimal, written out in full. -/
def text (x : Number) : String :=
  let sign := if x.isNegative then "-" else ""
  if x.isFinite then
    if x.exponentBits = 0 && x.fractionBits = 0 then sign ++ "0"
    else sign ++ (shortest x).positional
  else if x.fractionBits = 0 then sign ++ "inf"
  else "NaN"

/-- A decimal with at least one place after the point; far from one it is written with a power of
ten: positional from 10^-5 up to below 10^16. -/
def Figure.brief (d : Figure) : String :=
  let digits := Nat.toDigits 10 d.digits
  let point := d.exponent + digits.length
  if -5 < point && point ≤ 16 then
    let s := d.positional
    if s.toList.contains '.' then s else s ++ ".0"
  else
    let kept := (digits.reverse.dropWhile (· == '0')).reverse
    let head := kept.take 1
    let tail := kept.drop 1
    String.ofList (if tail.isEmpty then head else head ++ '.' :: tail) ++ "e" ++
      toString (point - 1)

/-- The brief text of a finite number. -/
def brief (x : Number) : String :=
  let sign := if x.isNegative then "-" else ""
  if x.exponentBits = 0 && x.fractionBits = 0 then sign ++ "0.0" else sign ++ (shortest x).brief

end Matchmaking.Decimal
