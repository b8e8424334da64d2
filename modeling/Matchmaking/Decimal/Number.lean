/-!
# Numbers

A numeric property is a number in double precision. It is kept as its bits, so that equality of
numbers is equality of what is stored: a search for a number finds the same number and nothing that
only compares equal to it.
-/

namespace Matchmaking

/-- A number in double precision. -/
structure Number where
  /-- Sign, exponent and fraction, from the highest bit down. -/
  bits : UInt64
  deriving DecidableEq, Repr, Inhabited

namespace Number

/-- The number to compute with. -/
def toFloat (x : Number) : Float := Float.ofBits x.bits

/-- The number that a computation gave. -/
def ofFloat (x : Float) : Number := ⟨x.toBits⟩

/-- The number nearest to a natural number. -/
def ofNat (n : Nat) : Number := ofFloat (Float.ofNat n)

/-- The number nearest to an integer. -/
def ofInt (i : Int) : Number := ofFloat (Float.ofInt i)

/-- Whether the sign bit is set. -/
def isNegative (x : Number) : Bool := x.bits >>> 63 == 1

/-- The eleven bits of the exponent. -/
def exponentBits (x : Number) : Nat := (x.bits >>> 52).toNat % 2048

/-- The fifty-two bits of the fraction. -/
def fractionBits (x : Number) : Nat := x.bits.toNat % Nat.pow 2 52

/-- Neither infinite nor undefined. -/
def isFinite (x : Number) : Bool := x.exponentBits != 2047

/-- Sixteen hexadecimal digits of the bits. -/
def hex (x : Number) : String :=
  let digits := Nat.toDigits 16 x.bits.toNat
  "0x" ++ String.ofList (List.replicate (16 - digits.length) '0' ++ digits)

end Number

end Matchmaking
