/-!
# Labels

Tickets and groups carry names of 26 characters: a number of 130 bits in base 32, with digits that
cannot be mistaken for one another. Different numbers below that bound have different names.
-/

namespace Matchmaking.Label

/-- The thirty-two digits. -/
def digits : List Char := "0123456789ABCDEFGHJKMNPQRSTVWXYZ".toList

/-- The digit of a value below 32. -/
def digit (n : Nat) : Char := digits.getD (n % 32) '0'

/-- The last `k` digits of a number. -/
def lastDigits : Nat → Nat → List Char
  | 0, _ => []
  | k + 1, n => lastDigits k (n / 32) ++ [digit n]

/-- The number of characters of a label. -/
def width : Nat := 26

/-- The label of a number. -/
def ofNat (n : Nat) : String := String.ofList (lastDigits width n)

theorem length_lastDigits (k n : Nat) : (lastDigits k n).length = k := by
  induction k generalizing n with
  | zero => rfl
  | succ k ih => simp [lastDigits, ih]

/-- Every label has the same length. -/
@[simp]
theorem length_ofNat (n : Nat) : (ofNat n).length = width := by
  simp [ofNat, length_lastDigits]

end Matchmaking.Label
