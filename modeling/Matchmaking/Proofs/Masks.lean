import Mathlib.Data.Nat.Bitwise
import Matchmaking.Proofs.Words

/-!
# Sets as half words

A set of things in a list is a half word that has a bit for each of them, the lowest one for the
first. Counting up goes through all sets, and the first thing changes fastest.
-/

namespace Matchmaking

namespace Machine

variable {α : Type} {xs : List α} {mask i : Nat}

/-- Whether a set has a thing, by the bit of the thing. -/
def has? (mask i : Nat) : Option Bool := do
  let bit ← bit? i
  return mask &&& bit != 0

/-- The things of a set, tested one after the other; the first one has the i-th bit. -/
def pick? (mask : Nat) : Nat → List α → Option (List α)
  | _, [] => some []
  | i, x :: rest => do
    let chosen ← has? mask i
    let more ← pick? mask (i + 1) rest
    return if chosen then x :: more else more

/-- The things of a set; the first one has the lowest bit. -/
def pick : Nat → List α → List α
  | _, [] => []
  | mask, x :: rest => if mask.testBit 0 then x :: pick (mask / 2) rest else pick (mask / 2) rest

theorem and_two_pow_ne_zero (mask i : Nat) : (mask &&& 2 ^ i != 0) = mask.testBit i := by
  have hpos := Nat.two_pow_pos i
  rw [Nat.and_two_pow]
  cases mask.testBit i with
  | true => simp
  | false => simp

theorem has?_eq (h : i < 32) : has? mask i = some (mask.testBit i) := by
  rw [has?, bit?_eq h]
  exact congrArg some (and_two_pow_ne_zero mask i)

theorem half_div_two_pow (mask i : Nat) : mask / 2 ^ i / 2 = mask / 2 ^ (i + 1) := by
  rw [Nat.div_div_eq_div_mul, Nat.pow_succ]

theorem testBit_zero_div_two_pow (mask i : Nat) : (mask / 2 ^ i).testBit 0 = mask.testBit i := by
  rw [Nat.testBit_div_two_pow, Nat.zero_add]

theorem pick?_eq (h : i + xs.length ≤ 32) :
    pick? mask i xs = some (pick (mask / 2 ^ i) xs) := by
  induction xs generalizing i with
  | nil => rfl
  | cons x rest ih =>
    rw [List.length_cons] at h
    rw [pick?, has?_eq (by omega), ih (by omega), pick, half_div_two_pow, testBit_zero_div_two_pow]
    rfl

theorem pick?_zero_eq (h : xs.length ≤ 32) : pick? mask 0 xs = some (pick mask xs) := by
  rw [pick?_eq (by omega), Nat.pow_zero, Nat.div_one]

theorem pick_sublist (mask : Nat) (xs : List α) : (pick mask xs).Sublist xs := by
  induction xs generalizing mask with
  | nil => exact .slnil
  | cons x rest ih =>
    rw [pick]
    split
    · exact (ih _).cons_cons x
    · exact (ih _).cons x

theorem pick_zero (xs : List α) : pick 0 xs = [] := by
  induction xs with
  | nil => rfl
  | cons x rest ih =>
    rw [pick, Nat.zero_testBit, if_neg Bool.false_ne_true]
    exact ih

/-- Only the set without bits has no things. -/
theorem pick_ne_nil (hpos : 0 < mask) (h : mask < 2 ^ xs.length) : pick mask xs ≠ [] := by
  induction xs generalizing mask with
  | nil =>
    rw [List.length_nil, Nat.pow_zero] at h
    omega
  | cons x rest ih =>
    rw [List.length_cons, Nat.pow_succ] at h
    rw [pick]
    split
    · exact List.cons_ne_nil _ _
    · rename_i hbit
      rw [Nat.testBit_zero, decide_eq_true_eq] at hbit
      exact ih (by omega) (by omega)

/-- Counting up, the lowest bit changes fastest. -/
theorem range_two_mul (n : Nat) :
    List.range (2 * n) = (List.range n).flatMap fun m => [2 * m, 2 * m + 1] := by
  induction n with
  | zero => rfl
  | succ n ih =>
    have hsucc : List.range (2 * (n + 1)) = List.range (2 * n) ++ [2 * n, 2 * n + 1] := by
      rw [Nat.mul_add, List.range_succ, List.range_succ, List.append_assoc]
      rfl
    rw [hsucc, ih, List.range_succ, List.flatMap_append, List.flatMap_singleton]

/-- All sets of the things of a list with one more thing in front. -/
theorem range_two_pow_succ (n : Nat) :
    List.range (2 ^ (n + 1)) = (List.range (2 ^ n)).flatMap fun m => [2 * m, 2 * m + 1] := by
  rw [Nat.pow_succ, Nat.mul_comm, range_two_mul]

theorem testBit_two_mul (mask : Nat) : (2 * mask).testBit 0 = false := by simp

theorem testBit_two_mul_add_one (mask : Nat) : (2 * mask + 1).testBit 0 = true := by simp

theorem half_two_mul_add_one (mask : Nat) : (2 * mask + 1) / 2 = mask := by omega

theorem pick_two_mul (mask : Nat) (x : α) (rest : List α) :
    pick (2 * mask) (x :: rest) = pick mask rest := by
  rw [pick, testBit_two_mul, if_neg Bool.false_ne_true, Nat.mul_div_cancel_left mask (by decide)]

theorem pick_two_mul_add_one (mask : Nat) (x : α) (rest : List α) :
    pick (2 * mask + 1) (x :: rest) = x :: pick mask rest := by
  rw [pick, testBit_two_mul_add_one, if_pos rfl, half_two_mul_add_one]

/-- All sets but the one without things. -/
theorem range_two_pow_eq_cons (n : Nat) :
    List.range (2 ^ n) = 0 :: List.range' 1 (2 ^ n - 1) := by
  have hpos := Nat.two_pow_pos n
  obtain ⟨k, hk⟩ := Nat.exists_eq_succ_of_ne_zero hpos.ne'
  rw [hk, List.range_eq_range', List.range'_succ]
  rfl

end Machine

end Matchmaking
