import Mathlib.Algebra.BigOperators.Group.List.Basic
import Mathlib.Algebra.Ring.Int.Defs
import Mathlib.Algebra.Ring.Nat

/-!
# Machine numbers

Counts and sizes are words of 64 bits, sets of candidates and counters of intervals are half words,
and sums of milliseconds are signed numbers of 128 bits. An operation on them is written with its
operands as exact numbers; it gives nothing if its exact result is no machine number. A program
in which every operation may fail is compared with the one that calculates exactly by equations, one
for each of its loops.
-/

namespace Matchmaking

namespace Machine

/-! ## Operations -/

/-- The word that a number is, if it is one. -/
def word? (n : Nat) : Option Nat := if n < 2 ^ 64 then some n else none

/-- The sum of two words, if it is one. -/
def add? (x y : Nat) : Option Nat := word? (x + y)

/-- The difference of two words; it gives nothing below zero. -/
def sub? (x y : Nat) : Option Nat := if y ≤ x then some (x - y) else none

/-- The product of two words, if it is one. -/
def mul? (x y : Nat) : Option Nat := word? (x * y)

/-- The remainder of a division; it gives nothing if the divisor is zero. -/
def rem? (x y : Nat) : Option Nat := if y = 0 then none else some (x % y)

/-- The lowest bit of a half word moved up. -/
def bit? (n : Nat) : Option Nat := if n < 32 then some (2 ^ n) else none

/-- One more than a half word. -/
def next? (n : Nat) : Option Nat := if n + 1 < 2 ^ 32 then some (n + 1) else none

/-- A signed number of 128 bits. -/
def IsWide (x : Int) : Prop := -2 ^ 127 ≤ x ∧ x < 2 ^ 127

instance (x : Int) : Decidable (IsWide x) := inferInstanceAs (Decidable (_ ∧ _))

/-- The number of 128 bits that a number is, if it is one. -/
def wide? (x : Int) : Option Int := if IsWide x then some x else none

/-- The sum of two numbers of 128 bits, if it is one. -/
def addWide? (x y : Int) : Option Int := wide? (x + y)

/-- The product of two numbers of 128 bits, if it is one. -/
def mulWide? (x y : Int) : Option Int := wide? (x * y)

section

variable {x y n : Nat} {a b : Int}

theorem add?_eq (h : x + y < 2 ^ 64) : add? x y = some (x + y) := if_pos h

theorem eq_of_add? {z : Nat} (h : add? x y = some z) : z = x + y := by
  unfold add? word? at h
  split at h
  · exact (Option.some.inj h).symm
  · cases h

theorem sub?_eq (h : y ≤ x) : sub? x y = some (x - y) := if_pos h

theorem mul?_eq (h : x * y < 2 ^ 64) : mul? x y = some (x * y) := if_pos h

theorem mul?_eq_none (h : 2 ^ 64 ≤ x * y) : mul? x y = none := if_neg (Nat.not_lt.2 h)

theorem rem?_eq (h : y ≠ 0) : rem? x y = some (x % y) := if_neg h

theorem bit?_eq (h : n < 32) : bit? n = some (2 ^ n) := if_pos h

theorem next?_eq (h : n + 1 < 2 ^ 32) : next? n = some (n + 1) := if_pos h

theorem addWide?_eq (h : IsWide (a + b)) : addWide? a b = some (a + b) := if_pos h

theorem mulWide?_eq (h : IsWide (a * b)) : mulWide? a b = some (a * b) := if_pos h

end

/-! ## Adding up -/

/-- The sum of some words, added up one after the other. -/
def sum? (start : Nat) (xs : List Nat) : Option Nat := xs.foldlM add? start

theorem sum?_eq {start : Nat} {xs : List Nat} (h : start + xs.sum < 2 ^ 64) :
    sum? start xs = some (start + xs.sum) := by
  induction xs generalizing start with
  | nil => rfl
  | cons x rest ih =>
    rw [List.sum_cons] at h
    have hadd : add? start x = some (start + x) := add?_eq (by omega)
    rw [sum?, List.foldlM_cons, hadd, List.sum_cons, ← Nat.add_assoc]
    exact ih (by omega)

/-- The number of some things, counted one after the other. -/
def length? {α : Type} (xs : List α) : Option Nat := sum? 0 (xs.map fun _ => 1)

theorem length?_eq {α : Type} {xs : List α} (h : xs.length < 2 ^ 64) :
    length? xs = some xs.length := by
  have hsum : (xs.map fun _ => 1).sum = xs.length := by
    rw [List.map_const', List.sum_replicate_nat, Nat.mul_one]
  rw [length?, sum?_eq (by omega), hsum, Nat.zero_add]

/-- The sum of some numbers of 128 bits, added up one after the other. -/
def wideSum? (start : Int) (xs : List Int) : Option Int := xs.foldlM addWide? start

/-- A millisecond as the machine keeps it. -/
def IsMillis (x : Int) : Prop := -2 ^ 63 ≤ x ∧ x < 2 ^ 63

/-- A number is no further from zero than `n` milliseconds together. -/
def IsMillisTimes (n : Nat) (x : Int) : Prop := -2 ^ 63 * (n : Int) ≤ x ∧ x ≤ 2 ^ 63 * (n : Int)

theorem IsMillisTimes.add {n : Nat} {x y : Int} (hx : IsMillisTimes n x) (hy : IsMillis y) :
    IsMillisTimes (n + 1) (x + y) := by
  unfold IsMillisTimes IsMillis at *
  omega

theorem IsMillisTimes.isWide {n : Nat} {x : Int} (h : IsMillisTimes n x) (hn : n ≤ 32) :
    IsWide x := by
  unfold IsMillisTimes IsWide at *
  omega

theorem isMillisTimes_sum {xs : List Int} (h : ∀ x ∈ xs, IsMillis x) :
    IsMillisTimes xs.length xs.sum := by
  induction xs with
  | nil => simp [IsMillisTimes]
  | cons x rest ih =>
    obtain ⟨hx, hrest⟩ := List.forall_mem_cons.1 h
    rw [List.sum_cons, List.length_cons, Int.add_comm]
    exact (ih hrest).add hx

theorem wideSum?_eq {start : Int} {xs : List Int} {n : Nat} (hstart : IsMillisTimes n start)
    (h : ∀ x ∈ xs, IsMillis x) (hn : n + xs.length ≤ 32) :
    wideSum? start xs = some (start + xs.sum) := by
  -- after n numbers the sum is no further from zero than n milliseconds
  induction xs generalizing start n with
  | nil => rw [wideSum?, List.foldlM_nil, List.sum_nil, Int.add_zero]; rfl
  | cons x rest ih =>
    obtain ⟨hx, hrest⟩ := List.forall_mem_cons.1 h
    rw [List.length_cons] at hn
    have hnext := hstart.add hx
    rw [wideSum?, List.foldlM_cons, addWide?_eq (hnext.isWide (by omega)), List.sum_cons,
      ← Int.add_assoc]
    exact ih hnext hrest (by omega)

/-- The product of the sum of at most 16 milliseconds and a number up to 16. -/
theorem IsMillisTimes.isWide_mul {n m : Nat} {x : Int} (h : IsMillisTimes n x) (hn : n ≤ 16)
    (hm : m ≤ 16) : IsWide (x * m) := by
  obtain ⟨hlow, hhigh⟩ := h
  have hm' : (m : Int) ≤ 16 := by omega
  have hpos : (0 : Int) ≤ m := by omega
  have habove : x * m ≤ 2 ^ 67 * 16 :=
    Int.mul_le_mul (by omega) hm' hpos (by decide)
  have hbelow : -x * m ≤ 2 ^ 67 * 16 :=
    Int.mul_le_mul (by omega) hm' hpos (by decide)
  rw [Int.neg_mul] at hbelow
  unfold IsWide
  omega

/-! ## Loops -/

section

variable {α β σ : Type} {l : List α}

theorem mapM_eq_some {f : α → Option β} {g : α → β} (h : ∀ x ∈ l, f x = some (g x)) :
    l.mapM f = some (l.map g) := by
  induction l with
  | nil => rfl
  | cons x rest ih =>
    obtain ⟨hx, hrest⟩ := List.forall_mem_cons.1 h
    rw [List.mapM_cons, hx, ih hrest]
    rfl

theorem anyM_eq_some {f : α → Option Bool} {g : α → Bool} (h : ∀ x ∈ l, f x = some (g x)) :
    l.anyM f = some (l.any g) := by
  induction l with
  | nil => rfl
  | cons x rest ih =>
    obtain ⟨hx, hrest⟩ := List.forall_mem_cons.1 h
    rw [List.anyM, hx, List.any_cons]
    cases g x with
    | true => rfl
    | false => exact ih hrest

theorem allM_eq_some {f : α → Option Bool} {g : α → Bool} (h : ∀ x ∈ l, f x = some (g x)) :
    l.allM f = some (l.all g) := by
  induction l with
  | nil => rfl
  | cons x rest ih =>
    obtain ⟨hx, hrest⟩ := List.forall_mem_cons.1 h
    rw [List.allM, hx, List.all_cons]
    cases g x with
    | true => exact ih hrest
    | false => rfl

theorem findSomeM?_eq_some {f : α → Option (Option β)} {g : α → Option β}
    (h : ∀ x ∈ l, f x = some (g x)) : l.findSomeM? f = some (l.findSome? g) := by
  induction l with
  | nil => rfl
  | cons x rest ih =>
    obtain ⟨hx, hrest⟩ := List.forall_mem_cons.1 h
    rw [List.findSomeM?, hx, List.findSome?_cons]
    cases g x with
    | none => exact ih hrest
    | some y => rfl

theorem foldlM_eq_some {f : σ → α → Option σ} {g : σ → α → σ} {P : σ → Prop} {s : σ}
    (hs : P s) (hstep : ∀ s, P s → ∀ x ∈ l, f s x = some (g s x) ∧ P (g s x)) :
    l.foldlM f s = some (l.foldl g s) := by
  induction l generalizing s with
  | nil => rfl
  | cons x rest ih =>
    obtain ⟨heq, hnext⟩ := hstep s hs x List.mem_cons_self
    rw [List.foldlM_cons, heq, List.foldl_cons]
    exact ih hnext fun s hs y hy => hstep s hs y (List.mem_cons_of_mem x hy)

end

end Machine

end Matchmaking
