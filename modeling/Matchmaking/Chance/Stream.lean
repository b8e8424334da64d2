/-!
# A stream of random words

Random numbers are read from the key stream of a cipher, so that the same seed gives the same
numbers everywhere. A block of sixteen words comes from the key and the number of the block: four
constants, the key and the number are stirred in twelve rounds, and what they were is added to
what they have become. The stream is the sequence of blocks 0, 1, 2, ….
-/

namespace Matchmaking.Chance

/-- The words that are stirred together. -/
abbrev Block := Vector UInt32 16

namespace Block

/-- A word whose bits are shifted around to the left. -/
def rotate (x : UInt32) (k : UInt32) : UInt32 := (x <<< k) ||| (x >>> (32 - k))

/-- One move of a quarter round: adds `b` to `a`, and mixes `a` into `d`. -/
def mix (s : Block) (a b d : Fin 16) (k : UInt32) : Block :=
  let sum := s[a] + s[b]
  let s := s.set a sum
  s.set d (rotate (s[d] ^^^ sum) k)

/-- Stirs four words. -/
def quarter (s : Block) (a b c d : Fin 16) : Block :=
  let s := s.mix a b d 16
  let s := s.mix c d b 12
  let s := s.mix a b d 8
  s.mix c d b 7

/-- Stirs the four columns and then the four diagonals: two rounds. -/
def twoRounds (s : Block) : Block :=
  let s := s.quarter 0 4 8 12
  let s := s.quarter 1 5 9 13
  let s := s.quarter 2 6 10 14
  let s := s.quarter 3 7 11 15
  let s := s.quarter 0 5 10 15
  let s := s.quarter 1 6 11 12
  let s := s.quarter 2 7 8 13
  s.quarter 3 4 9 14

/-- Stirs a block in twelve rounds and adds what it was. -/
def stir (s : Block) : Block := Vector.zipWith (· + ·) (Nat.repeat twoRounds 6 s) s

end Block

/-- The eight words of a key. -/
abbrev Key := Vector UInt32 8

namespace Key

/-- The state from which the next word of a key is made. -/
def nextState (state : UInt64) : UInt64 := state * 6364136223846793005 + 11634580027462260723

/-- The word of a key that a state gives. -/
def wordOf (state : UInt64) : UInt32 :=
  let x := (((state >>> 18) ^^^ state) >>> 27).toUInt32
  let k := (state >>> 59).toUInt32
  (x >>> k) ||| (x <<< ((32 - k) % 32))

/-- The key of a seed: word `i` is made from the state after `i + 1` steps. -/
def ofSeed (seed : UInt64) : Key :=
  Vector.ofFn fun i => wordOf (Nat.repeat nextState (i.val + 1) seed)

/-- The block of a number before it is stirred. -/
def block (key : Key) (n : Nat) : Block :=
  #v[0x61707865, 0x3320646e, 0x79622d32, 0x6b206574,
    key[0], key[1], key[2], key[3], key[4], key[5], key[6], key[7],
    UInt32.ofNat n, UInt32.ofNat (n / Nat.pow 2 32), 0, 0]

/-- Word `i` of the stream. -/
def word (key : Key) (i : Nat) : UInt32 :=
  (key.block (i / 16)).stir.get ⟨i % 16, Nat.mod_lt i (by decide)⟩

end Key

/-! ## Reading the stream -/

/-- A reader of a stream. -/
structure Source where
  /-- The key of the stream. -/
  key : Key
  /-- The number of words that were read. -/
  position : Nat
  deriving DecidableEq, Repr

namespace Source

/-- The beginning of the stream of a seed. -/
def ofSeed (seed : UInt64) : Source := ⟨.ofSeed seed, 0⟩

/-- Reads a word. -/
def word (s : Source) : UInt32 × Source :=
  (s.key.word s.position, { s with position := s.position + 1 })

/-- Reads two words as one number of 64 bits, the low word first. -/
def long (s : Source) : Nat × Source :=
  let (low, s) := s.word
  let (high, s) := s.word
  (high.toNat * Nat.pow 2 32 + low.toNat, s)

/-- Reads a number below `n`: the high part of a word times `n`. If the low part is so large that
one more word could carry into the high part, that word is read too. -/
def below (n : Nat) (s : Source) : Nat × Source :=
  let (w, s) := s.word
  let high := w.toNat * n / Nat.pow 2 32
  let low := w.toNat * n % Nat.pow 2 32
  if Nat.pow 2 32 - n < low then
    let (w, s) := s.word
    (if Nat.pow 2 32 - 1 < low + w.toNat * n / Nat.pow 2 32 then high + 1 else high, s)
  else (high, s)

/-- Reads one of some things; `fallback` if there are none. -/
def oneOf {α : Type} (choices : List α) (fallback : α) (s : Source) : α × Source :=
  let (i, s) := s.below choices.length
  (choices.getD i fallback, s)

/-- Reads a number from 0 to 1, excluding 1, in steps of 2^-52. -/
def unit (s : Source) : Float × Source :=
  let (n, s) := s.long
  (Float.ofBits (UInt64.ofNat (1023 * Nat.pow 2 52 + n / Nat.pow 2 12)) - 1.0, s)

/-- Reads whether something happens that happens `share` times in 2^64. -/
def chance (share : Nat) (s : Source) : Bool × Source :=
  let (n, s) := s.long
  (decide (n < share), s)

end Source

end Matchmaking.Chance
