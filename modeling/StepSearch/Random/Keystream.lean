import StepSearch.Random.Draw

/-!
# Generators

Two sources of words: the ChaCha keystream with twelve rounds under a key that is expanded from a
32-bit seed, and a finite list of words that is repeated for ever.
-/

namespace StepSearch

/-! ### The ChaCha block function -/

namespace ChaCha

/-- The state of the block function: sixteen words. -/
abbrev State := Vector UInt32 16

def rotateLeft (x : UInt32) (n : UInt32) : UInt32 :=
  (x <<< n) ||| (x >>> (32 - n))

/-- Mixes four words of the state. -/
def quarterRound (s : State) (a b c d : Fin 16) : State :=
  let s := s.set a (s[a] + s[b])
  let s := s.set d (rotateLeft (s[d] ^^^ s[a]) 16)
  let s := s.set c (s[c] + s[d])
  let s := s.set b (rotateLeft (s[b] ^^^ s[c]) 12)
  let s := s.set a (s[a] + s[b])
  let s := s.set d (rotateLeft (s[d] ^^^ s[a]) 8)
  let s := s.set c (s[c] + s[d])
  s.set b (rotateLeft (s[b] ^^^ s[c]) 7)

/-- Two rounds: the columns of the state, then its diagonals. -/
def doubleRound (s : State) : State :=
  let s := quarterRound s 0 4 8 12
  let s := quarterRound s 1 5 9 13
  let s := quarterRound s 2 6 10 14
  let s := quarterRound s 3 7 11 15
  let s := quarterRound s 0 5 10 15
  let s := quarterRound s 1 6 11 12
  let s := quarterRound s 2 7 8 13
  quarterRound s 3 4 9 14

/-- The state that a block starts from: four constants, the key, a 64-bit counter, no nonce. -/
def start (key : Vector UInt32 8) (counter : UInt64) : State :=
  let constants : Vector UInt32 4 := #v[0x61707865, 0x3320646e, 0x79622d32, 0x6b206574]
  constants ++ key ++ #v[counter.toUInt32, (counter >>> 32).toUInt32, 0, 0]

/-- The words of one block, after twelve rounds. -/
def block (key : Vector UInt32 8) (counter : UInt64) : List UInt32 :=
  let s := start key counter
  let mixed := Nat.repeat doubleRound 6 s
  (Vector.zipWith (· + ·) mixed s).toList

end ChaCha

/-! ### Seeded generator -/

/-- A ChaCha keystream: the words left of the current block, and the number of the next block. -/
structure Keystream where
  key : Vector UInt32 8
  counter : UInt64 := 0
  pending : List UInt32 := []

namespace Keystream

instance : WordSource Keystream where
  next k :=
    match k.pending with
    | w :: rest => (w, { k with pending := rest })
    | [] =>
      let words := ChaCha.block k.key k.counter
      (words.headD 0, { k with counter := k.counter + 1, pending := words.tail })

/-- One step of the linear congruential generator that expands a seed. -/
def advanceSeed (state : UInt64) : UInt64 :=
  state * 6364136223846793005 + 11634580027462260723

/-- The word read from a state of the seed generator: bits picked by shifts, rotated by the top
five bits. -/
def seedWord (state : UInt64) : UInt32 :=
  let x := (((state >>> 18) ^^^ state) >>> 27).toUInt32
  let n := (state >>> 59).toUInt32
  (x >>> n) ||| (x <<< ((32 - n) % 32))

/-- The state of the seed generator after `n` steps. -/
def seedState (seed : UInt64) (n : Nat) : UInt64 :=
  Nat.repeat advanceSeed n seed

/-- The keystream of a seed. -/
def ofSeed (seed : UInt32) : Keystream where
  key := Vector.ofFn fun i => seedWord (seedState seed.toUInt64 (i + 1))

end Keystream

/-! ### Scripted generator -/

/-- A list of words that is repeated for ever. An empty list counts as a list of zeros. -/
structure Script where
  words : Array UInt32
  position : Nat := 0

instance : WordSource Script where
  next s := (s.words.getD (s.position % s.words.size) 0, { s with position := s.position + 1 })

/-- A generator of either kind. -/
instance {σ τ : Type} [WordSource σ] [WordSource τ] : WordSource (σ ⊕ τ) where
  next
    | .inl s => (WordSource.next s).map id .inl
    | .inr t => (WordSource.next t).map id .inr

end StepSearch
