import StepSearch.Number.Binary64

/-!
# Random draws

A source of random words and the draws made from it. A draw takes words from the front of the source
and gives a value, or finds that it was asked for something impossible; words that were taken before
that stay taken. Nothing else about the source is known, so a statement about a draw speaks of every
sequence of words.
-/

namespace StepSearch

/-- An endless supply of 32-bit words: `next` gives the first one and the supply behind it. -/
class WordSource (σ : Type) where
  next : σ → UInt32 × σ

/-- What a draw cannot do, whatever the words are. -/
inductive Misuse where
  | emptyRange
  /-- A chance lies outside `[0, 1]`. -/
  | chanceOutOfRange (chance : Binary64)
  | emptyPool
  | lengthBounds (least greatest : Nat)
deriving DecidableEq, Repr

/-- A value that depends on the words of a source. -/
abbrev Draw (σ : Type) := ExceptT Misuse (StateM σ)

namespace Draw

variable {σ : Type} {α : Type}

def times (n : Nat) (draw : Draw σ α) : Draw σ (List α) :=
  match n with
  | 0 => return []
  | n + 1 => do
    let value ← draw
    let values ← times n draw
    return value :: values

variable [WordSource σ]

/-- The next word of the source. -/
def word : Draw σ Nat := do
  let (w, rest) := WordSource.next (← get)
  set rest
  return w.toNat

/-- A 64-bit word: the next word is its low half, the one after that its high half. -/
def doubleWord : Draw σ Nat := do
  let low ← word
  let high ← word
  return low + high * Nat.pow 2 32

/-! ### Whole numbers -/

/-- How many bits a number is scaled from. -/
inductive Width where
  | single
  | double
deriving DecidableEq, Repr

def Width.size : Width → Nat
  | .single => Nat.pow 2 32
  | .double => Nat.pow 2 64

/-- Single words serve for numbers up to `2 ^ 32 - 1`. -/
def Width.ofBound (bound : Nat) : Width :=
  if bound < Nat.pow 2 32 then .single else .double

def Width.draw : Width → Draw σ Nat
  | .single => word
  | .double => doubleWord

/-- A number below `n`: a word is scaled by `n`, and where its cut-off part could still carry, a
second word decides. -/
def below (width : Width) (n : Nat) : Draw σ Nat := do
  let product := (← width.draw) * n
  let result := product / width.size
  let cutOff := product % width.size
  if width.size - n < cutOff then
    let second ← width.draw
    return if width.size ≤ cutOff + second * n / width.size then result + 1 else result
  else
    return result

/-- A number from `low` to `high`, both included. -/
def inclusive (low high : Nat) : Draw σ Nat := do
  if high < low then throw .emptyRange
  else return low + (← below (.ofBound high) (high - low + 1))

/-- A number from `low` to `high`, the upper end excluded. The upper end still chooses the width. -/
def exclusive (low high : Nat) : Draw σ Nat := do
  if high ≤ low then throw .emptyRange
  else return low + (← below (.ofBound high) (high - low))

/-! ### Chances -/

/-- True with the given chance. A chance of one is true without a word; every other one is compared
with a 64-bit word. -/
def chance (p : Binary64) : Draw σ Bool := do
  if p = .one then return true
  else match p.fraction64? with
    | none => throw (.chanceOutOfRange p)
    | some threshold => return (← doubleWord) < threshold

end Draw

end StepSearch
