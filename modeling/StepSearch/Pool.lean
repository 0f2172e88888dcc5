import StepSearch.Failure

/-!
# Pools

How many individuals of a population belong to a pool that is given as a fraction, the division of a
population into an elite, a mutation and a crossover pool, and the choice of parents from a pool.
-/

namespace StepSearch

namespace Pool

/-- A share this little above a whole number of individuals counts as that number. -/
def tolerance : Binary64 := .ofRatio false 1 (Nat.pow 10 9)

/-- The number of individuals in a fraction of `size`, rounded up and at most `size`. Negative
fractions and NaN give nobody. -/
def count (fraction : Binary64) (size : Nat) : Nat :=
  if fraction.isNaN || fraction.le .zero then 0
  else min ((fraction.mul (.ofNat size)).sub tolerance).ceilToNat size

/-- The fraction of `size` individuals that a single one is. -/
def defaultElite (size : Nat) : Binary64 :=
  Binary64.one.div (.ofNat size)

end Pool

/-- The numbers of individuals in the three pools. -/
structure PoolSizes where
  elite : Nat
  mutation : Nat
  crossover : Nat
deriving DecidableEq, Repr

/-- Divides `size` individuals. The elite is the fraction that the other two pools leave, and at
least one individual; the mutation pool comes next, and the crossover pool is the rest. -/
def PoolSizes.partition (size : Nat) (mutation crossover : Binary64) : PoolSizes :=
  if size = 0 then ⟨0, 0, 0⟩
  else
    let elite := max (Pool.count ((Binary64.one.sub mutation).sub crossover) size) 1
    let mutants := min (Pool.count mutation size) (size - elite)
    ⟨elite, mutants, size - elite - mutants⟩

namespace Pool

variable {σ : Type} [WordSource σ]

/-- The place of a parent among the given number of candidates, all equally likely. -/
def selectParent (candidates : Nat) : Draw σ Nat := do
  if candidates = 0 then throw .emptyPool
  else Draw.exclusive 0 candidates

/-- The places of two parents, drawn one after the other. Both may be the same. -/
def selectParents (candidates : Nat) : Draw σ (Nat × Nat) := do
  let first ← selectParent candidates
  let second ← selectParent candidates
  return (first, second)

end Pool

end StepSearch
