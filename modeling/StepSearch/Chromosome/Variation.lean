import StepSearch.Chromosome
import StepSearch.Random.Draw

/-!
# Random variation of chromosomes

Random chromosomes, the three mutations and the crossover. A mutation visits the places of the
parent from left to right, makes one chance draw at each, and edits the chromosome as it goes; the
crossover draws one point. A value is therefore determined by the parents and the words drawn.
-/

namespace StepSearch

variable {σ : Type} [WordSource σ]

/-- A step of the catalog, all equally likely. -/
def Step.draw : Draw σ Step := do
  return Step.ofIndex (← Draw.exclusive 0 Step.all.length)

namespace Chromosome

/-- A chromosome of `length` random steps. -/
def drawSteps (length : Nat) : Draw σ Chromosome := do
  return ⟨← Draw.times length Step.draw⟩

/-- A random chromosome with a random length between the bounds. -/
def draw (least greatest : Nat) : Draw σ Chromosome := do
  if greatest < least then throw (.lengthBounds least greatest)
  else drawSteps (← Draw.inclusive least greatest)

/-! ### Mutations -/

/-- Replaces step `i` by a random one with the given chance. -/
def randomiseAt (p : Binary64) (mutant : Chromosome) (i : Nat) : Draw σ Chromosome := do
  if ← Draw.chance p then
    return mutant.replaceAt i (← Step.draw)
  else
    return mutant

/-- Replaces each step by a random one with the given chance. -/
def randomiseSteps (c : Chromosome) (p : Binary64) : Draw σ Chromosome :=
  (List.range c.length).foldlM (randomiseAt p) c

/-- Removes what was step `i` of the parent with the given chance. The removals so far have moved it
that many places down. -/
def deleteAt (p : Binary64) : Chromosome × Nat → Nat → Draw σ (Chromosome × Nat)
  | (mutant, removed), i => do
    if ← Draw.chance p then
      return (mutant.eraseAt (i - removed), removed + 1)
    else
      return (mutant, removed)

/-- Removes each step with the given chance. -/
def deleteSteps (c : Chromosome) (p : Binary64) : Draw σ Chromosome := do
  return (← (List.range c.length).foldlM (deleteAt p) (c, 0)).1

/-- Inserts a random step before what was step `i` of the parent with the given chance. The
insertions so far have moved it that many places up. -/
def addAt (p : Binary64) : Chromosome × Nat → Nat → Draw σ (Chromosome × Nat)
  | (mutant, added), i => do
    if ← Draw.chance p then
      return (mutant.insertAt (i + added) (← Step.draw), added + 1)
    else
      return (mutant, added)

/-- Inserts a random step before each step and at the end, each with the given chance. -/
def addSteps (c : Chromosome) (p : Binary64) : Draw σ Chromosome := do
  return (← (List.range (c.length + 1)).foldlM (addAt p) (c, 0)).1

/-! ### Crossover -/

/-- Splices the parents at a random point. The point lies between one and the length of the shorter
parent, or is zero if one of them is empty. -/
def crossover (a b : Chromosome) : Draw σ Chromosome := do
  let shorter := min a.length b.length
  let least := if 0 < shorter then 1 else 0
  return a.spliceAt b (← Draw.inclusive least shorter)

end Chromosome

end StepSearch
