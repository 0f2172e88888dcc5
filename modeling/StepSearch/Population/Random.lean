import StepSearch.Chromosome.Variation
import StepSearch.Population

/-!
# Random populations

Populations of random chromosomes, and the replacement of repeated chromosomes by random ones.
-/

namespace StepSearch

variable {σ : Type} [WordSource σ]

/-- The individual of a random chromosome with a length between the bounds. -/
def Individual.draw (metric : Metric) (least greatest : Nat) : Draw σ Individual := do
  return .ofChromosome metric (← Chromosome.draw least greatest)

namespace Population

/-- `size` random individuals with lengths between the bounds. -/
def draw (metric : Metric) (size least greatest : Nat) : Draw σ Population := do
  return ⟨metric, ← Draw.times size (Individual.draw metric least greatest)⟩

/-- Replaces every individual whose chromosome is among `seen` or belongs to an earlier individual
by a random one. -/
def replaceRepeats (metric : Metric) (least greatest : Nat) (seen : List Chromosome) :
    List Individual → Draw σ (List Individual)
  | [] => return []
  | i :: rest =>
    if i.chromosome ∈ seen then do
      let substitute ← Individual.draw metric least greatest
      return substitute :: (← replaceRepeats metric least greatest seen rest)
    else do
      return i :: (← replaceRepeats metric least greatest (i.chromosome :: seen) rest)

/-- Replaces every individual whose chromosome belongs to an earlier one by a random individual with
a length between the bounds. A replacement may repeat another chromosome by chance. -/
def randomiseDuplicates (p : Population) (least greatest : Nat) : Draw σ Population := do
  return ⟨p.metric, ← replaceRepeats p.metric least greatest [] p.individuals⟩

/-- The number of individuals whose chromosome is among `seen` or belongs to an earlier one. -/
def countRepeats (seen : List Chromosome) : List Individual → Nat
  | [] => 0
  | i :: rest =>
    if i.chromosome ∈ seen then countRepeats seen rest + 1
    else countRepeats (i.chromosome :: seen) rest

/-- The number of individuals whose chromosome belongs to an earlier one. -/
def duplicateCount (p : Population) : Nat :=
  countRepeats [] p.individuals

end Population

end StepSearch
