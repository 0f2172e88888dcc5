import StepSearch.Population.Random
import StepSearch.Strategy.Options

/-!
# The generational elitist strategy with exclusive pools

Each round the population is ranked and divided into three pools. The elite survives unchanged;
every place of the mutation pool is taken by a mutant of one elite parent, every place of the
crossover pool by the crossover of two. Mutants are made first, and the population keeps its size.
-/

namespace StepSearch

variable {σ : Type} [WordSource σ]

/-- The three ways to change one chromosome. -/
inductive Mutation where
  | randomisation
  | deletion
  | addition
deriving DecidableEq, Repr

structure Gewep where
  options : GewepOptions
  valid : options.validate = .ok ()

/-- The chromosome at a place of a pool. A place past the end counts as an empty chromosome. -/
def Pool.chromosomeAt (pool : List Individual) (i : Nat) : Chromosome :=
  (pool[i]?.map Individual.chromosome).getD ⟨[]⟩

namespace Gewep

def ofOptions (options : GewepOptions) : Except ConfigurationFault Gewep :=
  match h : options.validate with
  | .ok () => .ok ⟨options, h⟩
  | .error fault => .error fault

/-- The pools of a population of `size` individuals. -/
def pools (g : Gewep) (size : Nat) : PoolSizes :=
  .partition size g.options.mutationPool g.options.crossoverPool

/-- Chooses how to change a chromosome: whether at random, and if not, whether by deletion. -/
def chooseMutation (g : Gewep) : Draw σ Mutation := do
  if ← Draw.chance g.options.randomisationChance then return .randomisation
  else if ← Draw.chance g.options.deletionChance then return .deletion
  else return .addition

def mutate (g : Gewep) (parent : Chromosome) : Draw σ Chromosome := do
  match ← g.chooseMutation with
  | .randomisation => parent.randomiseSteps g.options.stepsToRandomise
  | .deletion => parent.deleteSteps g.options.stepsToAddOrDelete
  | .addition => parent.addSteps g.options.stepsToAddOrDelete

def mutant (g : Gewep) (elite : List Individual) : Draw σ Chromosome := do
  let place ← Pool.selectParent elite.length
  g.mutate (Pool.chromosomeAt elite place)

def crossChild (elite : List Individual) : Draw σ Chromosome := do
  let (first, second) ← Pool.selectParents elite.length
  (Pool.chromosomeAt elite first).crossover (Pool.chromosomeAt elite second)

/-- The next generation, with the elite given: the elite, its mutants, its crossover children. -/
def breed (g : Gewep) (metric : Metric) (pools : PoolSizes) (elite : List Individual) :
    Draw σ Population := do
  let mutants ← Draw.times pools.mutation (g.mutant elite)
  let children ← Draw.times pools.crossover (crossChild elite)
  return ⟨metric, elite ++ (mutants ++ children).map (Individual.ofChromosome metric)⟩

def advance (g : Gewep) (p : Population) : Search σ Population :=
  if p.isEmpty then Search.fail (.invariant .emptyForGewep)
  else
    let pools := g.pools p.size
    Search.ofDraw (g.breed p.metric pools (p.ranked.individuals.take pools.elite))

end Gewep

end StepSearch
