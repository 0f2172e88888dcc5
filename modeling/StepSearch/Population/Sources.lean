import StepSearch.FileStore.Chromosomes
import StepSearch.Population.Random
import StepSearch.Strategy.Options

/-!
# Initial populations

The initial population is put together from three sources: chromosomes that are given one by one,
random chromosomes, and population files.
-/

namespace StepSearch

/-- Where the initial population comes from. -/
structure PopulationSources where
  leastLength : Nat := 0
  greatestLength : Nat := 0
  /-- The chromosomes given one by one. -/
  chromosomes : List String := []
  /-- Numbers of random chromosomes; they are added up as 64-bit words. -/
  randomCounts : List Nat := []
  files : List String := []
deriving DecidableEq, Repr

namespace PopulationSources

def randomCount (s : PopulationSources) : Nat :=
  s.randomCounts.foldr (· + ·) 0 % Nat.pow 2 64

/-- The individuals of the chromosomes given one by one. -/
def ofTexts (metric : Metric) (texts : List String) : Except SearchError Population :=
  ((Chromosome.parseAll texts).map (Population.ofChromosomes metric)).mapError .invalidChromosome

/-- The individuals in a population file. -/
def ofFile (metric : Metric) (files : FileStore) (path : String) : Except SearchError Population :=
  (files.readChromosomes path).map (Population.ofChromosomes metric)

def join (p q : Population) : Except SearchError Population :=
  (p.union q).mapError .invariant

/-- The population followed by the individuals of a population file. -/
def addFile (files : FileStore) (p : Population) (path : String) :
    Except SearchError Population := do
  join p (← ofFile p.metric files path)

/-- The initial population: the given chromosomes, the random ones, the files in their order. The
bounds and the given chromosomes are checked before anything is drawn. -/
def build {σ : Type} [WordSource σ] (s : PopulationSources) (metric : Metric) (files : FileStore) :
    Search σ Population := do
  Search.ofExcept ((checkLengths s.leastLength s.greatestLength).mapError .configuration)
  let given ← Search.ofExcept (ofTexts metric s.chromosomes)
  let random ← Search.ofDraw
    (Population.draw metric s.randomCount s.leastLength s.greatestLength)
  let population ← Search.ofExcept (join given random)
  Search.ofExcept (s.files.foldlM (addFile files) population)

end PopulationSources

end StepSearch
