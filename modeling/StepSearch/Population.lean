import StepSearch.Metric

/-!
# Populations

An individual is a chromosome together with its fitness, which is computed once. A population is a
sequence of individuals under one metric. Ranking sorts by fitness and keeps the order of equally
fit individuals; the best individual is the first one of least fitness. Two populations are the same
if they have the same metric and the same individuals, in whatever order.
-/

namespace StepSearch

/-- A chromosome and its fitness; lower is better. -/
structure Individual where
  chromosome : Chromosome
  fitness : Nat
deriving DecidableEq, Repr

namespace Individual

/-- The individual of a chromosome under a metric. -/
def ofChromosome (metric : Metric) (c : Chromosome) : Individual :=
  ⟨c, metric.evaluate c⟩

/-- One line of text, without its end. -/
def toString (i : Individual) : String :=
  s!"Fitness: {i.fitness}, optimisations: " ++ i.chromosome.toString

instance : ToString Individual := ⟨toString⟩

/-- Individuals are ordered by chromosome, then by fitness. -/
instance : Ord Individual where
  compare i j := (compare i.chromosome j.chromosome).then (compare i.fitness j.fitness)

/-- The fitter of two individuals, the first one if they are equally fit. -/
def fitter (i j : Individual) : Individual :=
  if j.fitness < i.fitness then j else i

end Individual

/-- Individuals in a fixed order, and the metric under which they are compared. -/
structure Population where
  metric : Metric
  individuals : List Individual

namespace Population

/-- The population of the given chromosomes. -/
def ofChromosomes (metric : Metric) (chromosomes : List Chromosome) : Population :=
  ⟨metric, chromosomes.map (Individual.ofChromosome metric)⟩

def size (p : Population) : Nat :=
  p.individuals.length

def isEmpty (p : Population) : Bool :=
  p.individuals.isEmpty

@[simp] theorem isEmpty_iff {p : Population} : p.isEmpty = true ↔ p.individuals = [] :=
  List.isEmpty_iff

def chromosomes (p : Population) : List Chromosome :=
  p.individuals.map Individual.chromosome

/-- One line of text for each individual. -/
def toString (p : Population) : String :=
  p.individuals.foldl (fun text i => text ++ i.toString ++ "\n") ""

instance : ToString Population := ⟨toString⟩

/-- Whether two populations are evaluated under the same metric. -/
def SharesMetric (p q : Population) : Prop :=
  p.metric.key = q.metric.key

instance (p q : Population) : Decidable (p.SharesMetric q) :=
  inferInstanceAs (Decidable (p.metric.key = q.metric.key))

/-- The individuals of `p`, then those of `q`. Only populations with the same metric are joined. -/
def union (p q : Population) : Except Breach Population :=
  if p.SharesMetric q then .ok ⟨p.metric, p.individuals ++ q.individuals⟩
  else .error .metricsDiffer

/-- The individuals by increasing fitness, equally fit ones in their order. -/
def ranked (p : Population) : Population :=
  ⟨p.metric, p.individuals.mergeSort fun i j => i.fitness ≤ j.fitness⟩

/-- The first individual of least fitness. -/
def best? (p : Population) : Option Individual :=
  match p.individuals with
  | [] => none
  | i :: rest => some (rest.foldl Individual.fitter i)

/-- The individuals in their own order, in which equal collections of individuals become equal
lists. -/
def arranged (p : Population) : List Individual :=
  p.individuals.mergeSort fun i j => (compare i j).isLE

/-- The same metric, and the same individuals the same number of times. -/
instance : BEq Population where
  beq p q := decide (p.SharesMetric q) && p.arranged == q.arranged

end Population

end StepSearch
