import StepSearch.Population.Random
import StepSearch.Strategy.Options

/-!
# The random strategy

Each round the best individuals survive unchanged and everybody else is replaced by a random
chromosome.
-/

namespace StepSearch

variable {σ : Type} [WordSource σ]

structure RandomElitist where
  options : RandomOptions
  valid : options.validate = .ok ()

namespace RandomElitist

def ofOptions (options : RandomOptions) : Except ConfigurationFault RandomElitist :=
  match h : options.validate with
  | .ok () => .ok ⟨options, h⟩
  | .error fault => .error fault

/-- The number of survivors in a population of `size` individuals. -/
def eliteCount (r : RandomElitist) (size : Nat) : Nat :=
  Pool.count r.options.elitePool size

/-- The next generation, with the elite given: the elite, then `fresh` random individuals. -/
def refill (r : RandomElitist) (metric : Metric) (elite : List Individual) (fresh : Nat) :
    Draw σ Population := do
  let others ← Population.draw metric fresh r.options.leastLength r.options.greatestLength
  return ⟨metric, elite ++ others.individuals⟩

def advance (r : RandomElitist) (p : Population) : Search σ Population :=
  if p.isEmpty then Search.fail (.invariant .emptyForRandom)
  else
    let survivors := r.eliteCount p.size
    Search.ofDraw (r.refill p.metric (p.ranked.individuals.take survivors) (p.size - survivors))

end RandomElitist

end StepSearch
