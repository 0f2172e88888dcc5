import StepSearch.Strategy

/-!
# The journal of a search

The events that a search keeps a record of, with their weight and wording.
-/

namespace StepSearch

/-- Something worth a record. -/
inductive Event where
  | populationBuilt (size : Nat)
  | strategyChosen (kind : StrategyKind)
  | roundPlanned (plan : RoundPlan)
  /-- Repeated chromosomes have been replaced. -/
  | duplicatesRandomised (count : Nat)
  /-- A round is over; the best individual is given. -/
  | roundCompleted (round : Nat) (best : Individual)
  /-- The population has been written to a file. -/
  | populationSaved (path : String)
  | runFinished (rounds : Nat)
deriving DecidableEq, Repr

/-- How much an event matters. -/
inductive EventLevel where
  | info
  | debug
deriving DecidableEq, Repr

namespace EventLevel

def name : EventLevel → String
  | info => "INFO"
  | debug => "DEBUG"

end EventLevel

namespace Event

def level : Event → EventLevel
  | populationBuilt _ | strategyChosen _ | runFinished _ => .info
  | roundPlanned _ | duplicatesRandomised _ | roundCompleted .. | populationSaved _ => .debug

def message : Event → String
  | populationBuilt size => s!"initial population has {size} individuals"
  | strategyChosen kind => "using the " ++ kind.name ++ " algorithm"
  | roundPlanned (.gewep pools) =>
    s!"GEWEP round: {pools.elite} elite, {pools.mutation} mutation, {pools.crossover} crossover"
  | roundPlanned (.random survivors fresh) =>
    s!"random round: {survivors} elite, {fresh} replaced"
  | duplicatesRandomised count => s!"randomised {count} duplicate chromosomes"
  | roundCompleted round best =>
    s!"round {round} complete, best fitness {best.fitness}: " ++ best.chromosome.stepNames
  | populationSaved path => "population saved to " ++ path
  | runFinished rounds => s!"finished after {rounds} rounds"

/-- The event as one line of text. -/
def line (e : Event) : String :=
  e.level.name ++ " " ++ e.message

end Event

end StepSearch
