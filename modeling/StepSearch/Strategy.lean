import StepSearch.Strategy.Gewep
import StepSearch.Strategy.RandomElitist

/-!
# Strategies

A strategy makes the next generation out of a population. There are two; which one is used, and with
which options, is set by the user, who may leave some options to be derived.
-/

namespace StepSearch

inductive StrategyKind where
  | random
  | gewep
deriving DecidableEq, Repr

namespace StrategyKind

def name : StrategyKind → String
  | random => "random"
  | gewep => "GEWEP"

instance : ToString StrategyKind := ⟨name⟩

/-- Reads the name of a strategy, in letters of either case. -/
def parse (text : String) : Except ConfigurationFault StrategyKind :=
  match String.ofList (text.toList.map Char.toLower) with
  | "random" => .ok random
  | "gewep" => .ok gewep
  | _ => .error (.unknownAlgorithm text)

end StrategyKind

/-- How the places of the next generation are filled. -/
inductive RoundPlan where
  | gewep (pools : PoolSizes)
  | random (survivors fresh : Nat)
deriving DecidableEq, Repr

/-- A strategy with consistent options. -/
inductive Strategy where
  | random (algorithm : RandomElitist)
  | gewep (algorithm : Gewep)

namespace Strategy

/-- How a population of `size` individuals is replaced. -/
def plan (size : Nat) : Strategy → RoundPlan
  | random r => .random (r.eliteCount size) (size - r.eliteCount size)
  | gewep g => .gewep (g.pools size)

def advance {σ : Type} [WordSource σ] (s : Strategy) (p : Population) : Search σ Population :=
  match s with
  | random r => r.advance p
  | gewep g => g.advance p

end Strategy

/-- What the user sets about the strategy. Options that are absent are derived. -/
structure StrategySettings where
  kind : StrategyKind := .gewep
  leastLength : Nat := 12
  greatestLength : Nat := 30
  /-- Absent: one individual survives. -/
  elitePool : Option Binary64 := none
  mutationPool : Binary64 := .ofRatio false 1 4
  crossoverPool : Binary64 := .ofRatio false 1 4
  randomisationChance : Binary64 := .ofRatio false 9 10
  deletionChance : Binary64 := .ofRatio false 1 2
  /-- Absent: one step of the longest chromosome on average. -/
  stepsToRandomise : Option Binary64 := none
  /-- Absent: one step of the longest chromosome on average. -/
  stepsToAddOrDelete : Option Binary64 := none
deriving DecidableEq, Repr

namespace StrategySettings

/-- The options of the random strategy for a population of `size` individuals. -/
def randomOptions (s : StrategySettings) (size : Nat) : RandomOptions where
  elitePool := s.elitePool.getD (Pool.defaultElite size)
  leastLength := s.leastLength
  greatestLength := s.greatestLength

/-- The options of the elitist strategy with exclusive pools. -/
def gewepOptions (s : StrategySettings) : GewepOptions where
  mutationPool := s.mutationPool
  crossoverPool := s.crossoverPool
  randomisationChance := s.randomisationChance
  deletionChance := s.deletionChance
  stepsToRandomise := s.stepsToRandomise.getD (defaultStepChance s.greatestLength)
  stepsToAddOrDelete := s.stepsToAddOrDelete.getD (defaultStepChance s.greatestLength)

/-- The strategy for a population of `size` individuals. Values out of range are refused. -/
def build (s : StrategySettings) (size : Nat) : Except ConfigurationFault Strategy :=
  if size = 0 then .error .emptyPopulation
  else match s.kind with
    | .random => (RandomElitist.ofOptions (s.randomOptions size)).map .random
    | .gewep => (Gewep.ofOptions s.gewepOptions).map .gewep

end StrategySettings

end StepSearch
