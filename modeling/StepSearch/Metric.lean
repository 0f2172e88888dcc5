import StepSearch.Failure

/-!
# Fitness metrics

A metric gives every chromosome a cost; lower is better. Metrics are told apart by a key, so that
two metrics that happen to agree on every chromosome are still two.
-/

namespace StepSearch

/-- A cost for every chromosome. The key says which metric it is. -/
structure Metric where
  key : Nat
  evaluate : Chromosome → Nat

/-- The cost of a chromosome is its length. -/
def Metric.chromosomeLength (key : Nat) : Metric where
  key
  evaluate := Chromosome.length

/-- The size of a program after a chromosome has run on it some number of times. -/
structure ProgramSize where
  program : Program
  repetitions : Nat
  repetitions_pos : 0 < repetitions

namespace ProgramSize

/-- The metric for a program. A chromosome has to run at least once. -/
def ofProgram (program : Program) (repetitions : Nat) : Except ConfigurationFault ProgramSize :=
  if h : 0 < repetitions then .ok ⟨program, repetitions, h⟩ else .error .noRepetition

/-- The program after the chromosome has run on it, each time on the result of the time before. -/
def optimisedProgram (m : ProgramSize) (c : Chromosome) : Program :=
  Nat.repeat (fun p => p.optimise c.steps) m.repetitions m.program

def evaluate (m : ProgramSize) (c : Chromosome) : Nat :=
  (m.optimisedProgram c).codeSize

/-- Program size as a metric with the given key. -/
def toMetric (m : ProgramSize) (key : Nat) : Metric where
  key
  evaluate := m.evaluate

end ProgramSize

end StepSearch
