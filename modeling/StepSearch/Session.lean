import StepSearch.Journal
import StepSearch.Population.Sources
import StepSearch.Sink

/-!
# Sessions

A session holds what a search works with: a source of random words, files, an output and a journal.
This file has the basic actions on it and the preparation of a search: the program, the metric, the
initial population and the strategy.
-/

namespace StepSearch

/-- What a search works with. -/
structure Workbench (σ : Type) where
  generator : σ
  files : FileStore := {}
  output : Sink := {}
  /-- The events so far, first to last. -/
  journal : Array Event := #[]

/-- A computation on a workbench. Its effects up to a failure remain. -/
abbrev Session (σ : Type) := ExceptT Failure (StateM (Workbench σ))

namespace Session

variable {σ α : Type}

/-! ### Basic actions -/

/-- Goes on only if a check succeeds. -/
def require (result : Except SearchError α) : Session σ α :=
  ExceptT.mk (return result.mapError Failure.error)

/-- Searches with the words of the workbench. -/
def search (action : Search σ α) : Session σ α :=
  ExceptT.mk fun bench =>
    let (result, generator) := action.run bench.generator
    (result, { bench with generator })

def log (event : Event) : Session σ Unit :=
  modify fun bench => { bench with journal := bench.journal.push event }

def print (text : String) : Session σ Unit :=
  ExceptT.mk fun bench =>
    let (accepted, output) := bench.output.write text
    (if accepted then .ok () else .error (.error (.report Sink.refusal)), { bench with output })

def save (path : String) (chromosomes : List Chromosome) : Session σ Unit :=
  ExceptT.mk fun bench =>
    let (result, files) := (FileStore.writeChromosomes path chromosomes).run bench.files
    (result.mapError Failure.error, { bench with files })

/-! ### Preparation of a search -/

def readProgram (path : String) : Session σ Program := do
  require ((← get).files.readProgram path)

/-- The size of a program as a metric. -/
def programSize (program : Program) (repetitions : Nat) : Session σ ProgramSize :=
  require ((ProgramSize.ofProgram program repetitions).mapError .configuration)

def buildPopulation [WordSource σ] (sources : PopulationSources) (metric : Metric) :
    Session σ Population := do
  let files := (← get).files
  let population ← search (sources.build metric files)
  log (.populationBuilt population.size)
  return population

/-- Builds the strategy for a population of `size` individuals. -/
def buildStrategy (settings : StrategySettings) (size : Nat) : Session σ Strategy := do
  let strategy ← require ((settings.build size).mapError .configuration)
  log (.strategyChosen settings.kind)
  return strategy

end Session

end StepSearch
