import StepSearch.Session

/-!
# Runs

A run replaces a population round by round. A round reports the population, makes the next
generation, replaces repeated chromosomes if that is asked for, and saves the new population if
there is a file for it. A failure ends the run; the population is then the last one that was
completed.
-/

namespace StepSearch

/-- What makes the next generation. `plan` tells how, for the journal. -/
structure Algorithm (σ : Type) where
  plan : Population → Option RoundPlan
  advance : Population → Search σ Population

/-- A strategy as an algorithm. It has no plan for nobody. -/
def Strategy.toAlgorithm {σ : Type} [WordSource σ] (s : Strategy) : Algorithm σ where
  plan p := if p.isEmpty then none else some (s.plan p.size)
  advance := s.advance

structure RunOptions where
  /-- The number of rounds; absent, only a failure ends the run. -/
  maxRounds : Option Nat := none
  /-- The population file that is replaced after every round. -/
  autosave : Option String := none
  /-- Whether repeated chromosomes are replaced after every round. -/
  randomiseDuplicates : Bool := false
  leastLength : Option Nat := none
  greatestLength : Option Nat := none
deriving DecidableEq, Repr

/-- The bounds for replacements, or `none` if nothing is to be replaced. -/
def RunOptions.duplicateBounds (o : RunOptions) : Except ConfigurationFault (Option (Nat × Nat)) :=
  if o.randomiseDuplicates then
    match o.leastLength, o.greatestLength with
    | some least, some greatest =>
      if least ≤ greatest then .ok (some (least, greatest))
      else .error (.duplicateBounds least greatest)
    | _, _ => .error .missingDuplicateBounds
  else .ok none

/-- How far a run has come. -/
structure Progress where
  rounds : Nat := 0
  /-- The least fitness after any of them. -/
  bestFitness : Option Nat := none
deriving DecidableEq, Repr

namespace Progress

/-- One more round is complete and leaves the given population. -/
def next (progress : Progress) (p : Population) : Progress where
  rounds := progress.rounds + 1
  bestFitness :=
    match p.best?, progress.bestFitness with
    | some best, some least => some (min least best.fitness)
    | some best, none => some best.fitness
    | none, seen => seen

end Progress

namespace Run

structure State (σ : Type) where
  bench : Workbench σ
  population : Population

end Run

/-- A computation within a run. Its effects up to a failure remain. -/
abbrev Run (σ : Type) := ExceptT Failure (StateM (Run.State σ))

namespace Run

variable {σ α : Type}

def onBench (action : Session σ α) : Run σ α :=
  ExceptT.mk fun state =>
    let (result, bench) := action.run state.bench
    (result, { state with bench })

/-! ### The parts of a round -/

/-- The report at the start of a round. -/
def reportText (round : Nat) (p : Population) : String :=
  let best := match p.best? with
    | some best => toString best.fitness
    | none => "-"
  s!"\n---------- ROUND {round} ----------\nBest fitness: " ++ best ++ "\n" ++ p.toString

def report (round : Nat) : Run σ Unit := do
  let p := (← get).population
  onBench (Session.print (reportText round p))

/-- Makes the next generation, which does not take the place of the population yet. -/
def successor [WordSource σ] (algorithm : Algorithm σ) (bounds : Option (Nat × Nat)) :
    Run σ Population := do
  let p := (← get).population
  onBench do
    if let some plan := algorithm.plan p then Session.log (.roundPlanned plan)
    let next ← Session.search (algorithm.advance p)
    match bounds with
    | none => return next
    | some (least, greatest) =>
      let distinct ← Session.search (Search.ofDraw (next.randomiseDuplicates least greatest))
      if 0 < next.duplicateCount then Session.log (.duplicatesRandomised next.duplicateCount)
      return distinct

/-- Puts the next generation in the place of the population. -/
def install (round : Nat) (next : Population) : Run σ Unit := do
  modify fun state => { state with population := next }
  if let some best := next.best? then
    onBench (Session.log (.roundCompleted round best))

def autosave (path : Option String) : Run σ Unit := do
  if let some path := path then
    let p := (← get).population
    onBench do
      Session.save path p.chromosomes
      Session.log (.populationSaved path)

/-! ### Rounds -/

def round [WordSource σ] (algorithm : Algorithm σ) (bounds : Option (Nat × Nat))
    (path : Option String) (progress : Progress) : Run σ Progress := do
  report (progress.rounds + 1)
  let next ← successor algorithm bounds
  install (progress.rounds + 1) next
  autosave path
  return progress.next next

/-- So many rounds, one after the other. -/
def rounds [WordSource σ] (algorithm : Algorithm σ) (bounds : Option (Nat × Nat))
    (path : Option String) : Nat → Progress → Run σ Progress
  | 0, progress => return progress
  | n + 1, progress => do
    let progress ← round algorithm bounds path progress
    rounds algorithm bounds path n progress

/-- A whole run. Without a number of rounds it has no end of its own: it is followed for `allotment`
rounds, and gives `none` if it is still going on then. -/
def execute [WordSource σ] (algorithm : Algorithm σ) (options : RunOptions) (allotment : Nat) :
    Run σ (Option Progress) := do
  let bounds ← onBench (Session.require (options.duplicateBounds.mapError .configuration))
  match options.maxRounds with
  | some n =>
    let progress ← rounds algorithm bounds options.autosave n {}
    onBench (Session.log (.runFinished progress.rounds))
    return some progress
  | none =>
    let _ ← rounds algorithm bounds options.autosave allotment {}
    return none

end Run

end StepSearch
