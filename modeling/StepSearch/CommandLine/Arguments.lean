import StepSearch.Number.Numeral
import StepSearch.Run

/-!
# Command-line arguments

The arguments of the program: one input file and options. Options have long names; an option that
takes values takes them from behind an equals sign or from the arguments after it. Arguments are
looked at in their order, so a request for the version counts if nothing before it is wrong.
-/

namespace StepSearch.CommandLine

structure Invocation where
  inputFile : String
  seed : Option UInt32 := none
  rounds : Option Nat := none
  settings : StrategySettings := {}
  keepDuplicates : Bool := false
  chromosomes : List String := []
  randomCounts : List Nat := []
  populationFiles : List String := []
  autosave : Option String := none
  repetitions : Nat := 1
deriving DecidableEq, Repr

namespace Invocation

def sources (i : Invocation) : PopulationSources where
  leastLength := i.settings.leastLength
  greatestLength := i.settings.greatestLength
  chromosomes := i.chromosomes
  randomCounts := i.randomCounts
  files := i.populationFiles

/-- The options of the run. Replacements for duplicates are as long as other random chromosomes. -/
def runOptions (i : Invocation) : RunOptions where
  maxRounds := i.rounds
  autosave := i.autosave
  randomiseDuplicates := !i.keepDuplicates
  leastLength := some i.settings.leastLength
  greatestLength := some i.settings.greatestLength

end Invocation

/-! ### Options -/

inductive OptionName where
  | seed
  | rounds
  | algorithm
  | noRandomiseDuplicates
  | minChromosomeLength
  | maxChromosomeLength
  | randomElitePoolSize
  | gewepMutationPoolSize
  | gewepCrossoverPoolSize
  | gewepRandomisationChance
  | gewepDeletionVsAdditionChance
  | gewepGenesToRandomise
  | gewepGenesToAddOrDelete
  | population
  | randomPopulation
  | populationFromFile
  | populationAutosave
  | chromosomeRepetitions
deriving DecidableEq, Repr

/-- How many values an option takes, and whether it may be repeated. -/
inductive Arity where
  /-- No value, and at most once. -/
  | flag
  /-- One value, and at most once. -/
  | single
  /-- One or more values, any number of times. -/
  | many
deriving DecidableEq, Repr

namespace OptionName

def all : List OptionName :=
  [seed, rounds, algorithm, noRandomiseDuplicates, minChromosomeLength, maxChromosomeLength,
    randomElitePoolSize, gewepMutationPoolSize, gewepCrossoverPoolSize, gewepRandomisationChance,
    gewepDeletionVsAdditionChance, gewepGenesToRandomise, gewepGenesToAddOrDelete, population,
    randomPopulation, populationFromFile, populationAutosave, chromosomeRepetitions]

/-- The name of an option, without the two dashes. -/
def text : OptionName → String
  | seed => "seed"
  | rounds => "rounds"
  | algorithm => "algorithm"
  | noRandomiseDuplicates => "no-randomise-duplicates"
  | minChromosomeLength => "min-chromosome-length"
  | maxChromosomeLength => "max-chromosome-length"
  | randomElitePoolSize => "random-elite-pool-size"
  | gewepMutationPoolSize => "gewep-mutation-pool-size"
  | gewepCrossoverPoolSize => "gewep-crossover-pool-size"
  | gewepRandomisationChance => "gewep-randomisation-chance"
  | gewepDeletionVsAdditionChance => "gewep-deletion-vs-addition-chance"
  | gewepGenesToRandomise => "gewep-genes-to-randomise"
  | gewepGenesToAddOrDelete => "gewep-genes-to-add-or-delete"
  | population => "population"
  | randomPopulation => "random-population"
  | populationFromFile => "population-from-file"
  | populationAutosave => "population-autosave"
  | chromosomeRepetitions => "chromosome-repetitions"

def ofText? (name : String) : Option OptionName :=
  all.find? fun o => o.text == name

def arity : OptionName → Arity
  | noRandomiseDuplicates => .flag
  | population | randomPopulation | populationFromFile => .many
  | _ => .single

end OptionName

/-! ### Arguments -/

/-- A part of the arguments that has a meaning by itself. -/
inductive Occurrence where
  | option (name : OptionName) (values : List String)
  | input (path : String)
  | version
  | help
  | invalid
deriving DecidableEq, Repr

/-- Whether an argument can only be an option. A single dash is an ordinary value. -/
def isOptionLike (argument : String) : Bool :=
  match argument.toList with
  | '-' :: _ :: _ => true
  | _ => false

/-- Splits the text behind the two dashes of a long option at the first equals sign. -/
def splitOption (cs : List Char) : String × Option String :=
  let name := String.ofList (cs.takeWhile (· != '='))
  match cs.dropWhile (· != '=') with
  | [] => (name, none)
  | _ :: value => (name, some (String.ofList value))

/-- The option `name` with the value behind the equals sign, if there was one, and the arguments
after it. Gives the occurrence and how many of these arguments belong to it. -/
def readOption (name : String) (attached : Option String) (following : List String) :
    Occurrence × Nat :=
  match OptionName.ofText? name, attached with
  | some o, none =>
    let values := following.takeWhile fun a => !isOptionLike a
    match o.arity with
    | .flag => (.option o [], 0)
    | .single => (.option o (values.take 1), min values.length 1)
    | .many => (.option o values, values.length)
  | some o, some value => if o.arity = .flag then (.invalid, 0) else (.option o [value], 0)
  | none, none =>
    if name = "version" then (.version, 0)
    else if name = "help" then (.help, 0)
    else (.invalid, 0)
  | none, some _ => (.invalid, 0)

/-- Short options: the first letter decides. -/
def readShort : Char → Occurrence
  | 'V' => .version
  | 'h' => .help
  | _ => .invalid

/-- Divides the arguments into occurrences. After two dashes everything is an input. -/
def occurrences : List String → List Occurrence
  | [] => []
  | argument :: rest =>
    match argument.toList with
    | ['-', '-'] => rest.map .input
    | '-' :: '-' :: cs =>
      let (name, attached) := splitOption cs
      let (occurrence, taken) := readOption name attached rest
      occurrence :: occurrences (rest.drop taken)
    | '-' :: c :: _ => readShort c :: occurrences rest
    | _ => .input argument :: occurrences rest
termination_by arguments => arguments.length
decreasing_by
  · simp only [List.length_drop, List.length_cons]
    omega
  · simp
  · simp

/-! ### Values -/

/-- A seed: an integer that fits into 32 bits. -/
def seedValue? (text : String) : Option UInt32 := do
  let n ← Numeral.int? text.toList
  if 0 ≤ n ∧ n.toNat < Nat.pow 2 32 then some (UInt32.ofNat n.toNat) else none

/-- A count: a natural number that fits into 64 bits. -/
def countValue? (text : String) : Option Nat := do
  let n ← Numeral.nat? text.toList
  if n < Nat.pow 2 64 then some n else none

/-- A path: any text but the empty one. -/
def pathValue? (text : String) : Option String :=
  if text = "" then none else some text

def strategyValue? (text : String) : Option StrategyKind :=
  (StrategyKind.parse text).toOption

/-! ### Invocations -/

/-- What has been read so far. -/
structure Draft where
  invocation : Invocation := { inputFile := "" }
  /-- Whether there was an input file. -/
  hasInput : Bool := false
  seen : List OptionName := []

def setSingle (i : Invocation) (value : String) : OptionName → Option Invocation
  | .seed => do return { i with seed := some (← seedValue? value) }
  | .rounds => do return { i with rounds := some (← countValue? value) }
  | .algorithm => do
    return { i with settings := { i.settings with kind := ← strategyValue? value } }
  | .minChromosomeLength => do
    return { i with settings := { i.settings with leastLength := ← countValue? value } }
  | .maxChromosomeLength => do
    return { i with settings := { i.settings with greatestLength := ← countValue? value } }
  | .randomElitePoolSize => do
    return { i with settings := { i.settings with elitePool := some (← Binary64.parse? value) } }
  | .gewepMutationPoolSize => do
    return { i with settings := { i.settings with mutationPool := ← Binary64.parse? value } }
  | .gewepCrossoverPoolSize => do
    return { i with settings := { i.settings with crossoverPool := ← Binary64.parse? value } }
  | .gewepRandomisationChance => do
    return { i with settings := { i.settings with randomisationChance := ← Binary64.parse? value } }
  | .gewepDeletionVsAdditionChance => do
    return { i with settings := { i.settings with deletionChance := ← Binary64.parse? value } }
  | .gewepGenesToRandomise => do
    return { i with
      settings := { i.settings with stepsToRandomise := some (← Binary64.parse? value) } }
  | .gewepGenesToAddOrDelete => do
    return { i with
      settings := { i.settings with stepsToAddOrDelete := some (← Binary64.parse? value) } }
  | .populationAutosave => do return { i with autosave := some (← pathValue? value) }
  | .chromosomeRepetitions => do return { i with repetitions := ← countValue? value }
  | .noRandomiseDuplicates | .population | .randomPopulation | .populationFromFile => none

def addMany (i : Invocation) (values : List String) : OptionName → Option Invocation
  | .population => some { i with chromosomes := i.chromosomes ++ values }
  | .randomPopulation => do
    return { i with randomCounts := i.randomCounts ++ (← values.mapM countValue?) }
  | .populationFromFile => do
    return { i with populationFiles := i.populationFiles ++ (← values.mapM pathValue?) }
  | _ => none

def Draft.addOption (d : Draft) (name : OptionName) (values : List String) : Option Draft := do
  let invocation ← match name.arity, values with
    | .flag, _ => some { d.invocation with keepDuplicates := true }
    | .single, [value] => setSingle d.invocation value name
    | .many, _ :: _ => addMany d.invocation values name
    | _, _ => none
  if name.arity ≠ .many ∧ name ∈ d.seen then none
  else some { d with invocation, seen := name :: d.seen }

/-- Takes an input file. There can be only one. -/
def Draft.addInput (d : Draft) (path : String) : Option Draft := do
  let inputFile ← pathValue? path
  if d.hasInput then none
  else some { d with invocation := { d.invocation with inputFile }, hasInput := true }

inductive Request where
  | search (invocation : Invocation)
  | version
  | help
  | rejected
deriving DecidableEq, Repr

/-- Reads occurrences into a draft. -/
def Draft.read (d : Draft) : List Occurrence → Request
  | [] => if d.hasInput then .search d.invocation else .rejected
  | .version :: _ => .version
  | .help :: _ => .help
  | .invalid :: _ => .rejected
  | .option name values :: rest =>
    match d.addOption name values with
    | some d => d.read rest
    | none => .rejected
  | .input path :: rest =>
    match d.addInput path with
    | some d => d.read rest
    | none => .rejected

def Request.ofArguments (arguments : List String) : Request :=
  Draft.read {} (occurrences arguments)

end StepSearch.CommandLine
