import StepSearch.Chromosome
import StepSearch.Number.Shortest
import StepSearch.Program.Reading
import StepSearch.Random.Draw

/-!
# Failures

Everything that can go wrong in a search, by cause. The wording of every cause is here and nowhere
else.
-/

namespace StepSearch

/-! ### Causes -/

/-- A fraction or chance among the options of a strategy. -/
inductive Quantity where
  | elitePool
  | mutationPool
  | crossoverPool
  | randomisationChance
  | deletionChance
  | stepsToRandomise
  | stepsToAddOrDelete
deriving DecidableEq, Repr

/-- Option values that do not describe a search. -/
inductive ConfigurationFault where
  /-- A fraction or chance is not between zero and one. -/
  | notUnit (quantity : Quantity) (value : Binary64)
  /-- The mutation and the crossover pool together exceed the population. -/
  | poolsExceedPopulation (mutation crossover : Binary64)
  | lengthBounds (least greatest : Nat)
  /-- The least length of replacements for duplicates exceeds the greatest. -/
  | duplicateBounds (least greatest : Nat)
  /-- Duplicates are to be replaced, but the lengths of the replacements are not given. -/
  | missingDuplicateBounds
  /-- A chromosome would not run at all. -/
  | noRepetition
  /-- There is nobody to start from. -/
  | emptyPopulation
  | unknownAlgorithm (name : String)
  /-- A fault in the words of the caller. -/
  | custom (message : String)
deriving DecidableEq, Repr

/-- Why a file could not be used. -/
inductive FileFault where
  | notFound
  | notDirectory
  | isDirectory
  /-- The target of a move is a directory that is in use. -/
  | busy
  /-- A file would not fit beside the others. -/
  | noSpace
  /-- A name of the path, or the path as a whole, is too long. -/
  | nameTooLong
  | nulInPath
  | notText
  /-- A fault in the words of the caller. -/
  | custom (message : String)
deriving DecidableEq, Repr

/-- A state that a part of the search can never be given by the other parts. -/
inductive Breach where
  /-- Two populations under different metrics were to be joined. -/
  | metricsDiffer
  /-- The elitist strategy with exclusive pools was given nobody. -/
  | emptyForGewep
  /-- The random strategy was given nobody. -/
  | emptyForRandom
  /-- A breach in the words of the caller. -/
  | custom (message : String)
deriving DecidableEq, Repr

/-- A condition that ends a search. -/
inductive SearchError where
  | configuration (fault : ConfigurationFault)
  | invalidChromosome (cause : UnknownStep)
  | fileAccess (path : String) (fault : FileFault)
  | programLoad (path : String) (problems : List Diagnostic)
  /-- The report of a round could not be written, for the given reason. -/
  | report (reason : String)
  | invariant (breach : Breach)
deriving DecidableEq, Repr

/-- A search ends with an error, or by a misuse of a random operation. -/
inductive Failure where
  | error (cause : SearchError)
  | misuse (cause : Misuse)
deriving DecidableEq, Repr

/-! ### Wording -/

def Quantity.name : Quantity → String
  | elitePool => "elite pool size"
  | mutationPool => "mutation pool size"
  | crossoverPool => "crossover pool size"
  | randomisationChance => "randomisation chance"
  | deletionChance => "deletion vs addition chance"
  | stepsToRandomise => "percent of genes to randomise"
  | stepsToAddOrDelete => "percent of genes to add or delete"

def ConfigurationFault.message : ConfigurationFault → String
  | notUnit quantity value =>
    quantity.name ++ " must be within [0, 1], got " ++ value.plainText
  | poolsExceedPopulation mutation crossover =>
    "mutation pool size (" ++ mutation.plainText ++ ") + crossover pool size (" ++
      crossover.plainText ++ ") must not exceed 1"
  | lengthBounds least greatest =>
    s!"min chromosome length ({least}) must not exceed max chromosome length ({greatest})"
  | duplicateBounds least greatest =>
    s!"duplicate randomisation: min chromosome length ({least}) exceeds max ({greatest})"
  | missingDuplicateBounds =>
    "duplicate randomisation requires min and max chromosome lengths"
  | noRepetition => "chromosome repetition count must be at least 1"
  | emptyPopulation => "initial population is empty"
  | unknownAlgorithm name =>
    "unknown algorithm " ++ Text.quote name ++ ", expected \"random\" or \"GEWEP\""
  | custom message => message

def FileFault.message : FileFault → String
  | notFound => "No such file or directory (os error 2)"
  | notDirectory => "Not a directory (os error 20)"
  | isDirectory => "Is a directory (os error 21)"
  | busy => "Device or resource busy (os error 16)"
  | noSpace => "No space left on device (os error 28)"
  | nameTooLong => "File name too long (os error 36)"
  | nulInPath => "file name contained an unexpected NUL byte"
  | notText => "stream did not contain valid UTF-8"
  | custom message => message

def Breach.message : Breach → String
  | metricsDiffer => "cannot combine populations evaluated under different fitness metrics"
  | emptyForGewep => "GEWEP received an empty population"
  | emptyForRandom => "random algorithm received an empty population"
  | custom message => message

def SearchError.message : SearchError → String
  | configuration fault => "invalid configuration: " ++ fault.message
  | invalidChromosome cause =>
    "invalid chromosome " ++ Text.quote cause.text ++ ": unknown optimisation step '" ++
      cause.abbreviation.toString ++ "'"
  | fileAccess path fault => "cannot access file " ++ path ++ ": " ++ fault.message
  | programLoad path problems =>
    "failed to load program " ++ path ++ ":\n" ++
      "\n".intercalate (problems.map Diagnostic.toString)
  | report reason => "failed to write progress report: " ++ reason
  | invariant breach => "invariant violation: " ++ breach.message

def Misuse.message : Misuse → String
  | emptyRange => "cannot sample empty range"
  | chanceOutOfRange chance => "p=" ++ chance.markedText ++ " is outside range [0.0, 1.0]"
  | emptyPool => "cannot select from an empty pool"
  | lengthBounds least greatest =>
    s!"min_length ({least}) must not exceed max_length ({greatest})"

/-! ### Kinds -/

/-- Whether an error is due to what the user asked for. -/
def SearchError.isConfigurationError : SearchError → Bool
  | configuration _ | invalidChromosome _ => true
  | _ => false

/-! ### Computations that may fail -/

/-- A random computation that may fail. Words drawn before a failure stay drawn. -/
abbrev Search (σ : Type) := ExceptT Failure (StateM σ)

namespace Search

variable {σ α : Type}

def ofDraw (draw : Draw σ α) : Search σ α :=
  draw.adapt Failure.misuse

/-- The result of a check as a search that draws nothing. -/
def ofExcept (result : Except SearchError α) : Search σ α :=
  ExceptT.mk (return result.mapError Failure.error)

def fail (cause : SearchError) : Search σ α :=
  throw (.error cause)

end Search

end StepSearch
