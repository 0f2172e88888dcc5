import StepSearch.CommandLine.Arguments
import StepSearch.Random.Keystream

/-!
# Replies of the command line

What the program answers: its output, its error output and its exit code. An error is reported with
the stage in which it arose and its causes, and configuration errors with a hint at the options. A
panic ends the program at once.
-/

namespace StepSearch.CommandLine

/-! ### Fatal errors -/

inductive Stage where
  | program
  | metric
  | population
  | strategy
  | run
deriving DecidableEq, Repr

/-- What is said about a failure in a stage. -/
def Stage.description : Stage → String
  | program => "failed to load the input program"
  | metric => "invalid fitness metric configuration"
  | population => "failed to build the initial population"
  | strategy => "invalid algorithm configuration"
  | run => "run aborted"

/-- An error and the stage in which it arose. -/
structure Fatal where
  stage : Stage
  cause : SearchError
deriving DecidableEq, Repr

namespace Fatal

/-- Where the user finds the options. -/
def hint : String := "check the command-line options, see `phaser --help`"

/-- What the error itself is due to. -/
def sources (f : Fatal) : List String :=
  match f.cause with
  | .fileAccess _ fault => [fault.message]
  | .report reason => [reason]
  | _ => []

def chain (f : Fatal) : List String :=
  (if f.cause.isConfigurationError then [hint] else []) ++ [f.stage.description, f.cause.message] ++
    f.sources

/-- Text whose lines after the first are indented by as much as the given mark takes. -/
def indented (mark text : String) : String :=
  let margin := String.ofList (List.replicate mark.length ' ')
  mark ++ ("\n" ++ margin).intercalate (text.splitOn "\n")

def causeLines : List String → List String
  | [] => []
  | [cause] => [indented "    " cause]
  | causes => causes.zipIdx.map fun (cause, i) => indented s!"    {i}: " cause

def report (f : Fatal) : String :=
  match f.chain with
  | [] => ""
  | outermost :: causes =>
    "Error: " ++ outermost ++ "\n\nCaused by:\n" ++ "\n".intercalate (causeLines causes) ++ "\n"

end Fatal

/-! ### Panics -/

/-- What a panic is due to. -/
inductive Panic where
  | misuse (cause : Misuse)
  /-- A line that is no part of a report could not be printed, for the given reason. -/
  | unprinted (reason : String)
deriving DecidableEq, Repr

def Panic.message : Panic → String
  | misuse cause => cause.message
  | unprinted reason => "failed printing to stdout: " ++ reason

/-- How a search ends that does not come to its end. -/
inductive Abort where
  | fatal (error : Fatal)
  | panic (cause : Panic)
deriving DecidableEq, Repr

namespace Abort

def exit : Abort → Nat
  | fatal _ => 1
  | panic _ => 101

/-- What is written on the error output. Where in the code a panic arose is left out. -/
def report : Abort → String
  | fatal error => error.report
  | panic cause => cause.message ++ "\n"

end Abort

/-- A failure in a stage: an error is fatal, and a misuse panics. -/
def Stage.abort (stage : Stage) : Failure → Abort
  | .error cause => .fatal ⟨stage, cause⟩
  | .misuse cause => .panic (.misuse cause)

/-! ### Searches -/

/-- A search from the command line: a session that knows in which stage it is. -/
abbrev Command (σ : Type) := ExceptT Abort (StateM (Workbench σ))

variable {σ α : Type}

def Stage.perform (stage : Stage) (action : Session σ α) : Command σ α :=
  action.adapt stage.abort

/-- The line that is printed first. -/
def seedLine (seed : UInt32) : String :=
  s!"Random seed: {seed}\n"

/-- Prints the seed. Unlike a report, which fails if it is refused, this line panics. -/
def printSeed (seed : UInt32) : Command σ Unit :=
  ExceptT.mk fun bench =>
    let (accepted, output) := bench.output.write (seedLine seed)
    (if accepted then .ok () else .error (.panic (.unprinted Sink.refusal)), { bench with output })

def fromPopulation (population : Population) (action : Run σ α) : Session σ α :=
  ExceptT.mk fun bench =>
    let (result, state) := action.run ⟨bench, population⟩
    (result, state.bench)

/-- What a run needs, once all else is prepared. -/
structure Prepared where
  population : Population
  strategy : Strategy

namespace Invocation

/-- Everything up to the first round. -/
def prepare [WordSource σ] (i : Invocation) (seed : UInt32) : Command σ Prepared := do
  printSeed seed
  let program ← Stage.program.perform (Session.readProgram i.inputFile)
  let metric ← Stage.metric.perform (Session.programSize program i.repetitions)
  let population ← Stage.population.perform
    (Session.buildPopulation i.sources (metric.toMetric 0))
  let strategy ← Stage.strategy.perform (Session.buildStrategy i.settings population.size)
  return ⟨population, strategy⟩

/-- A whole search. Without a number of rounds it is followed for `allotment` rounds only, and gives
`none` if it is still going on then. -/
def execute [WordSource σ] (i : Invocation) (seed : UInt32) (allotment : Nat) :
    Command σ (Option Progress) := do
  let prepared ← i.prepare seed
  Stage.run.perform <| fromPopulation prepared.population <|
    Run.execute prepared.strategy.toAlgorithm i.runOptions allotment

end Invocation

/-! ### Replies -/

structure Reply where
  /-- The exit code, or `none` while the program goes on. -/
  exit : Option Nat
  output : ByteArray := .empty
  errors : String := ""

def versionText : String := "phaser 0.1.0\n"

def usageText : String := "Usage: phaser [OPTIONS] <INPUT_FILE>\n"

/-- The reply to a search that ended in the given way. -/
def Reply.ofResult (result : Except Abort (Option Progress)) (bench : Workbench σ) : Reply :=
  match result with
  | .ok (some _) => { exit := some 0, output := bench.output.written }
  | .ok none => { exit := none, output := bench.output.written }
  | .error abort =>
    { exit := some abort.exit, output := bench.output.written, errors := abort.report }

/-- The reply to the given arguments, and the files afterwards. The fallback seed serves where the
arguments name none. A search without a number of rounds is followed for one round: its reports are
always accepted, and in a store without a capacity a file that can be replaced once can be replaced
again. -/
def reply (arguments : List String) (files : FileStore) (fallbackSeed : UInt32) :
    Reply × FileStore :=
  match Request.ofArguments arguments with
  | .version => ({ exit := some 0, output := versionText.toUTF8 }, files)
  | .help => ({ exit := some 0, output := usageText.toUTF8 }, files)
  | .rejected => ({ exit := some 2, errors := usageText }, files)
  | .search invocation =>
    let seed := invocation.seed.getD fallbackSeed
    let bench : Workbench Keystream := { generator := .ofSeed seed, files }
    let (result, bench) := (invocation.execute seed 1).run bench
    (.ofResult result bench, bench.files)

end StepSearch.CommandLine
