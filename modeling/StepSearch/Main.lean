import StepSearch.CommandLine.Reply

/-!
# The command-line program

The outer layer around the command line: it looks at the named files before the search, runs the
search round by round, prints what each round writes, and keeps the saved population on the disk.
-/

namespace StepSearch.CommandLine

/-! ### Files on the disk -/

/-- Adds what stands on the disk at a path to a store. -/
def probe (store : FileStore) (path : String) : IO FileStore := do
  try
    if ← (← IO.FS.realPath path).isDir then
      return (store.makeDirectory path).toOption.getD store
    else
      return (store.write path (← IO.FS.readBinFile path)).toOption.getD store
  catch _ =>
    return store

/-- Adds a path and every directory on the way to it. -/
def snapshot (store : FileStore) (path : String) : IO FileStore := do
  let names := FileStore.pathNames path
  let steps := (List.range names.length).map fun k => "/".intercalate (names.take (k + 1))
  steps.foldlM probe store

/-- The store with all files that an invocation can read or replace. -/
def Invocation.snapshot (i : Invocation) : IO FileStore := do
  let here := (FileStore.pathNames (← IO.currentDir).toString).filter (· ≠ "")
  let saved := i.autosave.toList.flatMap fun path => [path, FileStore.temporary path]
  (i.inputFile :: i.populationFiles ++ saved).foldlM CommandLine.snapshot (.inDirectory here)

/-- Replaces a file on the disk by its content in a store. -/
def keep (store : FileStore) (path : String) : IO Unit := do
  if let some content := store.content? path then
    IO.FS.writeBinFile (FileStore.temporary path) content
    IO.FS.rename (FileStore.temporary path) path

/-! ### The search -/

/-- Prints what has been written since the last time, and forgets it and the journal. Gives the reason
if it is refused. -/
def flush (bench : Workbench Keystream) : IO (Except String (Workbench Keystream)) := do
  try
    let out ← IO.getStdout
    out.write bench.output.written
    out.flush
    return .ok { bench with output := {}, journal := #[] }
  catch e =>
    return .error (toString e)

def stop (abort : Abort) : IO UInt32 := do
  IO.eprint abort.report
  return UInt32.ofNat abort.exit

partial def follow (i : Invocation) (algorithm : Algorithm Keystream)
    (bounds : Option (Nat × Nat)) (progress : Progress) (state : Run.State Keystream) :
    IO UInt32 := do
  if i.rounds = some progress.rounds then return 0
  let (result, state) := (Run.round algorithm bounds i.autosave progress).run state
  match ← flush state.bench, result with
  | .error reason, _ => stop (.fatal ⟨.run, .report reason⟩)
  | .ok bench, .ok progress =>
    i.autosave.forM (keep bench.files)
    follow i algorithm bounds progress { state with bench }
  | .ok _, .error failure => stop (Stage.run.abort failure)

def search (i : Invocation) : IO UInt32 := do
  let fallback := (← IO.getRandomBytes 4).toList.foldl (fun n b => n * 256 + b.toNat) 0
  let seed := i.seed.getD (UInt32.ofNat fallback)
  let bench : Workbench Keystream := { generator := .ofSeed seed, files := ← i.snapshot }
  let (result, bench) := (i.prepare seed).run bench
  match ← flush bench, result, i.runOptions.duplicateBounds with
  | .error reason, _, _ => stop (.panic (.unprinted reason))
  | .ok bench, .ok prepared, .ok bounds =>
    follow i prepared.strategy.toAlgorithm bounds {} ⟨bench, prepared.population⟩
  | .ok _, .ok _, .error fault => stop (.fatal ⟨.run, .configuration fault⟩)
  | .ok _, .error abort, _ => stop abort

end StepSearch.CommandLine

open StepSearch.CommandLine in
def main (arguments : List String) : IO UInt32 := do
  match Request.ofArguments arguments with
  | .version => IO.print versionText; return 0
  | .help => IO.print usageText; return 0
  | .rejected => IO.eprint usageText; return 2
  | .search invocation => search invocation
