import StepSearch.FileStore
import StepSearch.Text.Line

/-!
# Chromosomes and programs in files

A population file has one line for each chromosome; an empty line is an empty chromosome. A file is
replaced as a whole: the new content goes to a temporary file beside it, which is then renamed, so
that a reader finds either the old content or all of the new one.
-/

namespace StepSearch

namespace FileStore

def readLines (s : FileStore) (path : String) : Except SearchError (List String) :=
  ((s.readText path).map Text.lines).mapError (.fileAccess path)

def readChromosomes (s : FileStore) (path : String) : Except SearchError (List Chromosome) := do
  let lines ← s.readLines path
  (Chromosome.parseAll lines).mapError .invalidChromosome

/-- The content of a population file. -/
def chromosomeText (chromosomes : List Chromosome) : String :=
  Text.unlines (chromosomes.map Chromosome.toString)

/-- The path of the temporary file for a path. -/
def temporary (path : String) : String :=
  path ++ ".tmp"

/-- Replaces a file. If the temporary file cannot be written, nothing changes; if it cannot be renamed,
it is removed again. -/
def replaceFile {m : Type → Type} [Monad m] [MonadStateOf FileStore m] [MonadExceptOf SearchError m]
    (path : String) (content : ByteArray) : m Unit := do
  let old ← getThe FileStore
  match old.write (temporary path) content with
  | .error fault => throwThe SearchError (.fileAccess (temporary path) fault)
  | .ok written =>
    set written
    match written.rename (temporary path) path with
    | .ok renamed => set renamed
    | .error fault =>
      set ((written.remove (temporary path)).toOption.getD written)
      throwThe SearchError (.fileAccess path fault)

/-- Replaces a population file. -/
def writeChromosomes (path : String) (chromosomes : List Chromosome) :
    ExceptT SearchError (StateM FileStore) Unit :=
  replaceFile path (chromosomeText chromosomes).toUTF8

def readProgram (s : FileStore) (path : String) : Except SearchError Program := do
  let text ← (s.readText path).mapError (.fileAccess path)
  (Program.load text).mapError (.programLoad path)

end FileStore

end StepSearch
