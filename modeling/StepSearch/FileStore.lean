import StepSearch.Failure

/-!
# File stores

A tree of directories and files, with the file operations that a search uses. A path is a text
whose names are separated by slashes; it starts at the top of the tree if it starts with a slash,
and in the working directory otherwise, which is also what the empty path names. Every name but the
last has to be a directory; an empty name and `.` stay where they are, and `..` goes one directory
up, or nowhere from the top. Names and paths have a greatest length in bytes, and no path has a NUL
character in it. A store may have a capacity, the bytes that all its files may have together; a file
that does not fit is not written at all.
-/

namespace StepSearch

/-- What stands at a place of the tree. -/
inductive Entry where
  | directory
  | file (content : ByteArray)

/-- A place of the tree: the names on the way from the top. -/
abbrev Location := List String

/-- How many bytes of a store an entry takes. -/
def Entry.size : Entry → Nat
  | directory => 0
  | file content => content.size

/-- The entries below the top, each with its place, the working directory, and how many bytes there may
be in all files. -/
structure FileStore where
  entries : List (Location × Entry) := []
  here : Location := []
  capacity : Option Nat := none

namespace FileStore

/-- The store that has no entries but its working directory and the directories above it. -/
def inDirectory (here : Location) : FileStore where
  entries := (List.range here.length).map fun k => (here.take (k + 1), .directory)
  here

/-- What stands at a place. The top is always a directory. -/
def get? (s : FileStore) (l : Location) : Option Entry :=
  if l = [] then some .directory else s.entries.lookup l

def insert (s : FileStore) (l : Location) (e : Entry) : FileStore :=
  { s with entries := (l, e) :: s.entries.filter fun p => p.1 != l }

def erase (s : FileStore) (l : Location) : FileStore :=
  { s with entries := s.entries.filter fun p => p.1 != l }

/-! ### Room -/

def used (s : FileStore) : Nat :=
  s.entries.foldr (fun p n => p.2.size + n) 0

/-- Whether the files of a store do not exceed its capacity. -/
def hasRoom (s : FileStore) : Bool :=
  match s.capacity with
  | none => true
  | some capacity => decide (s.used ≤ capacity)

/-! ### Paths -/

def splitNames : List Char → List (List Char)
  | [] => [[]]
  | '/' :: cs => [] :: splitNames cs
  | c :: cs =>
    match splitNames cs with
    | [] => [[c]]
    | name :: names => (c :: name) :: names

def maxNameSize : Nat := 255

def maxPathSize : Nat := 4095

/-- Follows names from a place. -/
def walk (s : FileStore) (place : Location) : List String → Except FileFault Location
  | [] => .ok place
  | name :: names =>
    match s.get? place with
    | none => .error .notFound
    | some (.file _) => .error .notDirectory
    | some .directory =>
      if name = "" ∨ name = "." then s.walk place names
      else if name = ".." then s.walk place.dropLast names
      else if maxNameSize < name.utf8ByteSize then .error .nameTooLong
      else s.walk (place ++ [name]) names

/-- The place where a path starts. -/
def start (s : FileStore) (path : String) : Location :=
  if path.toList.head? = some '/' then [] else s.here

/-- The names of a path, empty ones included. -/
def pathNames (path : String) : List String :=
  (splitNames path.toList).map String.ofList

/-- The place that a path names. -/
def locate (s : FileStore) (path : String) : Except FileFault Location :=
  if path.toList.contains '\x00' then .error .nulInPath
  else if maxPathSize < path.utf8ByteSize then .error .nameTooLong
  else s.walk (s.start path) (pathNames path)

/-! ### Operations -/

def read (s : FileStore) (path : String) : Except FileFault ByteArray := do
  match s.get? (← s.locate path) with
  | none => .error .notFound
  | some .directory => .error .isDirectory
  | some (.file content) => .ok content

/-- The content of a text file. -/
def readText (s : FileStore) (path : String) : Except FileFault String := do
  match String.fromUTF8? (← s.read path) with
  | none => .error .notText
  | some text => .ok text

/-- Creates a file or replaces its content. -/
def write (s : FileStore) (path : String) (content : ByteArray) : Except FileFault FileStore := do
  let l ← s.locate path
  match s.get? l with
  | some .directory => .error .isDirectory
  | _ =>
    if (s.insert l (.file content)).hasRoom then .ok (s.insert l (.file content))
    else .error .noSpace

/-- Makes a directory where nothing stands yet. -/
def makeDirectory (s : FileStore) (path : String) : Except FileFault FileStore := do
  let l ← s.locate path
  match s.get? l with
  | none => .ok (s.insert l .directory)
  | some .directory => .ok s
  | some (.file _) => .error .notDirectory

def remove (s : FileStore) (path : String) : Except FileFault FileStore := do
  let l ← s.locate path
  match s.get? l with
  | none => .error .notFound
  | some .directory => .error .isDirectory
  | some (.file _) => .ok (s.erase l)

/-- Whether the last name of a path that is not empty is `.` or `..`. -/
def endsInDots (path : String) : Bool :=
  match ((pathNames path).filter (· ≠ "")).getLast? with
  | some name => name = "." || name = ".."
  | none => false

/-- Whether a path can only name a directory: it is empty or ends in a slash. -/
def endsOpen (path : String) : Bool :=
  (pathNames path).getLast? = some ""

/-- Moves a file to another path, where it takes the place of the file there. A directory is never
replaced. A target in terms of `.` or `..` is taken, and one that ends open cannot be a file. -/
def rename (s : FileStore) (source target : String) : Except FileFault FileStore := do
  let content ← s.read source
  let old ← s.locate source
  let new ← s.locate target
  if endsInDots target then .error .busy
  else if endsOpen target then .error .notDirectory
  else match s.get? new with
    | some .directory => .error .isDirectory
    | _ => .ok ((s.erase old).insert new (.file content))

/-! ### Views -/

/-- The content of a file, or `none` if it cannot be read. -/
def content? (s : FileStore) (path : String) : Option ByteArray :=
  (s.read path).toOption

end FileStore

end StepSearch
