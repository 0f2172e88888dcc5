import StepSearch.Program
import StepSearch.Text.Quoted

/-!
# Reading programs

Program text is read token by token with a stack of open blocks. Reading goes on after a fault, so
that every fault of the text is found; they are reported in the order in which they are found.
-/

namespace StepSearch

/-- What is wrong with a program text. -/
inductive Problem where
  /-- A closing brace without an open block. -/
  | strayClosing
  /-- A word outside of every block. -/
  | strayWord (text : String)
  /-- A second block at the top level. -/
  | surplusBlock
  /-- A block that is not closed. -/
  | unclosedBlock
  | missingBlock
  /-- A fault in the words of the caller. -/
  | custom (message : String)
deriving DecidableEq, Repr

def Problem.message : Problem → String
  | strayClosing => "unexpected '\x7d'"
  | strayWord text => "unexpected " ++ Text.quote text ++ " outside of a block"
  | surplusBlock => "unexpected block after the top-level block"
  | unclosedBlock => "unclosed block"
  | missingBlock => "expected a block"
  | custom message => message

/-- A problem and the byte offset where it is. -/
structure Diagnostic where
  offset : Nat
  problem : Problem
deriving DecidableEq, Repr

def Diagnostic.toString (d : Diagnostic) : String :=
  s!"error at byte {d.offset}: " ++ d.problem.message

instance : ToString Diagnostic := ⟨Diagnostic.toString⟩

namespace Program

inductive Item where
  | word (text : String)
  | block (inner : Body)
deriving DecidableEq, Repr

/-- The statement followed by others. -/
def Item.cons : Item → Body → Body
  | word text, rest => .word text rest
  | block inner, rest => .block inner rest

/-- The body with the given statements, last one first. -/
def bodyOfReversed (items : List Item) : Body :=
  items.foldl (fun body item => item.cons body) .nil

/-- A block that is not yet closed: where it starts, and its statements so far, last one first. -/
structure OpenBlock where
  offset : Nat
  items : List Item
deriving DecidableEq, Repr

/-- How far the reading of a text has come. -/
structure Reader where
  /-- The blocks not yet closed, innermost first. -/
  stack : List OpenBlock := []
  /-- The first block closed at the top level. -/
  root : Option Body := none
  /-- The problems found, last one first. -/
  problems : List Diagnostic := []
deriving DecidableEq, Repr

namespace Reader

def report (r : Reader) (offset : Nat) (problem : Problem) : Reader :=
  { r with problems := ⟨offset, problem⟩ :: r.problems }

def step (r : Reader) (t : Token) : Reader :=
  match t.lexeme, r.stack with
  | .opening, stack => { r with stack := ⟨t.offset, []⟩ :: stack }
  | .word text, [] => r.report t.offset (.strayWord text)
  | .word text, top :: below =>
    { r with stack := { top with items := .word text :: top.items } :: below }
  | .closing, [] => r.report t.offset .strayClosing
  | .closing, [last] =>
    match r.root with
    | none => { r with stack := [], root := some (bodyOfReversed last.items) }
    | some _ => { r with stack := [] }.report last.offset .surplusBlock
  | .closing, last :: parent :: below =>
    let items := .block (bodyOfReversed last.items) :: parent.items
    { r with stack := { parent with items } :: below }

/-- The blocks that are left open, outermost first. -/
def unclosed (r : Reader) : List Diagnostic :=
  r.stack.reverse.map fun b => ⟨b.offset, .unclosedBlock⟩

/-- All problems of the text, in the order in which they are found. -/
def allProblems (r : Reader) : List Diagnostic :=
  r.problems.reverse ++ r.unclosed

/-- The program read, or the problems of the text. -/
def finish (r : Reader) : Except (List Diagnostic) Program :=
  match r.allProblems, r.root with
  | [], some body => .ok ⟨body⟩
  | [], none => .error [⟨0, .missingBlock⟩]
  | problems, _ => .error problems

end Reader

/-- Reads a program, or reports every problem of the text. -/
def load (text : String) : Except (List Diagnostic) Program :=
  ((Token.scanText text).foldl Reader.step {}).finish

end Program

end StepSearch
