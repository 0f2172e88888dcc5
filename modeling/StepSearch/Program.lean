import StepSearch.Program.Token
import StepSearch.Step

/-!
# Programs

A program is a block: words and nested blocks between braces, in order. Two optimiser steps act on
this structure, the others leave it as it is. `BlockFlattener` puts the statements of nested blocks
in the place of the blocks, `UnusedPruner` removes nested blocks without statements.
-/

namespace StepSearch

/-- The statements of a block: none, or a word and the statements after it, or a nested block and
the statements after it. -/
inductive Body where
  | nil
  | word (text : String) (rest : Body)
  | block (inner rest : Body)
deriving DecidableEq, Repr

namespace Body

/-- The statements of one body followed by those of another. -/
def append : Body → Body → Body
  | nil, b => b
  | word text rest, b => word text (rest.append b)
  | block inner rest, b => block inner (rest.append b)

instance : Append Body := ⟨append⟩

/-- The number of words and nested blocks, at every depth. -/
def size : Body → Nat
  | nil => 0
  | word _ rest => 1 + rest.size
  | block inner rest => 1 + inner.size + rest.size

/-- The words, at every depth, in the order of the text. -/
def words : Body → List String
  | nil => []
  | word text rest => text :: rest.words
  | block inner rest => inner.words ++ rest.words

def lexemes : Body → List Lexeme
  | nil => []
  | word text rest => .word text :: rest.lexemes
  | block inner rest => .opening :: (inner.lexemes ++ .closing :: rest.lexemes)

/-- Puts the statements of every nested block in the place of the block. -/
def flatten : Body → Body
  | nil => nil
  | word text rest => word text rest.flatten
  | block inner rest => inner.flatten ++ rest.flatten

/-- Removes every nested block that has no statements, or none left once its own nested blocks are
pruned. -/
def prune : Body → Body
  | nil => nil
  | word text rest => word text rest.prune
  | block inner rest =>
    match inner.prune with
    | nil => rest.prune
    | pruned => block pruned rest.prune

/-- What an optimiser step does to the statements of a program. -/
def apply : Step → Body → Body
  | .blockFlattener, b => b.flatten
  | .unusedPruner, b => b.prune
  | _, b => b

end Body

/-- A program: the statements of its top-level block. -/
structure Program where
  body : Body
deriving DecidableEq, Repr

namespace Program

def optimise (p : Program) (steps : List Step) : Program :=
  ⟨steps.foldl (fun b s => Body.apply s b) p.body⟩

/-- The number of words and nested blocks, at every depth. The top-level block does not count. -/
def codeSize (p : Program) : Nat :=
  p.body.size

def lexemes (p : Program) : List Lexeme :=
  .opening :: (p.body.lexemes ++ [.closing])

/-- The program text with one space between tokens. -/
def toString (p : Program) : String :=
  " ".intercalate (p.lexemes.map Lexeme.text)

instance : ToString Program := ⟨toString⟩

end Program

end StepSearch
