import StepSearch.Step

/-!
# Chromosomes

A chromosome is a finite sequence of optimiser steps. It is written as the abbreviations of its
steps, one after the other, and a text is read back only if every character is an abbreviation.
-/

namespace StepSearch

/-- A sequence of optimiser steps. The empty sequence is a chromosome. -/
structure Chromosome where
  steps : List Step
deriving DecidableEq, Repr

/-- Why a text is no chromosome: the whole text and its first character that stands for no step. -/
structure UnknownStep where
  text : String
  abbreviation : Char
deriving DecidableEq, Repr

namespace Chromosome

instance : Inhabited Chromosome := ⟨⟨[]⟩⟩

def length (c : Chromosome) : Nat :=
  c.steps.length

def isEmpty (c : Chromosome) : Bool :=
  c.steps.isEmpty

/-! ### Written form -/

/-- The abbreviations of the steps, in order. -/
def toString (c : Chromosome) : String :=
  String.ofList (c.steps.map Step.abbreviation)

instance : ToString Chromosome := ⟨toString⟩

/-- Reads a chromosome from the abbreviations of its steps. -/
def parse (text : String) : Except UnknownStep Chromosome :=
  match text.toList.find? fun c => (Step.ofAbbreviation? c).isNone with
  | some c => .error ⟨text, c⟩
  | none => .ok ⟨text.toList.filterMap Step.ofAbbreviation?⟩

/-- Reads every text, or reports the first one that is no chromosome. -/
def parseAll (texts : List String) : Except UnknownStep (List Chromosome) :=
  texts.mapM parse

def stepNames (c : Chromosome) : String :=
  " ".intercalate (c.steps.map Step.name)

/-! ### Edits -/

/-- Puts `s` in the place of step `i`. Nothing changes if there is no step `i`. -/
def replaceAt (c : Chromosome) (i : Nat) (s : Step) : Chromosome :=
  ⟨c.steps.set i s⟩

/-- Inserts `s` before step `i`, or at the end if there are at most `i` steps. -/
def insertAt (c : Chromosome) (i : Nat) (s : Step) : Chromosome :=
  ⟨c.steps.insertIdx (min i c.length) s⟩

/-- Removes step `i`. Nothing changes if there is no step `i`. -/
def eraseAt (c : Chromosome) (i : Nat) : Chromosome :=
  ⟨c.steps.eraseIdx i⟩

/-- The steps of `a` before `point`, then the steps of `b` from `point` on. A point past the end of
either chromosome counts as its end. -/
def spliceAt (a b : Chromosome) (point : Nat) : Chromosome :=
  ⟨a.steps.take point ++ b.steps.drop point⟩

instance : Append Chromosome := ⟨fun a b => ⟨a.steps ++ b.steps⟩⟩

/-! ### Order -/

/-- Chromosomes are ordered step by step, and a chromosome comes before its extensions. -/
instance : Ord Chromosome where
  compare a b := a.steps.compareLex compare b.steps

@[simp] theorem steps_append (a b : Chromosome) : (a ++ b).steps = a.steps ++ b.steps := rfl

end Chromosome

end StepSearch
