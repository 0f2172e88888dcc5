/-!
# Optimiser steps

The catalog of the optimiser steps that a chromosome is made of. A step has a name and is written as
one character. The order of the catalog is the order of steps, and random steps are drawn by their
place in it.
-/

namespace StepSearch

inductive Step where
  | blockFlattener
  | circularReferencesPruner
  | commonSubexpressionEliminator
  | conditionalSimplifier
  | conditionalUnsimplifier
  | controlFlowSimplifier
  | deadCodeEliminator
  | equivalentFunctionCombiner
  | expressionInliner
  | expressionJoiner
  | expressionSimplifier
  | expressionSplitter
  | forLoopConditionIntoBody
  | forLoopConditionOutOfBody
  | forLoopInitRewriter
  | fullInliner
  | functionGrouper
  | functionHoister
  | literalRematerialiser
  | loadResolver
  | loopInvariantCodeMotion
  | redundantAssignEliminator
  | rematerialiser
  | ssaReverser
  | ssaTransform
  | structuralSimplifier
  | unusedPruner
  | varDeclInitializer
deriving DecidableEq, Repr

namespace Step

def all : List Step :=
  [blockFlattener, circularReferencesPruner, commonSubexpressionEliminator, conditionalSimplifier,
    conditionalUnsimplifier, controlFlowSimplifier, deadCodeEliminator, equivalentFunctionCombiner,
    expressionInliner, expressionJoiner, expressionSimplifier, expressionSplitter,
    forLoopConditionIntoBody, forLoopConditionOutOfBody, forLoopInitRewriter, fullInliner,
    functionGrouper, functionHoister, literalRematerialiser, loadResolver, loopInvariantCodeMotion,
    redundantAssignEliminator, rematerialiser, ssaReverser, ssaTransform, structuralSimplifier,
    unusedPruner, varDeclInitializer]

/-- The character that stands for the step in a chromosome. -/
def abbreviation : Step → Char
  | blockFlattener => 'f'
  | circularReferencesPruner => 'l'
  | commonSubexpressionEliminator => 'c'
  | conditionalSimplifier => 'C'
  | conditionalUnsimplifier => 'U'
  | controlFlowSimplifier => 'n'
  | deadCodeEliminator => 'D'
  | equivalentFunctionCombiner => 'v'
  | expressionInliner => 'e'
  | expressionJoiner => 'j'
  | expressionSimplifier => 's'
  | expressionSplitter => 'x'
  | forLoopConditionIntoBody => 'I'
  | forLoopConditionOutOfBody => 'O'
  | forLoopInitRewriter => 'o'
  | fullInliner => 'i'
  | functionGrouper => 'g'
  | functionHoister => 'h'
  | literalRematerialiser => 'T'
  | loadResolver => 'L'
  | loopInvariantCodeMotion => 'M'
  | redundantAssignEliminator => 'r'
  | rematerialiser => 'm'
  | ssaReverser => 'V'
  | ssaTransform => 'a'
  | structuralSimplifier => 't'
  | unusedPruner => 'u'
  | varDeclInitializer => 'd'

def name : Step → String
  | blockFlattener => "BlockFlattener"
  | circularReferencesPruner => "CircularReferencesPruner"
  | commonSubexpressionEliminator => "CommonSubexpressionEliminator"
  | conditionalSimplifier => "ConditionalSimplifier"
  | conditionalUnsimplifier => "ConditionalUnsimplifier"
  | controlFlowSimplifier => "ControlFlowSimplifier"
  | deadCodeEliminator => "DeadCodeEliminator"
  | equivalentFunctionCombiner => "EquivalentFunctionCombiner"
  | expressionInliner => "ExpressionInliner"
  | expressionJoiner => "ExpressionJoiner"
  | expressionSimplifier => "ExpressionSimplifier"
  | expressionSplitter => "ExpressionSplitter"
  | forLoopConditionIntoBody => "ForLoopConditionIntoBody"
  | forLoopConditionOutOfBody => "ForLoopConditionOutOfBody"
  | forLoopInitRewriter => "ForLoopInitRewriter"
  | fullInliner => "FullInliner"
  | functionGrouper => "FunctionGrouper"
  | functionHoister => "FunctionHoister"
  | literalRematerialiser => "LiteralRematerialiser"
  | loadResolver => "LoadResolver"
  | loopInvariantCodeMotion => "LoopInvariantCodeMotion"
  | redundantAssignEliminator => "RedundantAssignEliminator"
  | rematerialiser => "Rematerialiser"
  | ssaReverser => "SSAReverser"
  | ssaTransform => "SSATransform"
  | structuralSimplifier => "StructuralSimplifier"
  | unusedPruner => "UnusedPruner"
  | varDeclInitializer => "VarDeclInitializer"

/-- The step that `c` stands for, if there is one. -/
def ofAbbreviation? (c : Char) : Option Step :=
  all.find? fun s => s.abbreviation == c

/-- The place of the step in the catalog, counted from zero. -/
def index (s : Step) : Nat :=
  all.idxOf s

/-- The step at a place of the catalog. Places past the end give the last step. -/
def ofIndex (i : Nat) : Step :=
  all.getD i varDeclInitializer

instance : Ord Step where
  compare s t := compare s.index t.index

/-! ### The catalog is complete and its abbreviations differ -/

theorem mem_all (s : Step) : s ∈ all := by
  cases s <;> decide

theorem ofAbbreviation?_abbreviation (s : Step) : ofAbbreviation? s.abbreviation = some s := by
  cases s <;> decide

theorem ofIndex_index (s : Step) : ofIndex s.index = s := by
  cases s <;> decide

/-- A character that stands for a step is the abbreviation of exactly that step. -/
theorem ofAbbreviation?_eq_some_iff {c : Char} {s : Step} :
    ofAbbreviation? c = some s ↔ s.abbreviation = c := by
  constructor
  · intro h
    simpa using List.find?_some h
  · rintro rfl
    exact ofAbbreviation?_abbreviation s

end Step

end StepSearch
