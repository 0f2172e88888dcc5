import StepSearch.Pool

/-!
# Options of the strategies

The fractions, chances and lengths that a strategy works with. Setting an option by its `with`
function moves it into `[0, 1]`; validation reports the first option that is out of range.
-/

namespace StepSearch

/-- Fails unless the value of a quantity lies between zero and one. -/
def Quantity.check (quantity : Quantity) (value : Binary64) : Except ConfigurationFault Unit :=
  if value.isUnit then .ok () else .error (.notUnit quantity value)

def checkLengths (least greatest : Nat) : Except ConfigurationFault Unit :=
  if greatest < least then .error (.lengthBounds least greatest) else .ok ()

/-- The chance that changes one step of a chromosome with `length` steps on average. -/
def defaultStepChance (length : Nat) : Binary64 :=
  Binary64.one.div (.ofNat length)

/-! ### The random strategy -/

structure RandomOptions where
  elitePool : Binary64
  leastLength : Nat
  greatestLength : Nat
deriving DecidableEq, Repr

namespace RandomOptions

/-- Options under which one individual of `size` survives. -/
def forPopulation (size leastLength greatestLength : Nat) : RandomOptions :=
  ⟨Pool.defaultElite size, leastLength, greatestLength⟩

def withElitePool (o : RandomOptions) (fraction : Binary64) : RandomOptions :=
  { o with elitePool := fraction.clampUnit }

/-- Reports the first inconsistent option. -/
def validate (o : RandomOptions) : Except ConfigurationFault Unit := do
  Quantity.elitePool.check o.elitePool
  checkLengths o.leastLength o.greatestLength

end RandomOptions

/-! ### The elitist strategy with exclusive pools -/

/-- Options of the generational elitist strategy with exclusive pools. -/
structure GewepOptions where
  /-- The fraction of the population that is replaced by mutants. -/
  mutationPool : Binary64
  /-- The fraction of the population that is replaced by crossover. -/
  crossoverPool : Binary64
  /-- The chance that a mutation replaces steps instead of changing the length. -/
  randomisationChance : Binary64
  /-- The chance that a change of length deletes steps instead of adding some. -/
  deletionChance : Binary64
  /-- The chance of each step to be replaced. -/
  stepsToRandomise : Binary64
  /-- The chance of each step to be deleted, and of each place to gain a step. -/
  stepsToAddOrDelete : Binary64
deriving DecidableEq, Repr

namespace GewepOptions

/-- The usual options for chromosomes of at most `length` steps. -/
def standard (length : Nat) : GewepOptions where
  mutationPool := .ofRatio false 1 4
  crossoverPool := .ofRatio false 1 4
  randomisationChance := .ofRatio false 9 10
  deletionChance := .ofRatio false 1 2
  stepsToRandomise := defaultStepChance length
  stepsToAddOrDelete := defaultStepChance length

def withMutationPool (o : GewepOptions) (x : Binary64) : GewepOptions :=
  { o with mutationPool := x.clampUnit }

def withCrossoverPool (o : GewepOptions) (x : Binary64) : GewepOptions :=
  { o with crossoverPool := x.clampUnit }

def withRandomisationChance (o : GewepOptions) (x : Binary64) : GewepOptions :=
  { o with randomisationChance := x.clampUnit }

def withDeletionChance (o : GewepOptions) (x : Binary64) : GewepOptions :=
  { o with deletionChance := x.clampUnit }

def withStepsToRandomise (o : GewepOptions) (x : Binary64) : GewepOptions :=
  { o with stepsToRandomise := x.clampUnit }

def withStepsToAddOrDelete (o : GewepOptions) (x : Binary64) : GewepOptions :=
  { o with stepsToAddOrDelete := x.clampUnit }

def elitePool (o : GewepOptions) : Binary64 :=
  (Binary64.one.sub o.mutationPool).sub o.crossoverPool

/-- Reports the first inconsistent option. -/
def validate (o : GewepOptions) : Except ConfigurationFault Unit := do
  Quantity.mutationPool.check o.mutationPool
  Quantity.crossoverPool.check o.crossoverPool
  Quantity.randomisationChance.check o.randomisationChance
  Quantity.deletionChance.check o.deletionChance
  Quantity.stepsToRandomise.check o.stepsToRandomise
  Quantity.stepsToAddOrDelete.check o.stepsToAddOrDelete
  if Binary64.one.lt (o.mutationPool.add o.crossoverPool) then
    throw (.poolsExceedPopulation o.mutationPool o.crossoverPool)

end GewepOptions

end StepSearch
