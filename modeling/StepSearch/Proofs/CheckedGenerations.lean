import StepSearch.Proofs.Pools
import StepSearch.Proofs.Totality

/-!
# Generations with checks

A strategy takes slices of the ranked population, looks parents and steps up by their places, and
subtracts one size from another. Where such a range is wrong, a list operation gives less without a
word, and a difference is zero. Here each of them has no value then. A generation with these checks
always has a value, and it is the generation without them.
-/

namespace StepSearch

/-! ### Checks -/

/-- A value that is not there if a check fails. -/
def inRange {m : Type → Type} [Monad m] {α : Type} (value? : Option α) : OptionT m α :=
  OptionT.mk (pure value?)

/-- The first `n` of at least so many values. -/
def slice? {α : Type} (values : List α) (n : Nat) : Option (List α) :=
  if n ≤ values.length then some (values.take n) else none

/-- All but the first `n` of at least so many values. -/
def rest? {α : Type} (values : List α) (n : Nat) : Option (List α) :=
  if n ≤ values.length then some (values.drop n) else none

theorem slice?_of_le {α : Type} {values : List α} {n : Nat} (h : n ≤ values.length) :
    slice? values n = some (values.take n) := if_pos h

theorem rest?_of_le {α : Type} {values : List α} {n : Nat} (h : n ≤ values.length) :
    rest? values n = some (values.drop n) := if_pos h

section Confirmation

variable {ε σ α β : Type}

/-- Whether the checks of a computation never fail, and it does what the plain one does. -/
def Confirms (x? : OptionT (ExceptT ε (StateM σ)) α) (x : ExceptT ε (StateM σ) α) : Prop :=
  x?.run = some <$> x

namespace Confirms

variable {x? : OptionT (ExceptT ε (StateM σ)) α} {x : ExceptT ε (StateM σ) α}
  {f? : α → OptionT (ExceptT ε (StateM σ)) β} {f : α → ExceptT ε (StateM σ) β}

theorem ok (h : Confirms x? x) {s t : σ} {a : α} (hx : outcome x s = (.ok a, t)) :
    outcome x?.run s = (.ok (some a), t) := by
  rw [h, outcome_map, hx]
  rfl

theorem pure (a : α) :
    Confirms (pure a : OptionT (ExceptT ε (StateM σ)) α) (pure a) := rfl

theorem lift (x : ExceptT ε (StateM σ) α) : Confirms (OptionT.lift x) x := by
  rw [Confirms, OptionT.run_lift, map_eq_pure_bind]

/-- What follows a computation is to be confirmed only for the values that this one may give. -/
theorem bind (hx : Confirms x? x)
    (hf : ∀ a s t, outcome x s = (.ok a, t) → Confirms (f? a) (f a)) :
    Confirms (x? >>= f?) (x >>= f) := by
  refine outcome_ext fun s => ?_
  rw [OptionT.run_bind, hx, Option.elimM_map]
  rcases hs : outcome x s with ⟨e | a, t⟩
  · rw [outcome_map, bind_of_error hs, bind_of_error hs]
    rfl
  · rw [outcome_map, bind_of_ok hs, bind_of_ok hs, ← outcome_map]
    exact congrFun (hf a s t hs) t

theorem map (hx : Confirms x? x) (f : α → β) :
    Confirms (x? >>= fun a => Pure.pure (f a)) (x >>= fun a => Pure.pure (f a)) :=
  hx.bind fun a _ _ _ => .pure (f a)

theorem inRange_bind {value? : Option α} {a : α} {y : ExceptT ε (StateM σ) β}
    (hvalue : value? = some a) (hf : Confirms (f? a) y) : Confirms (inRange value? >>= f?) y := by
  subst hvalue
  exact hf

/-- In a loop over places the step for one comes after the steps for the places before. -/
theorem foldlM_range {f? : β → Nat → OptionT (ExceptT ε (StateM σ)) β}
    {f : β → Nat → ExceptT ε (StateM σ) β} {b : β} {n : Nat}
    (hf : ∀ i < n, ∀ c s t, outcome ((List.range i).foldlM f b) s = (.ok c, t) →
      Confirms (f? c i) (f c i)) :
    Confirms ((List.range n).foldlM f? b) ((List.range n).foldlM f b) := by
  induction n with
  | zero => exact .pure b
  | succ n ih =>
    rw [List.range_succ, List.foldlM_append, List.foldlM_append]
    refine (ih fun i hi => hf i (Nat.lt_succ_of_lt hi)).bind fun c s t hc => ?_
    rw [List.foldlM_cons, List.foldlM_cons]
    exact (hf n (Nat.lt_succ_self n) c s t hc).bind fun d _ _ _ => .pure d

end Confirms

end Confirmation

theorem Confirms.ofDraw {σ α : Type} {draw? : OptionT (Draw σ) α} {draw : Draw σ α}
    (h : Confirms draw? draw) :
    Confirms (OptionT.mk (Search.ofDraw draw?.run)) (Search.ofDraw draw) := by
  rw [Confirms, OptionT.run_mk, h, Search.ofDraw_map]

variable {σ : Type}

def Draw.times? {α : Type} (n : Nat) (draw? : OptionT (Draw σ) α) : OptionT (Draw σ) (List α) :=
  match n with
  | 0 => return []
  | n + 1 => do
    let value ← draw?
    let values ← times? n draw?
    return value :: values

theorem Confirms.times {α : Type} {draw? : OptionT (Draw σ) α} {draw : Draw σ α}
    (h : Confirms draw? draw) (n : Nat) : Confirms (Draw.times? n draw?) (Draw.times n draw) := by
  induction n with
  | zero => exact .pure []
  | succ n ih => exact h.bind fun value _ _ _ => ih.map (value :: ·)

variable [WordSource σ]

theorem Confirms.chance {α : Type} {hit? miss? : OptionT (Draw σ) α} {hit miss : Draw σ α}
    (hhit : Confirms hit? hit) (hmiss : Confirms miss? miss) (p : Binary64) :
    Confirms (do if ← OptionT.lift (Draw.chance p) then hit? else miss?)
      (do if ← Draw.chance p then hit else miss) := by
  refine (Confirms.lift _).bind fun hits _ _ _ => ?_
  cases hits with
  | true => exact hhit
  | false => exact hmiss

/-! ### Chromosomes -/

/-- A step of the catalog, which has to have the place that is drawn. -/
def Step.draw? : OptionT (Draw σ) Step := do
  inRange all[← OptionT.lift (Draw.exclusive 0 all.length)]?

theorem Step.getElem?_all {place : Nat} (h : place < all.length) :
    all[place]? = some (ofIndex place) := by
  rw [ofIndex, List.getD_eq_getElem?_getD, List.getElem?_eq_getElem h, Option.getD_some]

theorem Step.draw?_confirms : Confirms (draw? : OptionT (Draw σ) Step) draw := by
  refine (Confirms.lift _).bind fun place s t hplace => ?_
  have hstep := getElem?_all (Draw.exclusive_mem hplace).2
  rw [hstep]
  exact .pure _

namespace Chromosome

def drawSteps? (length : Nat) : OptionT (Draw σ) Chromosome := do
  return ⟨← Draw.times? length Step.draw?⟩

def draw? (least greatest : Nat) : OptionT (Draw σ) Chromosome := do
  if greatest < least then OptionT.lift (throw (.lengthBounds least greatest))
  else drawSteps? (← OptionT.lift (Draw.inclusive least greatest))

def randomiseAt? (p : Binary64) (mutant : Chromosome) (i : Nat) :
    OptionT (Draw σ) Chromosome := do
  if ← OptionT.lift (Draw.chance p) then
    return mutant.replaceAt i (← Step.draw?)
  else
    return mutant

def randomiseSteps? (c : Chromosome) (p : Binary64) : OptionT (Draw σ) Chromosome :=
  (List.range c.length).foldlM (randomiseAt? p) c

/-- No more steps may be gone than were visited. -/
def deleteAt? (p : Binary64) : Chromosome × Nat → Nat → OptionT (Draw σ) (Chromosome × Nat)
  | (mutant, removed), i => do
    if ← OptionT.lift (Draw.chance p) then
      let place ← inRange (i.psub removed)
      return (mutant.eraseAt place, removed + 1)
    else
      return (mutant, removed)

def deleteSteps? (c : Chromosome) (p : Binary64) : OptionT (Draw σ) Chromosome := do
  return (← (List.range c.length).foldlM (deleteAt? p) (c, 0)).1

def addAt? (p : Binary64) : Chromosome × Nat → Nat → OptionT (Draw σ) (Chromosome × Nat)
  | (mutant, added), i => do
    if ← OptionT.lift (Draw.chance p) then
      return (mutant.insertAt (i + added) (← Step.draw?), added + 1)
    else
      return (mutant, added)

def addSteps? (c : Chromosome) (p : Binary64) : OptionT (Draw σ) Chromosome := do
  return (← (List.range (c.length + 1)).foldlM (addAt? p) (c, 0)).1

/-- What is taken of the parents has to be a slice of each. -/
def spliceAt? (a b : Chromosome) (point : Nat) : Option Chromosome := do
  let head ← slice? a.steps (min point a.length)
  let tail ← rest? b.steps (min point b.length)
  return ⟨head ++ tail⟩

def crossover? (a b : Chromosome) : OptionT (Draw σ) Chromosome := do
  let shorter := min a.length b.length
  let least := if 0 < shorter then 1 else 0
  inRange (a.spliceAt? b (← OptionT.lift (Draw.inclusive least shorter)))

theorem drawSteps?_confirms (length : Nat) :
    Confirms (drawSteps? length : OptionT (Draw σ) Chromosome) (drawSteps length) :=
  (Step.draw?_confirms.times length).map _

theorem draw?_confirms (least greatest : Nat) :
    Confirms (draw? least greatest : OptionT (Draw σ) Chromosome) (draw least greatest) := by
  unfold draw? draw
  split
  · exact .lift _
  · exact (Confirms.lift _).bind fun length _ _ _ => drawSteps?_confirms length

theorem randomiseSteps?_confirms (c : Chromosome) (p : Binary64) :
    Confirms (c.randomiseSteps? p : OptionT (Draw σ) Chromosome) (c.randomiseSteps p) :=
  .foldlM_range fun _ _ mutant _ _ _ => .chance (Step.draw?_confirms.map _) (.pure mutant) p

theorem deleteSteps?_confirms (c : Chromosome) (p : Binary64) :
    Confirms (c.deleteSteps? p : OptionT (Draw σ) Chromosome) (c.deleteSteps p) := by
  refine (Confirms.foldlM_range fun i hi state _ _ hstate => ?_).map _
  obtain ⟨hremoved, -⟩ := length_after_removals (Nat.le_of_lt hi) hstate
  refine .chance ?_ (.pure state) p
  exact .inRange_bind (Nat.psub_eq_sub hremoved) (.pure _)

theorem addSteps?_confirms (c : Chromosome) (p : Binary64) :
    Confirms (c.addSteps? p : OptionT (Draw σ) Chromosome) (c.addSteps p) := by
  refine (Confirms.foldlM_range fun i _ state _ _ _ => ?_).map _
  exact .chance (Step.draw?_confirms.map _) (.pure state) p

theorem spliceAt?_eq (a b : Chromosome) (point : Nat) :
    a.spliceAt? b point = some (a.spliceAt b point) := by
  have hhead : slice? a.steps (min point a.length) = some (a.steps.take point) := by
    rw [List.take_eq_take_min]
    exact slice?_of_le (Nat.min_le_right _ _)
  have htail : rest? b.steps (min point b.length) = some (b.steps.drop point) := by
    rw [List.drop_eq_drop_min]
    exact rest?_of_le (Nat.min_le_right _ _)
  rw [spliceAt?, hhead, htail]
  rfl

theorem crossover?_confirms (a b : Chromosome) :
    Confirms (a.crossover? b : OptionT (Draw σ) Chromosome) (a.crossover b) := by
  refine (Confirms.lift _).bind fun point _ _ _ => ?_
  rw [spliceAt?_eq]
  exact .pure _

end Chromosome

/-! ### The elitist strategy with exclusive pools -/

namespace Gewep

def mutate? (w : Gewep) (parent : Chromosome) : OptionT (Draw σ) Chromosome := do
  match ← OptionT.lift w.chooseMutation with
  | .randomisation => parent.randomiseSteps? w.options.stepsToRandomise
  | .deletion => parent.deleteSteps? w.options.stepsToAddOrDelete
  | .addition => parent.addSteps? w.options.stepsToAddOrDelete

/-- The parent has to be there. -/
def mutant? (w : Gewep) (elite : List Individual) : OptionT (Draw σ) Chromosome := do
  let place ← OptionT.lift (Pool.selectParent elite.length)
  let parent ← inRange elite[place]?
  w.mutate? parent.chromosome

/-- Both parents have to be there. -/
def crossChild? (elite : List Individual) : OptionT (Draw σ) Chromosome := do
  let (place, place') ← OptionT.lift (Pool.selectParents elite.length)
  let first ← inRange elite[place]?
  let second ← inRange elite[place']?
  first.chromosome.crossover? second.chromosome

def breed? (w : Gewep) (metric : Metric) (pools : PoolSizes) (elite : List Individual) :
    OptionT (Draw σ) Population := do
  let mutants ← Draw.times? pools.mutation (w.mutant? elite)
  let children ← Draw.times? pools.crossover (crossChild? elite)
  return ⟨metric, elite ++ (mutants ++ children).map (Individual.ofChromosome metric)⟩

/-- The pools have to share the population out, and the elite has to be a slice of it. -/
def advance? (w : Gewep) (p : Population) : OptionT (Search σ) Population :=
  if p.isEmpty then OptionT.lift (Search.fail (.invariant .emptyForGewep))
  else do
    let pools ← inRange <|
      PoolSizes.partition? p.size w.options.mutationPool w.options.crossoverPool
    let elite ← inRange (slice? p.ranked.individuals pools.elite)
    OptionT.mk (Search.ofDraw (w.breed? p.metric pools elite).run)

theorem mutate?_confirms (w : Gewep) (parent : Chromosome) :
    Confirms (w.mutate? parent : OptionT (Draw σ) Chromosome) (w.mutate parent) := by
  refine (Confirms.lift _).bind fun mutation _ _ _ => ?_
  cases mutation with
  | randomisation => exact parent.randomiseSteps?_confirms _
  | deletion => exact parent.deleteSteps?_confirms _
  | addition => exact parent.addSteps?_confirms _

theorem exists_parent {elite : List Individual} {place : Nat} (h : place < elite.length) :
    ∃ parent, elite[place]? = some parent ∧ Pool.chromosomeAt elite place = parent.chromosome := by
  refine ⟨elite[place], List.getElem?_eq_getElem h, ?_⟩
  rw [Pool.chromosomeAt, List.getElem?_eq_getElem h]
  rfl

theorem mutant?_confirms (w : Gewep) (elite : List Individual) :
    Confirms (w.mutant? elite : OptionT (Draw σ) Chromosome) (w.mutant elite) := by
  refine (Confirms.lift _).bind fun place _ _ hplace => ?_
  obtain ⟨parent, hparent, hchromosome⟩ := exists_parent (Pool.selectParent_lt hplace)
  rw [hchromosome]
  exact .inRange_bind hparent (w.mutate?_confirms _)

theorem crossChild?_confirms (elite : List Individual) :
    Confirms (crossChild? elite : OptionT (Draw σ) Chromosome) (crossChild elite) := by
  refine (Confirms.lift _).bind fun places _ _ hplaces => ?_
  obtain ⟨place, _, hplace, hplaces⟩ := bind_ok hplaces
  obtain ⟨place', _, hplace', hplaces⟩ := bind_ok hplaces
  obtain ⟨rfl, -⟩ := pure_ok hplaces
  obtain ⟨first, hfirst, hchromosome⟩ := exists_parent (Pool.selectParent_lt hplace)
  obtain ⟨second, hsecond, hchromosome'⟩ := exists_parent (Pool.selectParent_lt hplace')
  dsimp only
  rw [hchromosome, hchromosome']
  exact .inRange_bind hfirst (.inRange_bind hsecond (Chromosome.crossover?_confirms _ _))

theorem breed?_confirms (w : Gewep) (metric : Metric) (pools : PoolSizes)
    (elite : List Individual) :
    Confirms (w.breed? metric pools elite : OptionT (Draw σ) Population)
      (w.breed metric pools elite) :=
  ((w.mutant?_confirms elite).times pools.mutation).bind fun _ _ _ _ =>
    ((crossChild?_confirms elite).times pools.crossover).map _

/-- In the elitist strategy with exclusive pools no generation of anybody leaves its ranges. -/
theorem advance?_confirms (w : Gewep) (p : Population) :
    Confirms (w.advance? p : OptionT (Search σ) Population) (w.advance p) := by
  unfold advance? advance
  by_cases hempty : p.isEmpty = true
  · rw [if_pos hempty, if_pos hempty]
    exact .lift _
  rw [if_neg hempty, if_neg hempty]
  have hsize : 0 < p.size := List.length_pos_iff.mpr (mt Population.isEmpty_iff.mpr hempty)
  have helite : (w.pools p.size).elite ≤ p.ranked.individuals.length := by
    rw [Population.length_ranked]
    exact (PoolSizes.partition_le hsize _ _).1
  refine .inRange_bind (PoolSizes.partition?_eq _ _ _) ?_
  exact .inRange_bind (slice?_of_le helite) (w.breed?_confirms _ _ _).ofDraw

end Gewep

/-! ### The random strategy -/

def Individual.draw? (metric : Metric) (least greatest : Nat) : OptionT (Draw σ) Individual := do
  return .ofChromosome metric (← Chromosome.draw? least greatest)

def Population.draw? (metric : Metric) (size least greatest : Nat) :
    OptionT (Draw σ) Population := do
  return ⟨metric, ← Draw.times? size (Individual.draw? metric least greatest)⟩

theorem Population.draw?_confirms (metric : Metric) (size least greatest : Nat) :
    Confirms (draw? metric size least greatest : OptionT (Draw σ) Population)
      (draw metric size least greatest) :=
  (((Chromosome.draw?_confirms least greatest).map _).times size).map _

namespace RandomElitist

/-- The survivors have to be a slice of the population, and are joined with the random individuals. -/
def advance? (r : RandomElitist) (p : Population) : OptionT (Search σ) Population :=
  if p.isEmpty then OptionT.lift (Search.fail (.invariant .emptyForRandom))
  else do
    let elite ← inRange (slice? p.ranked.individuals (r.eliteCount p.size))
    let fresh ← inRange (p.size.psub (r.eliteCount p.size))
    let others ← OptionT.mk <| Search.ofDraw <| OptionT.run <|
      Population.draw? p.metric fresh r.options.leastLength r.options.greatestLength
    OptionT.lift (Search.ofExcept
      ((Population.union ⟨p.metric, elite⟩ others).mapError .invariant))

theorem refill_eq (r : RandomElitist) (metric : Metric) (elite : List Individual) (fresh : Nat) :
    (r.refill metric elite fresh : Draw σ Population) =
      (fun others => ⟨metric, elite ++ others.individuals⟩) <$>
        Population.draw metric fresh r.options.leastLength r.options.greatestLength :=
  (map_eq_pure_bind _ _).symm

theorem union_of_draw {metric : Metric} {size least greatest : Nat} {others : Population} {g g' : σ}
    (h : outcome (Population.draw metric size least greatest) g = (.ok others, g'))
    (elite : List Individual) :
    Population.union ⟨metric, elite⟩ others = .ok ⟨metric, elite ++ others.individuals⟩ := by
  obtain ⟨hmetric, -, -⟩ := Population.draw_ok h
  refine if_pos ?_
  rw [Population.SharesMetric, hmetric]

/-- In the random strategy no generation of anybody leaves its ranges. -/
theorem advance?_confirms (r : RandomElitist) (p : Population) :
    Confirms (r.advance? p : OptionT (Search σ) Population) (r.advance p) := by
  unfold advance? advance
  by_cases hempty : p.isEmpty = true
  · rw [if_pos hempty, if_pos hempty]
    exact .lift _
  rw [if_neg hempty, if_neg hempty]
  have hsurvivors : r.eliteCount p.size ≤ p.size := Pool.count_le _ _
  have helite : r.eliteCount p.size ≤ p.ranked.individuals.length := by
    rw [Population.length_ranked]
    exact hsurvivors
  refine .inRange_bind (slice?_of_le helite) (.inRange_bind (Nat.psub_eq_sub hsurvivors) ?_)
  dsimp only
  rw [refill_eq, Search.ofDraw_map, map_eq_pure_bind]
  refine (Population.draw?_confirms _ _ _ _).ofDraw.bind fun others _ _ hothers => ?_
  rw [union_of_draw (ofDraw_ok hothers)]
  exact .lift _

end RandomElitist

/-! ### Strategies -/

namespace Strategy

def advance? (s : Strategy) (p : Population) : OptionT (Search σ) Population :=
  match s with
  | random r => r.advance? p
  | gewep w => w.advance? p

theorem advance?_confirms (s : Strategy) (p : Population) :
    Confirms (s.advance? p : OptionT (Search σ) Population) (s.advance p) := by
  cases s with
  | random r => exact r.advance?_confirms p
  | gewep w => exact w.advance?_confirms p

end Strategy

end StepSearch
