import StepSearch.Proofs.CheckedGenerations
import StepSearch.Proofs.Rounds

/-!
# Generations that never fail

A strategy checks its options once, when it is made. That is enough for every generation afterwards:
whatever words are drawn, a population that is not empty has a next generation, no draw is misused,
and no size, place or difference that is worked with is out of range: the generation in which all of
them are checked is the same.
-/

namespace StepSearch

theorem Gewep.ofOptions_ok {options : GewepOptions} {w : Gewep} (h : ofOptions options = .ok w) :
    w.options = options := by
  unfold ofOptions at h
  split at h
  · cases h
    rfl
  · cases h

theorem Gewep.ofOptions_of_valid {options : GewepOptions} (h : options.validate = .ok ()) :
    ofOptions options = .ok ⟨options, h⟩ := by
  unfold ofOptions
  split
  · rfl
  · next fault hfault =>
    rw [h] at hfault
    cases hfault

theorem RandomElitist.ofOptions_ok {options : RandomOptions} {r : RandomElitist}
    (h : ofOptions options = .ok r) : r.options = options := by
  unfold ofOptions at h
  split at h
  · cases h
    rfl
  · cases h

theorem RandomElitist.ofOptions_of_valid {options : RandomOptions}
    (h : options.validate = .ok ()) : ofOptions options = .ok ⟨options, h⟩ := by
  unfold ofOptions
  split
  · rfl
  · next fault hfault =>
    rw [h] at hfault
    cases hfault

theorem Step.place_lt {place : Nat} {σ : Type} [WordSource σ] {g g' : σ}
    (h : outcome (Draw.exclusive 0 all.length) g = (.ok place, g')) : place < all.length :=
  (Draw.exclusive_mem h).2

/-! ### Sizes, places and chances -/

/-- What a generation of `p` relies on in the elitist strategy with exclusive pools. -/
structure Gewep.Feasible (σ : Type) [WordSource σ] (w : Gewep) (p : Population) : Prop where
  /-- Every chance that is ever drawn lies between zero and one. -/
  chances : ∀ chance ∈ [w.options.randomisationChance, w.options.deletionChance,
    w.options.stepsToRandomise, w.options.stepsToAddOrDelete], chance.isUnit = true
  elite_le_ranked : (w.pools p.size).elite ≤ p.ranked.individuals.length
  elite_le_size : (w.pools p.size).elite ≤ p.size
  mutation_le_rest : (w.pools p.size).mutation ≤ p.size - (w.pools p.size).elite
  pools_sum : (w.pools p.size).elite + (w.pools p.size).mutation + (w.pools p.size).crossover =
    p.size
  parents_ne_nil : p.ranked.individuals.take (w.pools p.size).elite ≠ []
  parent_lt : ∀ (place : Nat) (g g' : σ),
    outcome (Pool.selectParent (p.ranked.individuals.take (w.pools p.size).elite).length) g =
      (.ok place, g') → place < (p.ranked.individuals.take (w.pools p.size).elite).length

/-- What a generation of `p` relies on in the random strategy. -/
structure RandomElitist.Feasible (r : RandomElitist) (p : Population) : Prop where
  lengths : r.options.leastLength ≤ r.options.greatestLength
  survivors_le_ranked : r.eliteCount p.size ≤ p.ranked.individuals.length
  survivors_le_size : r.eliteCount p.size ≤ p.size

variable {σ : Type} [WordSource σ] {p : Population}

theorem Gewep.feasible (w : Gewep) (hp : p.individuals ≠ []) : w.Feasible σ p := by
  have hsize : 0 < p.size := List.length_pos_iff.mpr hp
  obtain ⟨hrandomisation, hdeletion, hrandomise, haddOrDelete⟩ := GewepOptions.validate_ok w.valid
  obtain ⟨helite, hmutation⟩ : (w.pools p.size).elite ≤ p.size ∧
      (w.pools p.size).mutation ≤ p.size - (w.pools p.size).elite :=
    PoolSizes.partition_le hsize _ _
  have hone : 1 ≤ (w.pools p.size).elite := PoolSizes.one_le_elite hsize _ _
  constructor
  case chances => simp [hrandomisation, hdeletion, hrandomise, haddOrDelete]
  case elite_le_ranked =>
    rw [Population.length_ranked]
    exact helite
  case elite_le_size => exact helite
  case mutation_le_rest => exact hmutation
  case pools_sum => exact PoolSizes.partition_sum p.size _ _
  case parents_ne_nil =>
    have hlength : 0 < (p.ranked.individuals.take (w.pools p.size).elite).length := by
      rw [List.length_take, Population.length_ranked]
      omega
    exact List.length_pos_iff.mp hlength
  case parent_lt => exact fun place g g' h => Pool.selectParent_lt h

theorem RandomElitist.feasible (r : RandomElitist) (p : Population) : r.Feasible p := by
  obtain ⟨-, hlengths⟩ := RandomOptions.validate_ok r.valid
  have hsurvivors : r.eliteCount p.size ≤ p.size := Pool.count_le _ _
  refine ⟨hlengths, ?_, hsurvivors⟩
  rw [Population.length_ranked]
  exact hsurvivors

/-! ### The next generation -/

/-- The survivors and the random individuals are under one metric, so they can be joined, and the next
generation is their union. -/
theorem RandomElitist.advance_union (r : RandomElitist) (hp : p.individuals ≠ []) (g : σ) :
    ∃ fresh q g', outcome (Population.draw p.metric (p.size - r.eliteCount p.size)
        r.options.leastLength r.options.greatestLength) g = (.ok fresh, g') ∧
      Population.union ⟨p.metric, p.ranked.individuals.take (r.eliteCount p.size)⟩ fresh = .ok q ∧
      outcome (r.advance p) g = (.ok q, g') := by
  obtain ⟨-, hlengths⟩ := RandomOptions.validate_ok r.valid
  obtain ⟨fresh, g', hfresh⟩ :=
    Population.draw_total p.metric (p.size - r.eliteCount p.size) hlengths g
  refine ⟨fresh, ⟨p.metric, p.ranked.individuals.take (r.eliteCount p.size) ++ fresh.individuals⟩,
    g', hfresh, union_of_draw hfresh _, ?_⟩
  unfold advance refill
  rw [if_neg (mt Population.isEmpty_iff.mp hp), outcome_ofDraw, bind_of_ok hfresh]
  rfl

theorem Gewep.advance_nobody (w : Gewep) (hp : p.individuals = []) (g : σ) :
    outcome (w.advance p) g = (.error (.error (.invariant .emptyForGewep)), g) := by
  unfold advance
  rw [if_pos (Population.isEmpty_iff.mpr hp)]
  rfl

theorem RandomElitist.advance_nobody (r : RandomElitist) (hp : p.individuals = []) (g : σ) :
    outcome (r.advance p) g = (.error (.error (.invariant .emptyForRandom)), g) := by
  unfold advance
  rw [if_pos (Population.isEmpty_iff.mpr hp)]
  rfl

/-- Options that are accepted keep every generation safe.

Whatever numbers the options are, if the strategy is made of them, every population that is not empty
has a next generation, whatever words are drawn, and it is the one that is made with all checks. The
chances are chances, the survivors are there, the pools share the population out, parents are taken
from somebody, and the lengths are in order. The places that are drawn or computed on the way are in
range. A population of nobody is refused before a word is drawn. -/
theorem accepted_options_never_fail :
    (∀ (options : GewepOptions) (w : Gewep), Gewep.ofOptions options = .ok w →
      w.options = options ∧ ∀ p : Population,
        (p.individuals ≠ [] → w.Feasible σ p ∧
          ∀ g : σ, ∃ q g', outcome (w.advance p) g = (.ok q, g') ∧
            outcome (w.advance? p).run g = (.ok (some q), g')) ∧
        (p.individuals = [] → ∀ g : σ,
          outcome (w.advance p) g = (.error (.error (.invariant .emptyForGewep)), g))) ∧
    (∀ (options : RandomOptions) (r : RandomElitist), RandomElitist.ofOptions options = .ok r →
      r.options = options ∧ ∀ p : Population,
        (p.individuals ≠ [] → r.Feasible p ∧
          ∀ g : σ, ∃ fresh q g', outcome (Population.draw p.metric (p.size - r.eliteCount p.size)
              r.options.leastLength r.options.greatestLength) g = (.ok fresh, g') ∧
            Population.union ⟨p.metric, p.ranked.individuals.take (r.eliteCount p.size)⟩ fresh =
              .ok q ∧
            outcome (r.advance p) g = (.ok q, g') ∧
            outcome (r.advance? p).run g = (.ok (some q), g')) ∧
        (p.individuals = [] → ∀ g : σ,
          outcome (r.advance p) g = (.error (.error (.invariant .emptyForRandom)), g))) ∧
    PlacesInRange σ ∧
    ∀ (place : Nat) (g g' : σ),
      outcome (Draw.exclusive 0 Step.all.length) g = (.ok place, g') → place < Step.all.length := by
  refine ⟨fun options w hw => ⟨Gewep.ofOptions_ok hw, fun p => ⟨fun hp => ?_, fun hp g => ?_⟩⟩,
    fun options r hr => ⟨RandomElitist.ofOptions_ok hr, fun p => ⟨fun hp => ?_, fun hp g => ?_⟩⟩,
    placesInRange, fun place g g' h => Step.place_lt h⟩
  · refine ⟨w.feasible hp, fun g => ?_⟩
    obtain ⟨q, g', hq⟩ := w.advance_total hp g
    exact ⟨q, g', hq, (w.advance?_confirms p).ok hq⟩
  · exact w.advance_nobody hp g
  · refine ⟨r.feasible p, fun g => ?_⟩
    obtain ⟨fresh, q, g', hfresh, hunion, hq⟩ := r.advance_union hp g
    exact ⟨fresh, q, g', hfresh, hunion, hq, (r.advance?_confirms p).ok hq⟩
  · exact r.advance_nobody hp g

/-- Two pools that take up everything, and chances at both ends, one of them a negative zero. -/
def extremeOptions : GewepOptions where
  mutationPool := .ofRatio false 1 2
  crossoverPool := .ofRatio false 1 2
  randomisationChance := .signedZero true
  deletionChance := .zero
  stepsToRandomise := .one
  stepsToAddOrDelete := .one

theorem extreme_options_never_fail : ∃ w r,
    Gewep.ofOptions extremeOptions = .ok w ∧
    RandomElitist.ofOptions (.forPopulation 4 1 2) = .ok r ∧
    (∃ q g, outcome (w.advance Run.smallStart.population) Run.smallStart.bench.generator =
        (.ok q, g) ∧
      outcome (w.advance? Run.smallStart.population).run Run.smallStart.bench.generator =
        (.ok (some q), g)) ∧
    (∃ q g, outcome (r.advance Run.smallStart.population) Run.smallStart.bench.generator =
        (.ok q, g) ∧
      outcome (r.advance? Run.smallStart.population).run Run.smallStart.bench.generator =
        (.ok (some q), g)) ∧
    outcome (w.advance ⟨.chromosomeLength 0, []⟩) Run.smallStart.bench.generator =
      (.error (.error (.invariant .emptyForGewep)), Run.smallStart.bench.generator) := by
  have hvalid : extremeOptions.validate = .ok () := Except.eq_ok_of_isOk (by decide +kernel)
  have hvalid' : (RandomOptions.forPopulation 4 1 2).validate = .ok () :=
    Except.eq_ok_of_isOk (by decide +kernel)
  have hne : Run.smallStart.population.individuals ≠ [] := List.cons_ne_nil _ _
  obtain ⟨hgewep, hrandom, -, -⟩ := accepted_options_never_fail (σ := Script)
  obtain ⟨-, hadvance⟩ := hgewep _ _ (Gewep.ofOptions_of_valid hvalid)
  obtain ⟨-, hadvance'⟩ := hrandom _ _ (RandomElitist.ofOptions_of_valid hvalid')
  obtain ⟨-, hnext⟩ := (hadvance Run.smallStart.population).1 hne
  obtain ⟨-, hnext'⟩ := (hadvance' Run.smallStart.population).1 hne
  obtain ⟨fresh, q, g, -, -, hq⟩ := hnext' Run.smallStart.bench.generator
  have hnobody := (hadvance ⟨.chromosomeLength 0, []⟩).2 rfl
  exact ⟨_, _, Gewep.ofOptions_of_valid hvalid, RandomElitist.ofOptions_of_valid hvalid',
    hnext _, ⟨q, g, hq⟩, hnobody _⟩

end StepSearch
