import StepSearch.Proofs.Lengths
import StepSearch.Proofs.PoolCounts
import StepSearch.Proofs.SafeGenerations

/-!
# A single survivor

The random strategy is usually made without a fraction for its elite, and takes the one that a single
individual of the population is. The population keeps its size, so that this fraction counts one
individual in every round: the best one stays, and all others are drawn.
-/

namespace StepSearch

variable {σ : Type} [WordSource σ]

namespace RandomElitist

/-- Draws `n` individuals to stand behind a survivor. If there are bounds for that, those whose
chromosome is repeated are drawn once more. -/
def drawOthers (r : RandomElitist) (metric : Metric) (bounds : Option (Nat × Nat))
    (survivor : Individual) (n : Nat) : Draw σ (List Individual) := do
  let fresh ← Draw.times n
    (Individual.draw metric r.options.leastLength r.options.greatestLength)
  match bounds with
  | none => return fresh
  | some (least, greatest) =>
    Population.replaceRepeats metric least greatest [survivor.chromosome] fresh

theorem drawOthers_length {r : RandomElitist} {metric : Metric} {bounds : Option (Nat × Nat)}
    {survivor : Individual} {n : Nat} {g g' : σ} {others : List Individual}
    (h : outcome (r.drawOthers metric bounds survivor n) g = (.ok others, g')) :
    others.length = n := by
  obtain ⟨fresh, m, hfresh, h⟩ := bind_ok h
  have hlength := Draw.times_length hfresh
  cases bounds with
  | none =>
    obtain ⟨rfl, -⟩ := pure_ok h
    exact hlength
  | some range =>
    obtain ⟨hsame, -⟩ := Population.replaceRepeats_ok (fun _ _ _ => Individual.draw_fits) h
    exact hsame.trans hlength

variable {r : RandomElitist} {p q : Population} {g g' : σ}

theorem advance_single (hcount : r.eliteCount p.size = 1)
    (h : outcome (r.advance p) g = (.ok q, g')) :
    ∃ best fresh, p.best? = some best ∧
      outcome (Draw.times (p.size - 1) (Individual.draw p.metric r.options.leastLength
        r.options.greatestLength)) g = (.ok fresh, g') ∧
      q = ⟨p.metric, best :: fresh⟩ := by
  obtain ⟨hne, -⟩ := advance_ok h
  obtain ⟨best, hbest⟩ := Population.best?_isSome hne
  obtain ⟨rest, hranked⟩ := List.head?_eq_some_iff.mp ((Population.head?_ranked p).trans hbest)
  unfold advance refill at h
  rw [if_neg (mt Population.isEmpty_iff.mp hne)] at h
  simp only [hcount, hranked] at h
  obtain ⟨others, m, hothers, h⟩ := bind_ok (ofDraw_ok h)
  obtain ⟨rfl, rfl⟩ := pure_ok h
  obtain ⟨fresh, m', hfresh, hothers⟩ := bind_ok hothers
  obtain ⟨rfl, rfl⟩ := pure_ok hothers
  exact ⟨best, fresh, hbest, hfresh, rfl⟩

/-- The survivor stands in front, so its chromosome is never a repeated one. -/
theorem offspring_single {bounds : Option (Nat × Nat)} (hcount : r.eliteCount p.size = 1)
    (h : outcome (Run.offspring (Strategy.random r).toAlgorithm bounds p) g = (.ok q, g')) :
    ∃ best others, p.best? = some best ∧
      outcome (r.drawOthers p.metric bounds best (p.size - 1)) g = (.ok others, g') ∧
      q = ⟨p.metric, best :: others⟩ := by
  obtain ⟨next, m, hnext, h⟩ := bind_ok h
  obtain ⟨best, fresh, hbest, hfresh, rfl⟩ := advance_single hcount hnext
  cases bounds with
  | none =>
    obtain ⟨rfl, rfl⟩ := pure_ok h
    refine ⟨best, fresh, hbest, ?_, rfl⟩
    unfold drawOthers
    rw [bind_of_ok hfresh]
    rfl
  | some range =>
    obtain ⟨individuals, m', hindividuals, h⟩ := bind_ok (ofDraw_ok h)
    obtain ⟨rfl, rfl⟩ := pure_ok h
    unfold Population.replaceRepeats at hindividuals
    rw [if_neg List.not_mem_nil] at hindividuals
    obtain ⟨others, m'', hothers, hindividuals⟩ := bind_ok hindividuals
    obtain ⟨rfl, rfl⟩ := pure_ok hindividuals
    refine ⟨best, others, hbest, ?_, rfl⟩
    unfold drawOthers
    rw [bind_of_ok hfresh]
    exact hothers

end RandomElitist

/-! ### The default -/

theorem RandomElitist.eliteCount_default {r : RandomElitist} {size least greatest : Nat}
    (h : r.options = .forPopulation size least greatest) :
    r.eliteCount size = Pool.count (Pool.defaultElite size) size := by
  unfold RandomElitist.eliteCount
  unfold RandomOptions.forPopulation at h
  generalize Pool.defaultElite size = fraction at h ⊢
  rw [h]

namespace StrategySettings

variable {settings : StrategySettings} {size : Nat}

theorem randomOptions_default (h : settings.elitePool = none) : settings.randomOptions size =
    .forPopulation size settings.leastLength settings.greatestLength := by
  unfold randomOptions RandomOptions.forPopulation
  generalize Pool.defaultElite size = fraction
  rw [h, Option.getD_none]

theorem build_random (hkind : settings.kind = .random) (hsize : 0 < size) : settings.build size =
    (RandomElitist.ofOptions (settings.randomOptions size)).map .random := by
  unfold build
  rw [if_neg (Nat.ne_of_gt hsize), hkind]

end StrategySettings

namespace Run

/-- Whether the population of `t` consists of the best individual of that of `s` and of others that are
drawn with the words at hand in `s`, as many as there are places left. -/
def OnlyBestSurvives (r : RandomElitist) (bounds : Option (Nat × Nat)) (size : Nat)
    (s t : State σ) : Prop :=
  ∃ best others, s.population.best? = some best ∧
    outcome (r.drawOthers s.population.metric bounds best (size - 1)) s.bench.generator =
      (.ok others, t.bench.generator) ∧
    t.population = ⟨s.population.metric, best :: others⟩ ∧ others.length = size - 1

theorem rounds_size {strategy : Strategy} {bounds : Option (Nat × Nat)} {path : Option String}
    {k : Nat} {progress progress' : Progress} {s t : State σ}
    (h : outcome (rounds strategy.toAlgorithm bounds path k progress) s = (.ok progress', t)) :
    t.population.size = s.population.size := by
  refine rounds_induction (fun _ p => p.size = s.population.size) ?_ h rfl
  intro _ p q g g' hp hq
  exact (offspring_ok hq).size_eq.trans hp

theorem onlyBestSurvives_of_offspring {r : RandomElitist} {bounds : Option (Nat × Nat)} {size : Nat}
    {s t : State σ} (hcount : r.eliteCount size = 1) (hsize : s.population.size = size)
    (h : outcome (offspring (Strategy.random r).toAlgorithm bounds s.population) s.bench.generator =
      (.ok t.population, t.bench.generator)) : OnlyBestSurvives r bounds size s t := by
  subst hsize
  obtain ⟨best, others, hbest, hothers, ht⟩ := RandomElitist.offspring_single hcount h
  exact ⟨best, others, hbest, hothers, ht, RandomElitist.drawOthers_length hothers⟩

/-- By default one individual survives each round of the random strategy.

For every size of a population the default fraction counts one individual. So if the strategy is made
for the population without a fraction for the elite, every round that is completed keeps the best
individual and draws all others, and so does the last one if it fails when the new population is
saved. -/
theorem default_elite_is_one_survivor {n : Nat} (hn : 1 ≤ n) (hword : n < 2 ^ 64) :
    Pool.count (Pool.defaultElite n) n = 1 ∧
    ∀ (settings : StrategySettings) (strategy : Strategy), settings.kind = .random →
      settings.elitePool = none → settings.build n = .ok strategy →
      ∃ r, strategy = .random r ∧
        r.options = .forPopulation n settings.leastLength settings.greatestLength ∧
        ∀ (options : RunOptions) (bounds : Option (Nat × Nat)) (start : State σ),
          options.duplicateBounds = .ok bounds → start.population.size = n →
          (∀ k progress progress' s t,
            outcome (rounds strategy.toAlgorithm bounds options.autosave k {}) start =
              (.ok progress, s) →
            outcome (round strategy.toAlgorithm bounds options.autosave progress) s =
              (.ok progress', t) →
            OnlyBestSurvives r bounds n s t) ∧
          ∀ allotment result final,
            outcome (execute strategy.toAlgorithm options allotment) start = (result, final) →
            ∃ k progress s, k ≤ options.maxRounds.getD allotment ∧
              outcome (rounds strategy.toAlgorithm bounds options.autosave k {}) start =
                (.ok progress, s) ∧
              (final.population = s.population ∨ OnlyBestSurvives r bounds n s final) := by
  have hone := Pool.count_defaultElite hn hword
  refine ⟨hone, fun settings strategy hkind hdefault hbuild => ?_⟩
  rw [StrategySettings.build_random hkind hn, StrategySettings.randomOptions_default hdefault]
    at hbuild
  obtain ⟨r, hr, rfl⟩ := Except.map_ok hbuild
  have hoptions := RandomElitist.ofOptions_ok hr
  have hcount : r.eliteCount n = 1 := (RandomElitist.eliteCount_default hoptions).trans hone
  refine ⟨r, rfl, hoptions, fun options bounds start hbounds hsize => ⟨?_, ?_⟩⟩
  · intro k progress progress' s t hrounds hround
    obtain ⟨hoffspring, -, -⟩ := round_ok hround
    exact onlyBestSurvives_of_offspring hcount ((rounds_size hrounds).trans hsize) hoffspring
  · intro allotment result final hrun
    obtain ⟨k, progress, s, hk, hrounds, hlast⟩ := execute_population hbounds hrun
    refine ⟨k, progress, s, hk, hrounds, hlast.imp_right fun ⟨_, hoffspring⟩ => ?_⟩
    exact onlyBestSurvives_of_offspring hcount ((rounds_size hrounds).trans hsize) hoffspring

def smallRandomSettings : StrategySettings where
  kind := .random
  leastLength := 1
  greatestLength := 2

/-- In the small search the default keeps one of four, and three are drawn. -/
theorem small_random_search_has_one_survivor : ∃ summary final best others,
    smallRandomSettings.build 4 = .ok (.random smallRandom) ∧
    outcome (execute (Strategy.random smallRandom).toAlgorithm (smallOptions none) 0) smallStart =
      (.ok (some summary), final) ∧
    smallStart.population.best? = some best ∧
    final.population.individuals = best :: others ∧ others.length = 3 := by
  have hbuild : smallRandomSettings.build 4 = .ok (.random smallRandom) := by
    rw [StrategySettings.build_random rfl (by decide), StrategySettings.randomOptions_default rfl]
    exact congrArg (Except.map Strategy.random)
      (RandomElitist.ofOptions_of_valid smallRandom.valid)
  obtain ⟨summary, final, hrun⟩ :=
    smallStart_execute none (fun _ h => by cases h) (Strategy.random smallRandom)
  obtain ⟨bounds, n, u, hbounds, hmax, hrounds, hfinal, -, -⟩ := execute_ok hrun
  obtain rfl : 1 = n := Option.some.inj hmax
  obtain ⟨middle, s, hbefore, hround⟩ := rounds_last_ok hrounds
  obtain ⟨-, hdefault⟩ := default_elite_is_one_survivor (σ := Script) (n := 4) (by decide) (by decide)
  obtain ⟨r, hr, -, hrandom⟩ := hdefault _ _ rfl rfl hbuild
  obtain rfl : smallRandom = r := Strategy.random.inj hr
  obtain ⟨hkept, -⟩ := hrandom (smallOptions none) bounds smallStart hbounds rfl
  obtain ⟨best, others, hbest, -, hu, hothers⟩ := hkept 0 middle summary s u hbefore hround
  obtain ⟨-, rfl⟩ := pure_ok hbefore
  refine ⟨summary, final, best, others, hbuild, hrun, hbest, ?_, hothers⟩
  rw [hfinal, hu]

end Run

end StepSearch
