import StepSearch.Proofs.Agreement

/-!
# The order of the costs

A search under a metric and one under another metric whose costs come in the same order have the same
chromosomes in every generation and draw the same words. What they report as the best fitness differs
as the costs do.
-/

namespace StepSearch

/-- The same progress with other costs. -/
def Progress.rescaled (f : Nat → Nat) (progress : Progress) : Progress where
  rounds := progress.rounds
  bestFitness := progress.bestFitness.map f

theorem min_of_strictMonoOn {f : Nat → Nat} {costs : Set Nat} (hf : StrictMonoOn f costs) {m n : Nat}
    (hm : m ∈ costs) (hn : n ∈ costs) : min (f m) (f n) = f (min m n) := by
  rcases Nat.le_total m n with hle | hle
  · have hle' := (hf.le_iff_le hm hn).mpr hle
    rw [Nat.min_eq_left hle, Nat.min_eq_left hle']
  · have hle' := (hf.le_iff_le hn hm).mpr hle
    rw [Nat.min_eq_right hle, Nat.min_eq_right hle']

/-- Whether the progress of a second run is that of a first one but for the costs, and the best cost
of the first one is among the given ones. -/
def Progress.Mirrors (f : Nat → Nat) (costs : Set Nat) (a b : Progress) : Prop :=
  b = a.rescaled f ∧ ∀ n, a.bestFitness = some n → n ∈ costs

theorem Progress.Mirrors.next {f : Nat → Nat} {costs : Set Nat} (hf : StrictMonoOn f costs)
    {a b : Progress} {p : Population} (hp : p.CostsIn costs) (h : a.Mirrors f costs b)
    (metric : Metric) : (a.next p).Mirrors f costs (b.next (p.rescaled f metric)) := by
  obtain ⟨rfl, hcosts⟩ := h
  have hbest' := Population.best?_rescaled hf hp metric
  unfold Mirrors Progress.next Progress.rescaled
  cases hbest : p.best? with
  | none =>
    rw [hbest, Option.map_none] at hbest'
    simp only [hbest', true_and]
    exact hcosts
  | some best =>
    rw [hbest, Option.map_some] at hbest'
    have hmem := hp.fitness_mem best (Population.best?_least hbest).1
    cases hseen : a.bestFitness with
    | none =>
      simp only [hbest', Option.map_none, Option.map_some, Individual.rescale_fitness, true_and]
      rintro _ ⟨⟩
      exact hmem
    | some least =>
      have hleast := hcosts least hseen
      simp only [hbest', Option.map_some, Individual.rescale_fitness,
        min_of_strictMonoOn hf hleast hmem, true_and]
      rintro _ ⟨⟩
      rcases Nat.le_total least best.fitness with hle | hle
      · rwa [Nat.min_eq_left hle]
      · rwa [Nat.min_eq_right hle]

theorem Progress.Mirrors.start (f : Nat → Nat) (costs : Set Nat) : Mirrors f costs {} {} :=
  ⟨rfl, fun _ h => by cases h⟩

namespace Run

variable {σ : Type}

theorem State.mirrors_of_chromosomes {metric metric' : Metric} {f : Nat → Nat}
    {chromosomes : List Chromosome} {s t : State σ} (hmetric : metric'.evaluate = f ∘ metric.evaluate)
    (hs : s.population = .ofChromosomes metric chromosomes)
    (ht : t.population = .ofChromosomes metric' chromosomes)
    (hgenerator : t.bench.generator = s.bench.generator) : s.Mirrors f t := by
  refine ⟨?_, ?_, hgenerator⟩
  · rw [hs, ht, Population.ofChromosomes, Population.ofChromosomes,
      Individual.ofChromosome_rescale hmetric, List.map_map]
  · rw [hs, ht]
    exact hmetric

theorem State.Mirrors.chromosomes_eq {f : Nat → Nat} {s t : State σ} (h : s.Mirrors f t) :
    t.population.chromosomes = s.population.chromosomes := by
  rw [h.population_eq, Population.rescaled_chromosomes]

variable [WordSource σ]

/-- Rounds from the same chromosomes under costs in the same order. -/
theorem rounds_mirror_costs {f : Nat → Nat} {costs : Set Nat} {strategy : Strategy}
    {bounds : Option (Nat × Nat)} {path path' : Option String} {k : Nat} {s t u v : State σ}
    {r r' : Except Failure Progress} (hf : StrictMonoOn f costs) (hst : s.Mirrors f t)
    (hcosts : s.population.CostsIn costs)
    (hs : outcome (rounds strategy.toAlgorithm bounds path k {}) s = (r, u))
    (ht : outcome (rounds strategy.toAlgorithm bounds path' k {}) t = (r', v))
    (hr : Undisturbed r) (hr' : Undisturbed r') :
    r' = r.map (Progress.rescaled f) ∧ u.Mirrors f v := by
  have hnext : ∀ (a b : Progress) p metric, Population.CostsIn costs p → a.Mirrors f costs b →
      (a.next p).Mirrors f costs (b.next (p.rescaled f metric)) :=
    fun a b p metric hp hab => Progress.Mirrors.next hf hp hab metric
  have hquiet : Undisturbed (outcome (rounds strategy.toAlgorithm bounds path k {}) s).1 := by
    rw [hs]
    exact hr
  have hquiet' : Undisturbed (outcome (rounds strategy.toAlgorithm bounds path' k {}) t).1 := by
    rw [ht]
    exact hr'
  obtain ⟨hstate, hresult⟩ :=
    rounds_mirror hnext hf hst hcosts (.start f costs) hquiet hquiet'
  rw [hs, ht] at hstate hresult
  exact ⟨hresult.eq_map fun _ _ h => h.1, hstate⟩

/-- Two runs from the same chromosomes and the same generator, under metrics whose costs come in the
same order, have after every round the same chromosomes in the same places and the same words left,
and the best fitness of the second is that of the first in the other costs. They may save their
populations or not, as long as no report is refused and no file operation fails. -/
theorem only_the_order_of_costs_matters {metric metric' : Metric} {f : Nat → Nat}
    {chromosomes : List Chromosome} {strategy : Strategy} {options : RunOptions}
    {path : Option String} {allotment : Nat} {start start' final final' : State σ}
    {result result' : Except Failure (Option Progress)}
    (hf : StrictMonoOn f (Set.range metric.evaluate))
    (hmetric : metric'.evaluate = f ∘ metric.evaluate)
    (hstart : start.population = .ofChromosomes metric chromosomes)
    (hstart' : start'.population = .ofChromosomes metric' chromosomes)
    (hgenerator : start'.bench.generator = start.bench.generator)
    (hrun : outcome (execute strategy.toAlgorithm options allotment) start = (result, final))
    (hrun' : outcome (execute strategy.toAlgorithm (options.saving path) allotment) start' =
      (result', final')) :
    (∀ bounds k r s r' s', options.duplicateBounds = .ok bounds →
      outcome (rounds strategy.toAlgorithm bounds options.autosave k {}) start = (r, s) →
      outcome (rounds strategy.toAlgorithm bounds path k {}) start' = (r', s') →
      Undisturbed r → Undisturbed r' →
      r' = r.map (Progress.rescaled f) ∧
        s'.population.chromosomes = s.population.chromosomes ∧
        s'.bench.generator = s.bench.generator) ∧
    (Undisturbed result → Undisturbed result' →
      result' = result.map (Option.map (Progress.rescaled f)) ∧
        final'.population.chromosomes = final.population.chromosomes ∧
        final'.bench.generator = final.bench.generator) := by
  have hmirrors := State.mirrors_of_chromosomes hmetric hstart hstart' hgenerator
  have hcosts : start.population.CostsIn (Set.range metric.evaluate) := by
    rw [hstart]
    exact Population.ofChromosomes_costsIn metric chromosomes
  refine ⟨?_, ?_⟩
  · intro bounds k r s r' s' _ hr hr' hquiet hquiet'
    obtain ⟨hresult, hstate⟩ := rounds_mirror_costs hf hmirrors hcosts hr hr' hquiet hquiet'
    exact ⟨hresult, hstate.chromosomes_eq, hstate.generator⟩
  intro hquiet hquiet'
  cases hbounds : options.duplicateBounds with
  | error fault =>
    have hbounds' : (options.saving path).duplicateBounds = .error fault := hbounds
    rw [execute_of_fault hbounds] at hrun
    rw [execute_of_fault hbounds'] at hrun'
    cases hrun
    cases hrun'
    exact ⟨rfl, hmirrors.chromosomes_eq, hgenerator⟩
  | ok bounds =>
    have hbounds' : (options.saving path).duplicateBounds = .ok bounds := hbounds
    rcases hr : outcome (rounds strategy.toAlgorithm bounds options.autosave
      (options.maxRounds.getD allotment) {}) start with ⟨r, s⟩
    rcases hr' : outcome (rounds strategy.toAlgorithm bounds path
      (options.maxRounds.getD allotment) {}) start' with ⟨r', s'⟩
    obtain ⟨journal, hexecute⟩ := execute_eq_rounds _ hbounds allotment start hr
    obtain ⟨journal', hexecute'⟩ := execute_eq_rounds _ hbounds' allotment start' hr'
    rw [hexecute] at hrun
    rw [hexecute'] at hrun'
    cases hrun
    cases hrun'
    obtain ⟨hresult, hstate⟩ :=
      rounds_mirror_costs hf hmirrors hcosts hr hr' hquiet.of_map hquiet'.of_map
    refine ⟨?_, hstate.chromosomes_eq, hstate.generator⟩
    rw [hresult]
    cases r with
    | error failure => rfl
    | ok progress => simp only [Except.map, RunOptions.saving, Option.map_map, Function.comp_def]

/-- The length of a chromosome, counted in twos and one more. -/
def oddLength : Metric where
  key := 1
  evaluate c := 2 * c.length + 1

/-- The small search under this metric. -/
def oddStart : State Script :=
  { smallStart with
    population := .ofChromosomes oddLength smallStart.population.chromosomes }

theorem odd_search_mirrors_small_search : ∃ summary final summary' final',
    outcome (execute smallStrategy.toAlgorithm (smallOptions none) 0) smallStart =
      (.ok (some summary), final) ∧
    outcome (execute smallStrategy.toAlgorithm ((smallOptions none).saving none) 0) oddStart =
      (.ok (some summary'), final') ∧
    summary' = summary.rescaled (2 * · + 1) ∧
    final'.population.chromosomes = final.population.chromosomes := by
  obtain ⟨summary, final, hrun⟩ := smallStart_execute none fun _ h => by cases h
  have hquiet' := execute_undisturbed smallStrategy ((smallOptions none).saving none) rfl 0
    (s := oddStart) rfl
  rcases hrun' : outcome (execute smallStrategy.toAlgorithm ((smallOptions none).saving none) 0)
    oddStart with ⟨result', final'⟩
  rw [hrun'] at hquiet'
  have horder : StrictMono (2 * · + 1 : Nat → Nat) := fun m n hmn => by dsimp only; omega
  have hmetric : oddLength.evaluate = (2 * · + 1) ∘ (Metric.chromosomeLength 0).evaluate := rfl
  have hstart : smallStart.population =
      .ofChromosomes (.chromosomeLength 0) smallStart.population.chromosomes := rfl
  have hstart' : oddStart.population =
      .ofChromosomes oddLength smallStart.population.chromosomes := rfl
  obtain ⟨-, hwhole⟩ := only_the_order_of_costs_matters
    (horder.strictMonoOn _) hmetric hstart hstart' rfl hrun hrun'
  obtain ⟨hresult, hchromosomes, -⟩ := hwhole (Undisturbed.ok _) hquiet'
  have hok : result' = .ok (some (summary.rescaled (2 * · + 1))) := hresult
  exact ⟨summary, final, summary.rescaled (2 * · + 1), final', hrun, by rw [hok], rfl, hchromosomes⟩

end Run

end StepSearch
