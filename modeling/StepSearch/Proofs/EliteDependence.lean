import Mathlib.Data.List.Nodup
import StepSearch.Proofs.Rounds

/-!
# Losers leave nothing behind

The next generation depends on the population through its size, its metric and the individuals that
survive. Who else was there, and in what order everybody stood, makes no difference, neither to the
individuals nor to the words that are drawn.
-/

namespace StepSearch

namespace Population

/-- Whether two populations have the same size and metric, and the same `elite` best individuals in
the same order. -/
structure SameElite (elite : Nat) (p q : Population) : Prop where
  size_eq : q.size = p.size
  metric_eq : q.metric = p.metric
  elite_eq : q.ranked.individuals.take elite = p.ranked.individuals.take elite

/-! ### Rankings -/

/-- If no two individuals are equally fit, they have one ranking, wherever they stood. -/
theorem ranked_individuals_of_perm {p q : Population} (h : q.individuals.Perm p.individuals)
    (hdistinct : (p.individuals.map Individual.fitness).Nodup) :
    q.ranked.individuals = p.ranked.individuals := by
  have hperm : q.ranked.individuals.Perm p.ranked.individuals :=
    (perm_ranked q).trans (h.trans (perm_ranked p).symm)
  refine List.Perm.eq_of_pairwise ?_ (ranked_pairwise q) (ranked_pairwise p) hperm
  intro i j hi hj hij hji
  have hi' : i ∈ p.individuals := h.mem_iff.mp (mem_ranked.mp hi)
  have hj' : j ∈ p.individuals := mem_ranked.mp hj
  have hfitness : i.fitness = j.fitness := Nat.le_antisymm hij hji
  exact List.inj_on_of_nodup_map hdistinct hi' hj' hfitness

namespace SameElite

theorem ranked (elite : Nat) (p : Population) : p.SameElite elite p.ranked where
  size_eq := length_ranked p
  metric_eq := rfl
  elite_eq := by rw [ranked_ranked]

theorem of_perm (elite : Nat) {p q : Population} (hmetric : q.metric = p.metric)
    (h : q.individuals.Perm p.individuals)
    (hdistinct : (p.individuals.map Individual.fitness).Nodup) : p.SameElite elite q where
  size_eq := h.length_eq
  metric_eq := hmetric
  elite_eq := by rw [ranked_individuals_of_perm h hdistinct]

theorem isEmpty_eq {elite : Nat} {p q : Population} (h : p.SameElite elite q) :
    q.isEmpty = p.isEmpty := by
  have hsize : q.individuals.length = p.individuals.length := h.size_eq
  rw [Bool.eq_iff_iff, isEmpty_iff, isEmpty_iff, ← List.length_eq_zero_iff, hsize,
    List.length_eq_zero_iff]

end SameElite

end Population

/-! ### The next generation -/

variable {σ : Type} [WordSource σ]

theorem RandomElitist.advance_congr (r : RandomElitist) {p q : Population}
    (h : p.SameElite (r.eliteCount p.size) q) :
    (r.advance q : Search σ Population) = r.advance p := by
  unfold advance
  simp only [h.isEmpty_eq, h.size_eq, h.metric_eq, h.elite_eq]

theorem Gewep.advance_congr (w : Gewep) {p q : Population}
    (h : p.SameElite (w.pools p.size).elite q) :
    (w.advance q : Search σ Population) = w.advance p := by
  unfold advance
  simp only [h.isEmpty_eq, h.size_eq, h.metric_eq, h.elite_eq]

theorem Strategy.advance_congr (s : Strategy) {p q : Population}
    (h : p.SameElite (s.eliteCount p.size) q) :
    (s.advance q : Search σ Population) = s.advance p := by
  cases s with
  | random r => exact r.advance_congr h
  | gewep w => exact w.advance_congr h

/-- Only the survivors have offspring.

A population of the same size under the same metric that has the same survivors has the same next
generation, and the same words are drawn for it. So ranking a population beforehand changes nothing,
and if no two individuals are equally fit, their order changes nothing either. -/
theorem losers_have_no_influence (strategy : Strategy) {p : Population} (hp : p.individuals ≠ []) :
    (∀ q, p.SameElite (strategy.eliteCount p.size) q → ∀ g : σ, ∃ next g',
      outcome (strategy.advance p) g = (.ok next, g') ∧
      outcome (strategy.advance q) g = (.ok next, g')) ∧
    (∀ g : σ, outcome (strategy.advance p.ranked) g = outcome (strategy.advance p) g) ∧
    ((p.individuals.map Individual.fitness).Nodup →
      ∀ q, q.metric = p.metric → q.individuals.Perm p.individuals →
        ∀ g : σ, outcome (strategy.advance q) g = outcome (strategy.advance p) g) := by
  refine ⟨fun q hq g => ?_, fun g => ?_, fun hdistinct q hmetric hperm g => ?_⟩
  · obtain ⟨next, g', hnext⟩ := strategy.advance_total hp g
    refine ⟨next, g', hnext, ?_⟩
    rw [strategy.advance_congr hq, hnext]
  · rw [strategy.advance_congr (.ranked _ p)]
  · rw [strategy.advance_congr (.of_perm _ hmetric hperm hdistinct)]

/-- The small search with other losers, and with its survivors at other places. -/
def Run.otherLosers : Population :=
  .ofChromosomes (.chromosomeLength 0)
    [⟨[.fullInliner, .blockFlattener]⟩, ⟨[.unusedPruner]⟩, ⟨[.unusedPruner]⟩, ⟨[.fullInliner]⟩]

theorem Run.otherLosers_sameElite : smallStart.population.SameElite 2 otherLosers where
  size_eq := rfl
  metric_eq := rfl
  elite_eq := by
    rw [Population.ranked, Population.ranked]
    simp [smallStart, otherLosers, Population.ofChromosomes, Individual.ofChromosome,
      Metric.chromosomeLength, Chromosome.length, List.mergeSort]

theorem Run.smallStrategy_eliteCount : smallStrategy.eliteCount smallStart.population.size = 2 := by
  decide +kernel

theorem Run.other_losers_have_no_influence : ∃ next g,
    outcome (smallStrategy.advance smallStart.population) smallStart.bench.generator =
      (.ok next, g) ∧
    outcome (smallStrategy.advance otherLosers) smallStart.bench.generator = (.ok next, g) := by
  obtain ⟨helite, -, -⟩ := losers_have_no_influence smallStrategy (σ := Script)
    (p := smallStart.population) (List.cons_ne_nil _ _)
  refine helite otherLosers ?_ smallStart.bench.generator
  rw [smallStrategy_eliteCount]
  exact otherLosers_sameElite

end StepSearch
