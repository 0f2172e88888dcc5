import StepSearch.Proofs.Rounds

/-!
# Elitism

A strategy that keeps at least one survivor never loses the best individual: it stands in front of
the next generation, and the replacement of repeated chromosomes does not touch it. Over a run the
best fitness therefore never gets worse, and the best one seen is that of the last generation.
-/

namespace StepSearch

/-- A strategy keeps somebody of every population of `size` individuals; the elitist strategy with
exclusive pools always does. -/
theorem Strategy.one_le_eliteCount {s : Strategy} {size : Nat} (hsize : 0 < size)
    (h : ∀ r, s = .random r → 1 ≤ Pool.count r.options.elitePool size) :
    1 ≤ s.eliteCount size := by
  cases s with
  | random r => exact h r rfl
  | gewep g => exact PoolSizes.one_le_elite hsize _ _

theorem Population.size_pos {p : Population} (h : p.individuals ≠ []) : 0 < p.size :=
  List.length_pos_iff.mpr h

namespace Run

variable {σ : Type} [WordSource σ]

theorem best_passed_on {s : Strategy} {bounds : Option (Nat × Nat)} {p q : Population} {g g' : σ}
    (helite : 1 ≤ s.eliteCount p.size)
    (h : outcome (offspring s.toAlgorithm bounds p) g = (.ok q, g')) :
    ∃ best best', p.best? = some best ∧ q.individuals[0]? = some best ∧ q.best? = some best' ∧
      best'.fitness ≤ best.fitness := by
  have hdescends := offspring_ok h
  obtain ⟨best, hbest⟩ := Population.best?_isSome hdescends.parent_ne_nil
  have hfirst : q.individuals.head? = some best := (hdescends.head?_eq helite).trans hbest
  have hmem : best ∈ q.individuals := List.mem_of_head? hfirst
  obtain ⟨best', hbest'⟩ := Population.best?_isSome hdescends.ne_nil
  refine ⟨best, best', hbest, ?_, hbest', (Population.best?_least hbest').2 best hmem⟩
  rw [← List.head?_eq_getElem?]
  exact hfirst

/-- Whether the best fitness of a run so far is that of the population at hand. Before the first
round there is none. -/
def BestIsCurrent (progress : Progress) (p : Population) : Prop :=
  progress = {} ∨ ∃ best, p.best? = some best ∧ progress.bestFitness = some best.fitness

theorem BestIsCurrent.next {progress : Progress} {p q : Population} {best best' : Individual}
    (h : BestIsCurrent progress p) (hp : p.best? = some best) (hq : q.best? = some best')
    (hle : best'.fitness ≤ best.fitness) : BestIsCurrent (progress.next q) q := by
  refine .inr ⟨best', hq, ?_⟩
  rcases h with rfl | ⟨seen, hseen, hprogress⟩
  · simp only [Progress.next, hq]
  · obtain rfl : seen = best := Option.some.inj (hseen.symm.trans hp)
    simp only [Progress.next, hq, hprogress]
    rw [Nat.min_eq_right hle]

/-- What a run hands on from round to round: nobody is lost, so that the elite stays as large, and
the best fitness is up to date. -/
def Elitist (size : Nat) (progress : Progress) (p : Population) : Prop :=
  p.size = size ∧ BestIsCurrent progress p

theorem Elitist.next {s : Strategy} {bounds : Option (Nat × Nat)} {size : Nat} {progress : Progress}
    {p q : Population} {g g' : σ} (helite : 1 ≤ s.eliteCount size) (h : Elitist size progress p)
    (hq : outcome (offspring s.toAlgorithm bounds p) g = (.ok q, g')) :
    Elitist size (progress.next q) q := by
  obtain ⟨rfl, hbest⟩ := h
  obtain ⟨best, best', hp, -, hq', hle⟩ := best_passed_on helite hq
  exact ⟨(offspring_ok hq).size_eq, hbest.next hp hq' hle⟩

/-- In a run of an elitist strategy the best individual of every generation stands in front of the
next one, the best fitness never gets worse, and the run reports the best fitness of its last
generation. -/
theorem best_survives_every_round {strategy : Strategy} {options : RunOptions} {allotment : Nat}
    {start final : State σ} {summary : Progress}
    (hne : start.population.individuals ≠ [])
    (helite : ∀ r, strategy = .random r →
      1 ≤ Pool.count r.options.elitePool start.population.size)
    (hrun : outcome (execute strategy.toAlgorithm options allotment) start =
      (.ok (some summary), final)) :
    ∃ bounds n, options.duplicateBounds = .ok bounds ∧ options.maxRounds = some n ∧
      generation? strategy.toAlgorithm bounds options.autosave start 0 = some start.population ∧
      generation? strategy.toAlgorithm bounds options.autosave start n = some final.population ∧
      (∀ k < n, ∃ p q best best',
        generation? strategy.toAlgorithm bounds options.autosave start k = some p ∧
        generation? strategy.toAlgorithm bounds options.autosave start (k + 1) = some q ∧
        p.best? = some best ∧ q.individuals[0]? = some best ∧ q.best? = some best' ∧
        best'.fitness ≤ best.fitness) ∧
      summary.rounds = n ∧
      (1 ≤ n → ∃ best, final.population.best? = some best ∧
        summary.bestFitness = some best.fitness) := by
  obtain ⟨bounds, n, last, hbounds, hmax, hrounds, hfinal, -, -⟩ := execute_ok hrun
  have hkept := Strategy.one_le_eliteCount (Population.size_pos hne) helite
  have hstart : Elitist start.population.size {} start.population := ⟨rfl, .inl rfl⟩
  -- A generation of the run has the size of the first one.
  have hsize : ∀ k p, generation? strategy.toAlgorithm bounds options.autosave start k = some p →
      p.size = start.population.size := by
    intro k p hp
    refine generation?_induction (fun p => p.size = start.population.size) ?_ hp rfl
    intro p q g g' h hq
    exact (offspring_ok hq).size_eq.trans h
  refine ⟨bounds, n, hbounds, hmax, generation?_zero start, ?_, ?_, ?_, ?_⟩
  · rw [hfinal]
    exact generation?_of_ok hrounds
  · intro k hk
    obtain ⟨p, q, g, g', hp, hq, hoffspring⟩ := generation?_succ hrounds hk
    obtain ⟨best, best', h⟩ := best_passed_on (by rw [hsize k p hp]; exact hkept) hoffspring
    exact ⟨p, q, best, best', hp, hq, h⟩
  · simpa using rounds_count hrounds
  · intro hn
    obtain ⟨-, hbest⟩ := rounds_induction (Elitist start.population.size)
      (fun _ _ _ _ _ h hq => Elitist.next hkept h hq) hrounds hstart
    rw [hfinal]
    rcases hbest with rfl | hbest
    · -- No round was counted, although there was one.
      have hcount := rounds_count hrounds
      exact absurd hcount (by simp; omega)
    · exact hbest

theorem best_survives_small_search : ∃ summary final best,
    outcome (execute smallStrategy.toAlgorithm (smallOptions none) 0) smallStart =
      (.ok (some summary), final) ∧
    final.population.individuals[0]? = smallStart.population.best? ∧
    final.population.best? = some best ∧ summary.bestFitness = some best.fitness := by
  obtain ⟨summary, final, hrun⟩ := smallStart_execute none fun _ h => by cases h
  obtain ⟨bounds, n, -, hn, hfirst, hlast, hkept, -, hbest⟩ :=
    best_survives_every_round (by decide) (fun r h => by cases h) hrun
  obtain rfl : 1 = n := Option.some.inj hn
  obtain ⟨p, q, best, best', hp, hq, hpbest, hqfirst, -⟩ := hkept 0 Nat.zero_lt_one
  obtain rfl : smallStart.population = p := Option.some.inj (hfirst.symm.trans hp)
  obtain rfl : final.population = q := Option.some.inj (hlast.symm.trans hq)
  obtain ⟨last, hlastBest, hsummary⟩ := hbest (Nat.le_refl 1)
  exact ⟨summary, final, last, hrun, hqfirst.trans hpbest.symm, hlastBest, hsummary⟩

end Run

end StepSearch
