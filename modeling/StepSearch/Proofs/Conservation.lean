import StepSearch.Proofs.Rounds

/-!
# What a search keeps

Whatever words are drawn and however a run ends, nobody is gained or lost, the metric stays the same,
and every fitness is the one that the metric gives.
-/

namespace StepSearch

/-- Whether `q` has as many individuals as `p` and the metric of `p`, and every fitness in `q` agrees
with that metric. -/
structure Population.Conserves (p q : Population) : Prop where
  size_eq : q.size = p.size
  metric_eq : q.metric = p.metric
  evaluated : q.Evaluated

theorem Population.Conserves.refl {p : Population} (h : p.Evaluated) : p.Conserves p :=
  ⟨rfl, rfl, h⟩

namespace Run

variable {σ : Type} [WordSource σ]

theorem Descends.conserves {s : Strategy} {p q r : Population} (h : Descends s q r)
    (hq : p.Conserves q) : p.Conserves r where
  size_eq := h.size_eq.trans hq.size_eq
  metric_eq := h.metric_eq.trans hq.metric_eq
  evaluated := h.evaluated hq.evaluated

/-- A search that starts with the right fitness of every individual keeps the number of individuals,
the metric and the right fitness: in every generation that it completes, and in the population that
it has at its end, whether or not it fails. -/
theorem population_is_conserved {strategy : Strategy} {options : RunOptions} {allotment : Nat}
    {start final : State σ} {result : Except Failure (Option Progress)}
    (hstart : start.population.Evaluated)
    (hrun : outcome (execute strategy.toAlgorithm options allotment) start = (result, final)) :
    start.population.Conserves final.population ∧
      ∀ bounds k p, options.duplicateBounds = .ok bounds →
        generation? strategy.toAlgorithm bounds options.autosave start k = some p →
        start.population.Conserves p := by
  have step : ∀ bounds p q (g g' : σ), start.population.Conserves p →
      outcome (offspring strategy.toAlgorithm bounds p) g = (.ok q, g') →
      start.population.Conserves q :=
    fun _ _ _ _ _ hp hq => (offspring_ok hq).conserves hp
  refine ⟨?_, fun bounds k p _ hp => ?_⟩
  · cases hbounds : options.duplicateBounds with
    | error fault =>
      rw [execute_of_fault hbounds] at hrun
      cases hrun
      exact .refl hstart
    | ok bounds =>
      rcases hrounds : outcome (rounds strategy.toAlgorithm bounds options.autosave
        (options.maxRounds.getD allotment) {}) start with ⟨last, u⟩
      have hlast := rounds_invariant _ (step bounds) hrounds (.refl hstart)
      obtain ⟨journal, hexecute⟩ := execute_eq_rounds _ hbounds allotment start hrounds
      rw [hexecute] at hrun
      cases hrun
      exact hlast
  · exact generation?_induction _ (step bounds) hp (.refl hstart)

theorem small_population_is_conserved : ∃ summary final,
    outcome (execute smallStrategy.toAlgorithm (smallOptions none) 0) smallStart =
      (.ok (some summary), final) ∧
    final.population.size = 4 ∧ final.population.Evaluated := by
  obtain ⟨summary, final, hrun⟩ := smallStart_execute none fun _ h => by cases h
  have hstart : smallStart.population.Evaluated := Population.ofChromosomes_evaluated _ _
  obtain ⟨hconserves, -⟩ := population_is_conserved hstart hrun
  exact ⟨summary, final, hrun, hconserves.size_eq, hconserves.evaluated⟩

end Run

end StepSearch
