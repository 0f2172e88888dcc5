import StepSearch.Proofs.Mutations
import StepSearch.Proofs.Rounds

/-!
# Where a generation comes from

In the elitist strategy with exclusive pools everybody in the next generation is one of the elite, the
mutant of one of the elite, or the crossover of two of them, in this order, and the pools say how many
there are of each.
-/

namespace StepSearch

/-- Whether the child has the steps of `a` before some point and those of `b` from there on. -/
def Chromosome.Joins (a b child : Chromosome) : Prop :=
  ∃ point, point ≤ a.length ∧ point ≤ b.length ∧
    child.steps = a.steps.take point ++ b.steps.drop point ∧ child.length = b.length

theorem Pool.chromosomeAt_mem {pool : List Individual} {place : Nat} (h : place < pool.length) :
    ∃ i ∈ pool, chromosomeAt pool place = i.chromosome := by
  refine ⟨pool[place], List.getElem_mem h, ?_⟩
  simp [chromosomeAt, h]

variable {σ : Type} [WordSource σ]

namespace Gewep

/-- Whether the child is what some words make of the parent, by the mutation that they choose. -/
def Mutates (σ : Type) [WordSource σ] (w : Gewep) (parent child : Chromosome) : Prop :=
  ∃ (kind : Mutation) (g m g' : σ), outcome w.chooseMutation g = (.ok kind, m) ∧
    outcome (w.mutate parent) g = (.ok child, g') ∧ kind.Yields parent child

theorem Mutates.of_mutate {w : Gewep} {parent child : Chromosome} {g g' : σ}
    (h : outcome (w.mutate parent) g = (.ok child, g')) : w.Mutates σ parent child := by
  obtain ⟨kind, m, hkind, hyields⟩ := mutate_ok h
  exact ⟨kind, g, m, g', hkind, h, hyields⟩

theorem Mutates.length_le {w : Gewep} {parent child : Chromosome} (h : w.Mutates σ parent child) :
    child.length ≤ 2 * parent.length + 1 := by
  obtain ⟨kind, -, -, -, -, -, hyields⟩ := h
  exact hyields.length_le

theorem mutant_ok {w : Gewep} {elite : List Individual} {child : Chromosome} {g g' : σ}
    (h : outcome (w.mutant elite) g = (.ok child, g')) :
    ∃ i ∈ elite, w.Mutates σ i.chromosome child := by
  obtain ⟨place, m, hplace, h⟩ := bind_ok h
  obtain ⟨i, hi, hparent⟩ := Pool.chromosomeAt_mem (Pool.selectParent_lt hplace)
  rw [hparent] at h
  exact ⟨i, hi, .of_mutate h⟩

theorem crossChild_ok {elite : List Individual} {child : Chromosome} {g g' : σ}
    (h : outcome (crossChild elite) g = (.ok child, g')) :
    ∃ i ∈ elite, ∃ j ∈ elite, i.chromosome.Joins j.chromosome child := by
  obtain ⟨places, m, hplaces, h⟩ := bind_ok h
  obtain ⟨first, m₁, hfirst, hplaces⟩ := bind_ok hplaces
  obtain ⟨second, m₂, hsecond, hplaces⟩ := bind_ok hplaces
  obtain ⟨rfl, -⟩ := pure_ok hplaces
  obtain ⟨i, hi, hi'⟩ := Pool.chromosomeAt_mem (Pool.selectParent_lt hfirst)
  obtain ⟨j, hj, hj'⟩ := Pool.chromosomeAt_mem (Pool.selectParent_lt hsecond)
  simp only [hi', hj'] at h
  obtain ⟨point, -, hleft, hright, rfl⟩ := Chromosome.crossover_ok h
  exact ⟨i, hi, j, hj, point, hleft, hright, rfl, Chromosome.length_spliceAt hleft hright⟩

/-- How the places behind the elite are filled, in the order of the places. -/
structure Fills (σ : Type) [WordSource σ] (w : Gewep) (elite : List Individual) (sizes : PoolSizes)
    (mutants children : List Chromosome) : Prop where
  length_mutants : mutants.length = sizes.mutation
  length_children : children.length = sizes.crossover
  mutants_of_elite : ∀ c ∈ mutants, ∃ i ∈ elite, w.Mutates σ i.chromosome c
  children_of_elite : ∀ c ∈ children, ∃ i ∈ elite, ∃ j ∈ elite, i.chromosome.Joins j.chromosome c

theorem advance_fills {w : Gewep} {p q : Population} {g g' : σ}
    (h : outcome (w.advance p) g = (.ok q, g')) :
    ∃ mutants children, q = ⟨p.metric, p.ranked.individuals.take (w.pools p.size).elite ++
        (mutants ++ children).map (Individual.ofChromosome p.metric)⟩ ∧
      w.Fills σ (p.ranked.individuals.take (w.pools p.size).elite) (w.pools p.size) mutants
        children := by
  unfold advance at h
  split at h
  · cases h
  · obtain ⟨mutants, m, hmutants, h⟩ := bind_ok (ofDraw_ok h)
    obtain ⟨children, m', hchildren, h⟩ := bind_ok h
    obtain ⟨rfl, -⟩ := pure_ok h
    refine ⟨mutants, children, rfl, Draw.times_length hmutants, Draw.times_length hchildren, ?_, ?_⟩
    · exact Draw.times_forall (fun _ _ _ => mutant_ok) hmutants
    · exact Draw.times_forall (fun _ _ _ => crossChild_ok) hchildren

/-- A population that is not empty has a next generation, whatever words are drawn. First comes the
elite of the ranking, unchanged; then, each from one of the elite, as many mutants as the mutation pool
has places; then, each from two of the elite, the crossover children. A mutant has the length of its
parent, or is a part of it, or has it as a part and is at most one step longer than twice the parent,
according to the mutation that was drawn. -/
theorem generation_is_elite_mutants_and_crossings (w : Gewep) {p : Population}
    (hp : p.individuals ≠ []) (g : σ) :
    ∃ sizes elite mutants children q g',
      sizes = PoolSizes.partition p.size w.options.mutationPool w.options.crossoverPool ∧
      elite = p.ranked.individuals.take sizes.elite ∧ elite.length = sizes.elite ∧
      outcome (w.advance p) g = (.ok q, g') ∧ q.metric = p.metric ∧
      q.individuals = elite ++ mutants.map (Individual.ofChromosome p.metric) ++
        children.map (Individual.ofChromosome p.metric) ∧
      q.size = sizes.elite + sizes.mutation + sizes.crossover ∧
      w.Fills σ elite sizes mutants children := by
  obtain ⟨q, g', hq⟩ := w.advance_total hp g
  obtain ⟨mutants, children, rfl, hfills⟩ := advance_fills hq
  have helite : (w.pools p.size).elite ≤ p.size := by
    have hsum := PoolSizes.partition_sum p.size w.options.mutationPool w.options.crossoverPool
    unfold pools
    omega
  have hlength : (p.ranked.individuals.take (w.pools p.size).elite).length =
      (w.pools p.size).elite := by
    rw [List.length_take, Population.length_ranked]
    omega
  refine ⟨w.pools p.size, _, mutants, children, _, g', rfl, rfl, hlength, hq, rfl, ?_, ?_, hfills⟩
  · rw [List.map_append, List.append_assoc]
  · show List.length _ = _
    rw [List.length_append, List.length_map, List.length_append, hlength, hfills.length_mutants,
      hfills.length_children, Nat.add_assoc]

end Gewep

/-- In the small search two survive, one mutant and one crossover child come in. -/
theorem Run.small_generation_is_elite_mutants_and_crossings : ∃ w q g' mutant child,
    smallStrategy = .gewep w ∧
    outcome (w.advance smallStart.population) smallStart.bench.generator = (.ok q, g') ∧
    q.individuals = smallStart.population.ranked.individuals.take 2 ++
      [Individual.ofChromosome (.chromosomeLength 0) mutant] ++
        [Individual.ofChromosome (.chromosomeLength 0) child] := by
  have hsizes : PoolSizes.partition smallStart.population.size (GewepOptions.standard 4).mutationPool
      (GewepOptions.standard 4).crossoverPool = ⟨2, 1, 1⟩ := by decide +kernel
  obtain ⟨sizes, elite, mutants, children, q, g', hpartition, helite, -, hq, -, hindividuals, -,
      hfills⟩ := Gewep.generation_is_elite_mutants_and_crossings
    ⟨.standard 4, Except.eq_ok_of_isOk (by decide +kernel)⟩ (p := smallStart.population)
    (List.cons_ne_nil _ _) smallStart.bench.generator
  obtain rfl : sizes = ⟨2, 1, 1⟩ := hpartition.trans hsizes
  subst helite
  obtain ⟨mutant, rfl⟩ := List.length_eq_one_iff.mp hfills.length_mutants
  obtain ⟨child, rfl⟩ := List.length_eq_one_iff.mp hfills.length_children
  exact ⟨_, q, g', mutant, child, rfl, hq, hindividuals⟩

end StepSearch
