import StepSearch.Proofs.Outcome
import StepSearch.Proofs.Pools
import StepSearch.Proofs.Ranking
import StepSearch.Run

/-!
# Generations

What the next generation is made of, whatever words are drawn. A strategy keeps the best individuals
in front and fills the other places with new chromosomes; the replacement of repeated chromosomes
leaves the first individual alone. Size, metric and the agreement of every fitness with the metric
pass from one generation to the next.
-/

namespace StepSearch

variable {σ : Type}

/-! ### Drawing repeatedly -/

theorem Draw.times_length {α : Type} {n : Nat} {draw : Draw σ α} {g g' : σ} {values : List α}
    (h : outcome (Draw.times n draw) g = (.ok values, g')) : values.length = n := by
  induction n generalizing g g' values with
  | zero =>
    obtain ⟨rfl, -⟩ := pure_ok h
    rfl
  | succ n ih =>
    obtain ⟨value, m, -, h⟩ := bind_ok h
    obtain ⟨rest, m', hrest, h⟩ := bind_ok h
    obtain ⟨rfl, -⟩ := pure_ok h
    rw [List.length_cons, ih hrest]

theorem Draw.times_forall {α : Type} {P : α → Prop} {n : Nat} {draw : Draw σ α} {g g' : σ}
    {values : List α} (hdraw : ∀ k a k', outcome draw k = (.ok a, k') → P a)
    (h : outcome (Draw.times n draw) g = (.ok values, g')) : ∀ a ∈ values, P a := by
  induction n generalizing g g' values with
  | zero =>
    obtain ⟨rfl, -⟩ := pure_ok h
    simp
  | succ n ih =>
    obtain ⟨value, m, hvalue, h⟩ := bind_ok h
    obtain ⟨rest, m', hrest, h⟩ := bind_ok h
    obtain ⟨rfl, -⟩ := pure_ok h
    exact List.forall_mem_cons.mpr ⟨hdraw _ _ _ hvalue, ih hrest⟩

theorem Draw.times_map {α β : Type} (g : α → β) (n : Nat) (draw : Draw σ α) :
    times n (g <$> draw) = List.map g <$> times n draw := by
  induction n with
  | zero => rfl
  | succ n ih => simp [times, ih]

/-! ### Fitness that agrees with the metric -/

/-- Whether an individual has the fitness that a metric gives its chromosome. -/
def Individual.Fits (metric : Metric) (i : Individual) : Prop :=
  i.fitness = metric.evaluate i.chromosome

/-- Whether every fitness of the population agrees with its metric. -/
def Population.Evaluated (p : Population) : Prop :=
  ∀ i ∈ p.individuals, i.Fits p.metric

theorem Individual.ofChromosome_fits (metric : Metric) (c : Chromosome) :
    (Individual.ofChromosome metric c).Fits metric := rfl

theorem Population.ofChromosomes_evaluated (metric : Metric) (chromosomes : List Chromosome) :
    (ofChromosomes metric chromosomes).Evaluated := by
  intro i hi
  obtain ⟨c, -, rfl⟩ := List.mem_map.mp hi
  exact Individual.ofChromosome_fits metric c

theorem Individual.Fits.eq_ofChromosome {metric : Metric} {i : Individual} (h : i.Fits metric) :
    i = Individual.ofChromosome metric i.chromosome := by
  cases i
  simp only [Individual.Fits] at h
  rw [Individual.ofChromosome, ← h]

theorem map_ofChromosome_of_fits {metric : Metric} {individuals : List Individual}
    (h : ∀ i ∈ individuals, i.Fits metric) :
    (individuals.map Individual.chromosome).map (Individual.ofChromosome metric) = individuals := by
  rw [List.map_map]
  conv => rhs; rw [← List.map_id individuals]
  exact List.map_congr_left fun i hi => (h i hi).eq_ofChromosome.symm

variable [WordSource σ]

theorem Individual.draw_fits {metric : Metric} {least greatest : Nat} {g g' : σ} {i : Individual}
    (h : outcome (Individual.draw metric least greatest) g = (.ok i, g')) : i.Fits metric := by
  obtain ⟨c, m, -, h⟩ := bind_ok h
  obtain ⟨rfl, -⟩ := pure_ok h
  exact Individual.ofChromosome_fits metric c

theorem Population.draw_ok {metric : Metric} {size least greatest : Nat} {g g' : σ}
    {p : Population} (h : outcome (Population.draw metric size least greatest) g = (.ok p, g')) :
    p.metric = metric ∧ p.size = size ∧ p.Evaluated := by
  obtain ⟨individuals, m, hdraws, h⟩ := bind_ok h
  obtain ⟨rfl, -⟩ := pure_ok h
  exact ⟨rfl, Draw.times_length hdraws, Draw.times_forall (fun _ _ _ => Individual.draw_fits) hdraws⟩

/-! ### The strategies -/

/-- `q` comes after `p`: the `elite` best individuals of `p` stand in front, all others are new
chromosomes with their fitness, and nobody is gained or lost. -/
structure Population.Succeeds (elite : Nat) (p q : Population) : Prop where
  metric_eq : q.metric = p.metric
  individuals_eq : ∃ children : List Chromosome, elite + children.length = p.size ∧
    q.individuals = p.ranked.individuals.take elite ++
      children.map (Individual.ofChromosome p.metric)

namespace Population.Succeeds

variable {elite : Nat} {p q : Population}

theorem size_eq (h : Succeeds elite p q) : q.size = p.size := by
  obtain ⟨children, hsize, heq⟩ := h.individuals_eq
  rw [Population.size, heq, List.length_append, List.length_take, List.length_map, length_ranked]
  omega

/-- An individual of `q` was there before, or its fitness is the one that the metric gives. -/
theorem origin (h : Succeeds elite p q) : ∀ i ∈ q.individuals, i ∈ p.individuals ∨ i.Fits p.metric := by
  obtain ⟨children, -, heq⟩ := h.individuals_eq
  intro i hi
  rw [heq, List.mem_append] at hi
  rcases hi with hi | hi
  · exact .inl (mem_ranked.mp (List.mem_of_mem_take hi))
  · obtain ⟨c, -, rfl⟩ := List.mem_map.mp hi
    exact .inr (Individual.ofChromosome_fits p.metric c)

/-- With at least one survivor the best individual stands in front. -/
theorem head?_eq (h : Succeeds elite p q) (helite : 1 ≤ elite) (hp : p.individuals ≠ []) :
    q.individuals.head? = p.best? := by
  obtain ⟨best, hbest⟩ := best?_isSome hp
  obtain ⟨children, -, heq⟩ := h.individuals_eq
  rw [hbest]
  rw [← head?_ranked] at hbest
  obtain ⟨rest, hrest⟩ := List.head?_eq_some_iff.mp hbest
  obtain ⟨n, rfl⟩ : ∃ n, elite = n + 1 := ⟨elite - 1, by omega⟩
  rw [heq, hrest]
  rfl

end Population.Succeeds

/-- The number of individuals that a strategy keeps of `size`. -/
def Strategy.eliteCount (size : Nat) : Strategy → Nat
  | .random r => r.eliteCount size
  | .gewep g => (g.pools size).elite

theorem RandomElitist.advance_ok {r : RandomElitist} {p q : Population} {g g' : σ}
    (h : outcome (r.advance p) g = (.ok q, g')) :
    p.individuals ≠ [] ∧ p.Succeeds (r.eliteCount p.size) q := by
  unfold RandomElitist.advance at h
  by_cases hp : p.isEmpty
  · rw [if_pos hp] at h
    cases h
  · rw [if_neg hp] at h
    obtain ⟨others, m, hothers, h⟩ := bind_ok (ofDraw_ok h)
    obtain ⟨rfl, -⟩ := pure_ok h
    obtain ⟨hmetric, hsize, hfits⟩ := Population.draw_ok hothers
    have hle : r.eliteCount p.size ≤ p.size := Pool.count_le _ _
    refine ⟨mt Population.isEmpty_iff.mpr hp, rfl, others.chromosomes, ?_, ?_⟩
    · rw [Population.chromosomes, List.length_map]
      rw [Population.size] at hsize
      omega
    · unfold Population.Evaluated at hfits
      rw [hmetric] at hfits
      rw [Population.chromosomes, map_ofChromosome_of_fits hfits]

theorem Gewep.advance_ok {s : Gewep} {p q : Population} {g g' : σ}
    (h : outcome (s.advance p) g = (.ok q, g')) :
    p.individuals ≠ [] ∧ p.Succeeds (s.pools p.size).elite q := by
  unfold Gewep.advance at h
  by_cases hp : p.isEmpty
  · rw [if_pos hp] at h
    cases h
  · rw [if_neg hp] at h
    obtain ⟨mutants, m, hmutants, h⟩ := bind_ok (ofDraw_ok h)
    obtain ⟨children, m', hchildren, h⟩ := bind_ok h
    obtain ⟨rfl, -⟩ := pure_ok h
    refine ⟨mt Population.isEmpty_iff.mpr hp, rfl, mutants ++ children, ?_, rfl⟩
    have hsum := PoolSizes.partition_sum p.size s.options.mutationPool s.options.crossoverPool
    rw [List.length_append, Draw.times_length hmutants, Draw.times_length hchildren]
    show (s.pools p.size).elite + ((s.pools p.size).mutation + (s.pools p.size).crossover) = p.size
    unfold Gewep.pools
    omega

/-- A strategy that succeeds was given somebody, and keeps its elite. -/
theorem Strategy.advance_ok {s : Strategy} {p q : Population} {g g' : σ}
    (h : outcome (s.advance p) g = (.ok q, g')) :
    p.individuals ≠ [] ∧ p.Succeeds (s.eliteCount p.size) q := by
  cases s with
  | random r => exact RandomElitist.advance_ok h
  | gewep w => exact Gewep.advance_ok h

/-! ### Repeated chromosomes -/

theorem Population.replaceRepeats_ok {metric : Metric} {least greatest : Nat}
    {P : Individual → Prop}
    (hdraw : ∀ (g : σ) i g', outcome (Individual.draw metric least greatest) g = (.ok i, g') → P i)
    {seen : List Chromosome} {before after : List Individual} {g g' : σ}
    (h : outcome (replaceRepeats metric least greatest seen before) g = (.ok after, g')) :
    after.length = before.length ∧ ∀ i ∈ after, i ∈ before ∨ P i := by
  induction before generalizing seen after g g' with
  | nil =>
    obtain ⟨rfl, -⟩ := pure_ok h
    simp
  | cons i before ih =>
    unfold replaceRepeats at h
    by_cases hseen : i.chromosome ∈ seen
    · rw [if_pos hseen] at h
      obtain ⟨substitute, m, hsubstitute, h⟩ := bind_ok h
      obtain ⟨rest, m', hrest, h⟩ := bind_ok h
      obtain ⟨rfl, -⟩ := pure_ok h
      obtain ⟨hlength, hmem⟩ := ih hrest
      refine ⟨by rw [List.length_cons, List.length_cons, hlength], ?_⟩
      refine List.forall_mem_cons.mpr ⟨.inr (hdraw _ _ _ hsubstitute), fun j hj => ?_⟩
      exact (hmem j hj).imp_left (List.mem_cons_of_mem i)
    · rw [if_neg hseen] at h
      obtain ⟨rest, m, hrest, h⟩ := bind_ok h
      obtain ⟨rfl, -⟩ := pure_ok h
      obtain ⟨hlength, hmem⟩ := ih hrest
      refine ⟨by rw [List.length_cons, List.length_cons, hlength], ?_⟩
      refine List.forall_mem_cons.mpr ⟨.inl List.mem_cons_self, fun j hj => ?_⟩
      exact (hmem j hj).imp_left (List.mem_cons_of_mem i)

/-- No chromosome comes before the first one, so the first individual is never replaced. -/
theorem Population.replaceRepeats_head? {metric : Metric} {least greatest : Nat}
    {before after : List Individual} {g g' : σ}
    (h : outcome (replaceRepeats metric least greatest [] before) g = (.ok after, g')) :
    after.head? = before.head? := by
  cases before with
  | nil =>
    obtain ⟨rfl, -⟩ := pure_ok h
    rfl
  | cons i before =>
    unfold replaceRepeats at h
    rw [if_neg List.not_mem_nil] at h
    obtain ⟨rest, m, -, h⟩ := bind_ok h
    obtain ⟨rfl, -⟩ := pure_ok h
    rfl

theorem Population.randomiseDuplicates_ok {p q : Population} {least greatest : Nat}
    {P : Individual → Prop}
    (hdraw : ∀ (g : σ) i g', outcome (Individual.draw p.metric least greatest) g = (.ok i, g') → P i)
    {g g' : σ} (h : outcome (p.randomiseDuplicates least greatest) g = (.ok q, g')) :
    q.metric = p.metric ∧ q.size = p.size ∧ q.individuals.head? = p.individuals.head? ∧
      ∀ i ∈ q.individuals, i ∈ p.individuals ∨ P i := by
  obtain ⟨individuals, m, hindividuals, h⟩ := bind_ok h
  obtain ⟨rfl, -⟩ := pure_ok h
  obtain ⟨hlength, hmem⟩ := replaceRepeats_ok hdraw hindividuals
  exact ⟨rfl, hlength, replaceRepeats_head? hindividuals, hmem⟩

/-! ### One generation -/

namespace Run

/-- The next generation, in which repeated chromosomes are replaced if there are bounds for that. -/
def offspring (algorithm : Algorithm σ) (bounds : Option (Nat × Nat)) (p : Population) :
    Search σ Population := do
  let next ← algorithm.advance p
  match bounds with
  | none => return next
  | some (least, greatest) => Search.ofDraw (next.randomiseDuplicates least greatest)

/-- What a generation has from the one before, whatever words are drawn. -/
structure Descends (s : Strategy) (p q : Population) : Prop where
  parent_ne_nil : p.individuals ≠ []
  metric_eq : q.metric = p.metric
  size_eq : q.size = p.size
  origin : ∀ i ∈ q.individuals, i ∈ p.individuals ∨ i.Fits p.metric
  head?_eq : 1 ≤ s.eliteCount p.size → q.individuals.head? = p.best?

theorem Descends.ne_nil {s : Strategy} {p q : Population} (h : Descends s p q) :
    q.individuals ≠ [] := by
  have hsize : 0 < p.size := List.length_pos_iff.mpr h.parent_ne_nil
  rw [← h.size_eq] at hsize
  exact List.length_pos_iff.mp hsize

theorem Descends.evaluated {s : Strategy} {p q : Population} (h : Descends s p q)
    (hp : p.Evaluated) : q.Evaluated := by
  intro i hi
  rw [h.metric_eq]
  rcases h.origin i hi with hi | hi
  · exact hp i hi
  · exact hi

theorem offspring_ok {s : Strategy} {bounds : Option (Nat × Nat)} {p q : Population} {g g' : σ}
    (h : outcome (offspring s.toAlgorithm bounds p) g = (.ok q, g')) : Descends s p q := by
  obtain ⟨next, m, hnext, h⟩ := bind_ok h
  obtain ⟨hne, hsucceeds⟩ := Strategy.advance_ok hnext
  have hhead := fun helite => hsucceeds.head?_eq helite hne
  cases bounds with
  | none =>
    obtain ⟨rfl, -⟩ := pure_ok h
    exact ⟨hne, hsucceeds.metric_eq, hsucceeds.size_eq, hsucceeds.origin, hhead⟩
  | some range =>
    obtain ⟨hmetric, hsize, hfirst, horigin⟩ :=
      Population.randomiseDuplicates_ok (fun _ _ _ => Individual.draw_fits) (ofDraw_ok h)
    refine ⟨hne, hmetric.trans hsucceeds.metric_eq, hsize.trans hsucceeds.size_eq, ?_, ?_⟩
    · intro i hi
      rw [← hsucceeds.metric_eq]
      rcases horigin i hi with hi | hi
      · rw [hsucceeds.metric_eq]
        exact hsucceeds.origin i hi
      · exact .inr hi
    · exact fun helite => hfirst.trans (hhead helite)

end Run

end StepSearch
