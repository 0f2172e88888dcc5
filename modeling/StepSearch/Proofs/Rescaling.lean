import Mathlib.Data.Set.Operations
import Mathlib.Order.Monotone.Basic
import StepSearch.Proofs.Generations

/-!
# Other costs in the same order

Two metrics may give the same chromosome different costs. If the costs come in the same order, the
populations of the two are ranked alike, the same parents are drawn from them, and the next
generation consists of the same chromosomes, made of the same words.
-/

namespace StepSearch

/-- The same chromosome with another fitness. -/
def Individual.rescale (f : Nat → Nat) (i : Individual) : Individual :=
  ⟨i.chromosome, f i.fitness⟩

@[simp] theorem Individual.rescale_chromosome (f : Nat → Nat) (i : Individual) :
    (i.rescale f).chromosome = i.chromosome := rfl

@[simp] theorem Individual.rescale_fitness (f : Nat → Nat) (i : Individual) :
    (i.rescale f).fitness = f i.fitness := rfl

theorem Individual.rescale_id : Individual.rescale id = id := rfl

namespace Population

/-- The same chromosomes under another metric, with another fitness. -/
def rescaled (f : Nat → Nat) (metric : Metric) (p : Population) : Population :=
  ⟨metric, p.individuals.map (Individual.rescale f)⟩

@[simp] theorem rescaled_size (f : Nat → Nat) (metric : Metric) (p : Population) :
    (p.rescaled f metric).size = p.size := List.length_map _

@[simp] theorem rescaled_isEmpty (f : Nat → Nat) (metric : Metric) (p : Population) :
    (p.rescaled f metric).isEmpty = p.isEmpty := List.isEmpty_map

@[simp] theorem rescaled_chromosomes (f : Nat → Nat) (metric : Metric) (p : Population) :
    (p.rescaled f metric).chromosomes = p.chromosomes := by
  simp [rescaled, chromosomes, Function.comp_def]

/-- Whether every cost that the population has, or that its metric gives, is among the given ones. -/
structure CostsIn (costs : Set Nat) (p : Population) : Prop where
  fitness_mem : ∀ i ∈ p.individuals, i.fitness ∈ costs
  evaluate_mem : ∀ c, p.metric.evaluate c ∈ costs

theorem costsIn_univ (p : Population) : p.CostsIn Set.univ :=
  ⟨fun _ _ => trivial, fun _ => trivial⟩

theorem ofChromosomes_costsIn (metric : Metric) (chromosomes : List Chromosome) :
    (ofChromosomes metric chromosomes).CostsIn (Set.range metric.evaluate) := by
  refine ⟨fun i hi => ?_, fun c => ⟨c, rfl⟩⟩
  obtain ⟨c, -, rfl⟩ := List.mem_map.mp hi
  exact ⟨c, rfl⟩

end Population

variable {f : Nat → Nat} {metric metric' : Metric} {costs : Set Nat} {p : Population}

/-! ### Ranking -/

theorem Population.ranked_rescaled (hf : StrictMonoOn f costs) (hp : p.CostsIn costs)
    (metric' : Metric) : (p.rescaled f metric').ranked = p.ranked.rescaled f metric' := by
  unfold ranked rescaled
  congr 1
  refine (List.map_mergeSort fun i hi j hj => ?_).symm
  have horder := hf.le_iff_le (hp.fitness_mem i hi) (hp.fitness_mem j hj)
  simp only [Individual.rescale_fitness, horder]

theorem Population.best?_rescaled (hf : StrictMonoOn f costs) (hp : p.CostsIn costs)
    (metric' : Metric) : (p.rescaled f metric').best? = p.best?.map (Individual.rescale f) := by
  rw [← head?_ranked, ranked_rescaled hf hp, ← head?_ranked]
  exact List.head?_map

/-! ### Drawing -/

variable {σ : Type}

theorem Individual.ofChromosome_rescale (h : metric'.evaluate = f ∘ metric.evaluate) :
    ofChromosome metric' = rescale f ∘ ofChromosome metric := by
  funext c
  rw [ofChromosome, h]
  rfl

variable [WordSource σ]

theorem Individual.draw_rescale (h : metric'.evaluate = f ∘ metric.evaluate) (least greatest : Nat) :
    (draw metric' least greatest : Draw σ Individual) = rescale f <$> draw metric least greatest := by
  unfold draw
  rw [ofChromosome_rescale h, map_bind]
  simp only [map_pure, Function.comp_apply]

namespace Population

theorem draw_rescaled (h : metric'.evaluate = f ∘ metric.evaluate) (size least greatest : Nat) :
    (draw metric' size least greatest : Draw σ Population) =
      rescaled f metric' <$> draw metric size least greatest := by
  unfold draw
  rw [Individual.draw_rescale h, Draw.times_map, bind_map_left, map_bind]
  simp only [map_pure, rescaled]

/-- Repeats are told by the chromosomes alone. -/
theorem replaceRepeats_rescale (h : metric'.evaluate = f ∘ metric.evaluate) (least greatest : Nat)
    (seen : List Chromosome) (individuals : List Individual) :
    (replaceRepeats metric' least greatest seen (individuals.map (Individual.rescale f)) :
        Draw σ (List Individual)) =
      List.map (Individual.rescale f) <$>
        replaceRepeats metric least greatest seen individuals := by
  induction individuals generalizing seen with
  | nil => rfl
  | cons i individuals ih =>
    rw [List.map_cons, replaceRepeats, replaceRepeats, Individual.rescale_chromosome]
    by_cases hseen : i.chromosome ∈ seen
    · rw [if_pos hseen, if_pos hseen, Individual.draw_rescale h, ih]
      simp
    · rw [if_neg hseen, if_neg hseen, ih]
      simp

theorem randomiseDuplicates_rescaled (h : metric'.evaluate = f ∘ p.metric.evaluate)
    (least greatest : Nat) :
    ((p.rescaled f metric').randomiseDuplicates least greatest : Draw σ Population) =
      rescaled f metric' <$> p.randomiseDuplicates least greatest := by
  unfold randomiseDuplicates
  rw [map_bind]
  simp only [rescaled, replaceRepeats_rescale h, bind_map_left, map_pure]

end Population

/-! ### Strategies -/

theorem RandomElitist.advance_rescaled (r : RandomElitist)
    (h : metric'.evaluate = f ∘ p.metric.evaluate) (hf : StrictMonoOn f costs)
    (hp : p.CostsIn costs) :
    (r.advance (p.rescaled f metric') : Search σ Population) =
      Population.rescaled f metric' <$> r.advance p := by
  have hrefill : ∀ elite fresh,
      (r.refill metric' (elite.map (Individual.rescale f)) fresh : Draw σ Population) =
        Population.rescaled f metric' <$> r.refill p.metric elite fresh := by
    intro elite fresh
    unfold refill
    rw [Population.draw_rescaled h, bind_map_left, map_bind]
    simp only [map_pure, Population.rescaled, List.map_append]
  unfold RandomElitist.advance
  rw [Population.rescaled_isEmpty]
  by_cases hempty : p.isEmpty
  · rw [if_pos hempty, if_pos hempty]
    rfl
  · rw [if_neg hempty, if_neg hempty, Population.ranked_rescaled hf hp, Population.rescaled_size,
      ← Search.ofDraw_map, ← hrefill, List.map_take]
    rfl

/-- A parent is drawn by its place and gives its chromosome only. -/
theorem Pool.chromosomeAt_rescale (f : Nat → Nat) (elite : List Individual) (i : Nat) :
    Pool.chromosomeAt (elite.map (Individual.rescale f)) i = Pool.chromosomeAt elite i := by
  unfold Pool.chromosomeAt
  rw [List.getElem?_map, Option.map_map]
  rfl

theorem Gewep.advance_rescaled (w : Gewep) (h : metric'.evaluate = f ∘ p.metric.evaluate)
    (hf : StrictMonoOn f costs) (hp : p.CostsIn costs) :
    (w.advance (p.rescaled f metric') : Search σ Population) =
      Population.rescaled f metric' <$> w.advance p := by
  have hbreed : ∀ pools elite,
      (w.breed metric' pools (elite.map (Individual.rescale f)) : Draw σ Population) =
        Population.rescaled f metric' <$> w.breed p.metric pools elite := by
    intro pools elite
    unfold breed mutant crossChild
    simp only [Pool.chromosomeAt_rescale, List.length_map, map_bind, map_pure, Population.rescaled,
      Individual.ofChromosome_rescale h, List.map_append, List.map_map]
  unfold Gewep.advance
  rw [Population.rescaled_isEmpty]
  by_cases hempty : p.isEmpty
  · rw [if_pos hempty, if_pos hempty]
    rfl
  · rw [if_neg hempty, if_neg hempty, Population.ranked_rescaled hf hp, Population.rescaled_size,
      ← Search.ofDraw_map, ← hbreed, List.map_take]
    rfl

theorem Strategy.advance_rescaled (s : Strategy) (h : metric'.evaluate = f ∘ p.metric.evaluate)
    (hf : StrictMonoOn f costs) (hp : p.CostsIn costs) :
    (s.advance (p.rescaled f metric') : Search σ Population) =
      Population.rescaled f metric' <$> s.advance p := by
  cases s with
  | random r => exact r.advance_rescaled h hf hp
  | gewep w => exact w.advance_rescaled h hf hp

/-! ### One generation -/

namespace Run

/-- The costs of the next generation are costs of this one, or the metric gives them. -/
theorem Descends.costsIn {s : Strategy} {q : Population} (h : Descends s p q)
    (hp : p.CostsIn costs) : q.CostsIn costs := by
  refine ⟨fun i hi => ?_, fun c => ?_⟩
  · rcases h.origin i hi with hi | hi
    · exact hp.fitness_mem i hi
    · rw [hi]
      exact hp.evaluate_mem i.chromosome
  · rw [h.metric_eq]
    exact hp.evaluate_mem c

/-- Only the order of the costs plays a part in the making of a generation. -/
theorem offspring_rescaled (s : Strategy) (bounds : Option (Nat × Nat))
    (h : metric'.evaluate = f ∘ p.metric.evaluate) (hf : StrictMonoOn f costs)
    (hp : p.CostsIn costs) (g : σ) :
    outcome (offspring s.toAlgorithm bounds (p.rescaled f metric')) g =
      ((outcome (offspring s.toAlgorithm bounds p) g).1.map (Population.rescaled f metric'),
        (outcome (offspring s.toAlgorithm bounds p) g).2) := by
  unfold offspring
  simp only [Strategy.toAlgorithm]
  rw [s.advance_rescaled h hf hp, outcome_bind, outcome_bind, outcome_map]
  rcases hadvance : outcome (s.advance p) g with ⟨failure | next, g'⟩
  · rfl
  · obtain ⟨-, hsucceeds⟩ := Strategy.advance_ok hadvance
    cases bounds with
    | none => rfl
    | some range =>
      rw [← hsucceeds.metric_eq] at h
      simp only [Except.map, Population.randomiseDuplicates_rescaled h, Search.ofDraw_map,
        outcome_map]

end Run

end StepSearch
