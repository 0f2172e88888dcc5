import Mathlib.Tactic.Ring
import StepSearch.Proofs.Lengths
import StepSearch.Proofs.Provenance

/-!
# Growth of the chromosomes

The elitist strategy with exclusive pools sets no limit to the length of a chromosome. A mutant has at
most one new step before each step of its parent and one behind the last; a crossover child is as long
as one of the elite. So the longest chromosome at most doubles and gains one step in a round, and after
`k` rounds one more than its length has at most been doubled `k` times.
-/

namespace StepSearch

/-! ### The longest chromosome -/

/-- The length of the longest chromosome, zero if there is nobody. -/
def longest (individuals : List Individual) : Nat :=
  individuals.foldr (fun i n => max i.chromosome.length n) 0

theorem length_le_longest {individuals : List Individual} :
    ∀ i ∈ individuals, i.chromosome.length ≤ longest individuals := by
  induction individuals with
  | nil => simp
  | cons j rest ih =>
    refine List.forall_mem_cons.mpr ⟨Nat.le_max_left _ _, fun i hi => ?_⟩
    exact Nat.le_trans (ih i hi) (Nat.le_max_right _ _)

theorem longest_le {individuals : List Individual} {n : Nat}
    (h : ∀ i ∈ individuals, i.chromosome.length ≤ n) : longest individuals ≤ n := by
  induction individuals with
  | nil => exact Nat.zero_le n
  | cons j rest ih =>
    obtain ⟨hj, hrest⟩ := List.forall_mem_cons.mp h
    exact Nat.max_le.mpr ⟨hj, ih hrest⟩

/-- Whether nobody has a chromosome of more than `n` steps. -/
def Population.LengthsWithin (n : Nat) (p : Population) : Prop :=
  ∀ i ∈ p.individuals, i.chromosome.length ≤ n

/-- The greatest length of a replacement, zero if nothing is to be replaced. -/
def Run.greatestReplacement : Option (Nat × Nat) → Nat
  | none => 0
  | some (_, greatest) => greatest

variable {σ : Type} [WordSource σ]

/-! ### One round -/

namespace Gewep

variable {w : Gewep}

theorem mutate_length_le {parent child : Chromosome} {g g' : σ}
    (h : outcome (w.mutate parent) g = (.ok child, g')) :
    child.length ≤ 2 * parent.length + 1 := (Mutates.of_mutate h).length_le

theorem length_le_of_joins {elite : List Individual} {child : Chromosome}
    (h : ∃ i ∈ elite, ∃ j ∈ elite, i.chromosome.Joins j.chromosome child) :
    child.length ≤ longest elite := by
  obtain ⟨i, -, j, hj, point, -, -, -, hlength⟩ := h
  rw [hlength]
  exact length_le_longest j hj

/-- How a round fills the places behind the elite, and by how much its children are longer at most. -/
structure GrowsAtMost (σ : Type) [WordSource σ] (w : Gewep) (p q : Population)
    (mutants children : List Chromosome) : Prop extends
    w.Fills σ (p.ranked.individuals.take (w.pools p.size).elite) (w.pools p.size) mutants
      children where
  individuals_eq : q.individuals = p.ranked.individuals.take (w.pools p.size).elite ++
    (mutants ++ children).map (Individual.ofChromosome p.metric)
  mutants_le : ∀ c ∈ mutants, ∃ i ∈ p.ranked.individuals.take (w.pools p.size).elite,
    w.Mutates σ i.chromosome c ∧ c.length ≤ 2 * i.chromosome.length + 1
  children_le : ∀ c ∈ children,
    c.length ≤ longest (p.ranked.individuals.take (w.pools p.size).elite)

theorem advance_grows {p q : Population} {g g' : σ} (h : outcome (w.advance p) g = (.ok q, g')) :
    ∃ mutants children, w.GrowsAtMost σ p q mutants children := by
  obtain ⟨mutants, children, rfl, hfills⟩ := advance_fills h
  refine ⟨mutants, children, ⟨hfills, rfl, fun c hc => ?_, fun c hc => ?_⟩⟩
  · obtain ⟨i, hi, hmutates⟩ := hfills.mutants_of_elite c hc
    exact ⟨i, hi, hmutates, hmutates.length_le⟩
  · exact length_le_of_joins (hfills.children_of_elite c hc)

theorem GrowsAtMost.lengthsWithin {p q : Population} {mutants children : List Chromosome}
    (h : w.GrowsAtMost σ p q mutants children) {n : Nat} (hp : p.LengthsWithin n) :
    q.LengthsWithin (2 * n + 1) := by
  have helite : ∀ i ∈ p.ranked.individuals.take (w.pools p.size).elite,
      i.chromosome.length ≤ n :=
    fun i hi => hp i (Population.mem_ranked.mp (List.mem_of_mem_take hi))
  intro i hi
  rw [h.individuals_eq, List.mem_append] at hi
  rcases hi with hi | hi
  · have hlength := helite i hi
    omega
  · obtain ⟨c, hc, rfl⟩ := List.mem_map.mp hi
    show c.length ≤ 2 * n + 1
    rcases List.mem_append.mp hc with hc | hc
    · obtain ⟨parent, hparent, -, hlength⟩ := h.mutants_le c hc
      have hle := helite parent hparent
      omega
    · have hlength := h.children_le c hc
      have hle := longest_le helite
      omega

end Gewep

/-! ### Whole runs -/

section Bound

variable (k n : Nat)

theorem le_grown : n ≤ 2 ^ k * (n + 1) - 1 := by
  have hgrown : n + 1 ≤ 2 ^ k * (n + 1) := Nat.le_mul_of_pos_left (n + 1) (Nat.two_pow_pos k)
  omega

theorem twice_grown : 2 * (2 ^ k * (n + 1) - 1) + 1 = 2 ^ (k + 1) * (n + 1) - 1 := by
  have hpositive : 0 < 2 ^ k * (n + 1) := Nat.mul_pos (Nat.two_pow_pos k) (Nat.succ_pos n)
  have hdouble : 2 ^ (k + 1) * (n + 1) = 2 * (2 ^ k * (n + 1)) := by ring
  rw [hdouble]
  omega

theorem grown_le {k m : Nat} (h : k ≤ m) : 2 ^ k * (n + 1) - 1 ≤ 2 ^ m * (n + 1) - 1 :=
  Nat.sub_le_sub_right (Nat.mul_le_mul_right _ (Nat.pow_le_pow_right (by decide) h)) 1

end Bound

namespace Run

section Rounds

variable {w : Gewep} {bounds : Option (Nat × Nat)} {path : Option String} {n : Nat}
  (hbounds : greatestReplacement bounds ≤ n)
include hbounds

theorem offspring_lengthsWithin {p q : Population} {g g' : σ} (hp : p.LengthsWithin n)
    (h : outcome (offspring (Strategy.gewep w).toAlgorithm bounds p) g = (.ok q, g')) :
    q.LengthsWithin (2 * n + 1) := by
  obtain ⟨next, m, hnext, h⟩ := bind_ok h
  obtain ⟨mutants, children, hgrows⟩ := Gewep.advance_grows hnext
  have hlengths := hgrows.lengthsWithin hp
  cases bounds with
  | none =>
    obtain ⟨rfl, -⟩ := pure_ok h
    exact hlengths
  | some range =>
    intro i hi
    rcases Population.randomiseDuplicates_renews (ofDraw_ok h) i hi with ⟨-, hdrawn⟩ | hi
    · have hgreatest : range.2 ≤ n := hbounds
      omega
    · exact hlengths i hi

theorem offspring_grown {k : Nat} {p q : Population} {g g' : σ}
    (hp : p.LengthsWithin (2 ^ k * (n + 1) - 1))
    (h : outcome (offspring (Strategy.gewep w).toAlgorithm bounds p) g = (.ok q, g')) :
    q.LengthsWithin (2 ^ (k + 1) * (n + 1) - 1) := by
  rw [← twice_grown]
  exact offspring_lengthsWithin (Nat.le_trans hbounds (le_grown k n)) hp h

theorem generation?_grown {start : State σ} (hstart : start.population.LengthsWithin n) {k : Nat}
    {p : Population}
    (h : generation? (Strategy.gewep w).toAlgorithm bounds path start k = some p) :
    p.LengthsWithin (2 ^ k * (n + 1) - 1) := by
  induction k generalizing p with
  | zero =>
    obtain rfl : start.population = p := Option.some.inj h
    simpa using hstart
  | succ k ih =>
    obtain ⟨parent, g, g', hparent, hoffspring⟩ := generation?_parent h
    exact offspring_grown hbounds (ih hparent) hoffspring

end Rounds

/-- The elitist strategy with exclusive pools lets chromosomes grow, but at most so far.

Let `longestAtStart` be the length of the longest chromosome of the first generation, or of the longest
possible replacement if that is greater. Whatever words are drawn and however the run ends, no chromosome
after `k` rounds has more than `2 ^ k * (longestAtStart + 1) - 1` steps. In a single round a mutant has at
most one step more than twice its parent, and no crossover child is longer than the longest of the
elite. -/
theorem gewep_growth_is_bounded {w : Gewep} {options : RunOptions} {bounds : Option (Nat × Nat)}
    {allotment : Nat} {start final : State σ} {result : Except Failure (Option Progress)}
    (hoptions : options.duplicateBounds = .ok bounds)
    (hrun : outcome (execute (Strategy.gewep w).toAlgorithm options allotment) start =
      (result, final)) :
    ∃ longestAtStart,
      longestAtStart = max (longest start.population.individuals) (greatestReplacement bounds) ∧
      (∀ k p, generation? (Strategy.gewep w).toAlgorithm bounds options.autosave start k = some p →
        ∀ i ∈ p.individuals, i.chromosome.length ≤ 2 ^ k * (longestAtStart + 1) - 1) ∧
      (∃ k ≤ options.maxRounds.getD allotment, ∀ i ∈ final.population.individuals,
        i.chromosome.length ≤ 2 ^ k * (longestAtStart + 1) - 1) ∧
      (∀ (parent child : Chromosome) (g g' : σ), outcome (w.mutate parent) g = (.ok child, g') →
        child.length ≤ 2 * parent.length + 1) ∧
      ∀ (p q : Population) (g g' : σ), outcome (w.advance p) g = (.ok q, g') →
        ∃ mutants children, w.GrowsAtMost σ p q mutants children := by
  have hreplacement := Nat.le_max_right (longest start.population.individuals)
    (greatestReplacement bounds)
  have hstart : start.population.LengthsWithin
      (max (longest start.population.individuals) (greatestReplacement bounds)) :=
    fun i hi => Nat.le_trans (length_le_longest i hi) (Nat.le_max_left _ _)
  refine ⟨_, rfl, ?_, ?_, ?_, ?_⟩
  · exact fun k p hp => generation?_grown hreplacement hstart hp
  · obtain ⟨k, progress, u, hk, hu, hlast⟩ := execute_population hoptions hrun
    have hgrown := generation?_grown hreplacement hstart (generation?_of_ok hu)
    rcases hlast with hsame | ⟨hless, hoffspring⟩
    · rw [hsame]
      exact ⟨k, hk, hgrown⟩
    · exact ⟨k + 1, hless, offspring_grown hreplacement hgrown hoffspring⟩
  · exact fun parent child g g' h => Gewep.mutate_length_le h
  · exact fun p q g g' h => Gewep.advance_grows h

/-- The longest of the small search has two steps, and no replacement has more. -/
theorem small_growth_is_bounded : ∃ summary final,
    outcome (execute smallStrategy.toAlgorithm (smallOptions none) 0) smallStart =
      (.ok (some summary), final) ∧
    ∀ i ∈ final.population.individuals, i.chromosome.length ≤ 5 := by
  obtain ⟨summary, final, hrun⟩ := smallStart_execute none fun _ h => by cases h
  have hoptions : (smallOptions none).duplicateBounds = .ok (some (1, 2)) := rfl
  obtain ⟨longestAtStart, hlongest, -, ⟨k, hk, hfinal⟩, -, -⟩ :=
    gewep_growth_is_bounded hoptions hrun
  obtain rfl : longestAtStart = 2 := hlongest
  refine ⟨summary, final, hrun, fun i hi => ?_⟩
  have hround : k ≤ 1 := hk
  exact Nat.le_trans (hfinal i hi) (grown_le 2 hround)

end Run

end StepSearch
