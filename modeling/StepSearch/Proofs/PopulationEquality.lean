import Mathlib.Logic.Function.Basic
import StepSearch.Proofs.Ranking

/-!
# Equality of populations

Individuals are in a total order in which no two are level, so the same individuals, each as often,
have one arrangement. Populations are therefore the same if they have the same metric and the
individuals of one are a permutation of those of the other. A ranking and the order in which
populations are joined make no difference to that.
-/

namespace StepSearch

/-! ### The order of individuals -/

theorem Step.index_injective : Function.Injective index :=
  Function.LeftInverse.injective ofIndex_index

instance : Std.TransOrd Step :=
  inferInstanceAs (Std.TransCmp (compareOn Step.index))

instance : Std.LawfulEqOrd Step where
  eq_of_compare h := Step.index_injective (Std.LawfulEqOrd.eq_of_compare h)

instance : Std.TransOrd Chromosome :=
  inferInstanceAs (Std.TransCmp (compareOn Chromosome.steps))

instance : Std.LawfulEqOrd Chromosome where
  eq_of_compare {a b} h := by
    have hsteps : a.steps = b.steps := Std.LawfulEqOrd.eq_of_compare h
    cases a
    cases b
    exact congrArg Chromosome.mk hsteps

instance : Std.TransOrd Individual :=
  inferInstanceAs (Std.TransCmp
    (compareLex (compareOn Individual.chromosome) (compareOn Individual.fitness)))

instance : Std.LawfulEqOrd Individual where
  eq_of_compare {i j} h := by
    obtain ⟨hchromosome, hfitness⟩ := Ordering.then_eq_eq.mp h
    have hchromosome' : i.chromosome = j.chromosome := Std.LawfulEqOrd.eq_of_compare hchromosome
    have hfitness' : i.fitness = j.fitness := Std.LawfulEqOrd.eq_of_compare hfitness
    cases i
    cases j
    simp only at hchromosome' hfitness'
    rw [hchromosome', hfitness']

namespace Population

/-! ### The arrangement -/

theorem perm_arranged (p : Population) : p.arranged.Perm p.individuals :=
  List.mergeSort_perm _ _

theorem arranged_pairwise (p : Population) :
    p.arranged.Pairwise fun i j => (compare i j).isLE = true := by
  refine List.pairwise_mergeSort (fun _ _ _ => Std.TransCmp.isLE_trans) (fun i j => ?_) _
  cases h : compare i j with
  | lt => rfl
  | eq => rfl
  | gt => simp [Std.OrientedCmp.lt_of_gt h]

/-- In an arrangement nothing is left of the order in which the individuals stood. -/
theorem arranged_eq_iff {p q : Population} :
    p.arranged = q.arranged ↔ q.individuals.Perm p.individuals := by
  constructor
  · intro h
    have hperm := perm_arranged q
    rw [← h] at hperm
    exact hperm.symm.trans (perm_arranged p)
  · intro h
    have hperm : p.arranged.Perm q.arranged :=
      (perm_arranged p).trans (h.symm.trans (perm_arranged q).symm)
    refine List.Perm.eq_of_pairwise ?_ (arranged_pairwise p) (arranged_pairwise q) hperm
    intro i j _ _ hij hji
    exact Std.LawfulEqOrd.eq_of_compare (Std.OrientedCmp.isLE_antisymm hij hji)

theorem beq_iff {p q : Population} :
    (p == q) = true ↔ p.SharesMetric q ∧ q.individuals.Perm p.individuals := by
  rw [← arranged_eq_iff]
  show (decide (p.SharesMetric q) && p.arranged == q.arranged) = true ↔ _
  rw [Bool.and_eq_true, decide_eq_true_eq, beq_iff_eq]

/-! ### Unions -/

theorem union_of_sharesMetric {p q : Population} (h : p.SharesMetric q) :
    p.union q = .ok ⟨p.metric, p.individuals ++ q.individuals⟩ := if_pos h

theorem union_of_not_sharesMetric {p q : Population} (h : ¬ p.SharesMetric q) :
    p.union q = .error .metricsDiffer := if_neg h

theorem union_ok {p q r : Population} (h : p.union q = .ok r) :
    p.SharesMetric q ∧ r = ⟨p.metric, p.individuals ++ q.individuals⟩ := by
  by_cases hshared : p.SharesMetric q
  · rw [union_of_sharesMetric hshared] at h
    cases h
    exact ⟨hshared, rfl⟩
  · rw [union_of_not_sharesMetric hshared] at h
    cases h

/-- Populations are the same if they have the same individuals, each as often.

Order does not matter, but number and metric do. Only populations with the same metric are joined; the
union has the individuals of the first, then those of the second, and is the same as the union the
other way round. The same populations have the same unions, or none, and a ranking leaves a population
the same. -/
theorem equality_is_of_multisets (p q : Population) :
    ((p == q) = true ↔ p.SharesMetric q ∧ q.individuals.Perm p.individuals) ∧
    ((∃ r, p.union q = .ok r) ↔ p.SharesMetric q) ∧
    (∀ r, p.union q = .ok r →
      r.metric = p.metric ∧ r.individuals = p.individuals ++ q.individuals ∧
      ∃ r', q.union p = .ok r' ∧ (r == r') = true) ∧
    (∀ p' q', (p == p') = true → (q == q') = true →
      (∃ r r', p.union q = .ok r ∧ p'.union q' = .ok r' ∧ (r == r') = true) ∨
      (p.union q = .error .metricsDiffer ∧ p'.union q' = .error .metricsDiffer)) ∧
    (p.ranked == p) = true := by
  refine ⟨beq_iff, ⟨?_, ?_⟩, ?_, ?_, ?_⟩
  · rintro ⟨r, hr⟩
    exact (union_ok hr).1
  · exact fun h => ⟨_, union_of_sharesMetric h⟩
  · intro r hr
    obtain ⟨hshared, rfl⟩ := union_ok hr
    exact ⟨rfl, rfl, _, union_of_sharesMetric hshared.symm,
      beq_iff.mpr ⟨hshared, List.perm_append_comm⟩⟩
  · intro p' q' hp hq
    obtain ⟨hmetric, hperm⟩ := beq_iff.mp hp
    obtain ⟨hmetric', hperm'⟩ := beq_iff.mp hq
    by_cases hshared : p.SharesMetric q
    · have hshared' : p'.SharesMetric q' := hmetric.symm.trans (hshared.trans hmetric')
      exact .inl ⟨_, _, union_of_sharesMetric hshared, union_of_sharesMetric hshared',
        beq_iff.mpr ⟨hmetric, hperm.append hperm'⟩⟩
    · have hshared' : ¬ p'.SharesMetric q' :=
        fun h => hshared (hmetric.trans (h.trans hmetric'.symm))
      exact .inr ⟨union_of_not_sharesMetric hshared, union_of_not_sharesMetric hshared'⟩
  · exact beq_iff.mpr ⟨rfl, (perm_ranked p).symm⟩

def shortAndTwins : Population :=
  .ofChromosomes (.chromosomeLength 0)
    [⟨[.ssaTransform]⟩, ⟨[.blockFlattener, .fullInliner]⟩, ⟨[.blockFlattener, .fullInliner]⟩]

def shortBetweenTwins : Population :=
  .ofChromosomes (.chromosomeLength 0)
    [⟨[.blockFlattener, .fullInliner]⟩, ⟨[.ssaTransform]⟩, ⟨[.blockFlattener, .fullInliner]⟩]

def shortTwins : Population :=
  .ofChromosomes (.chromosomeLength 0)
    [⟨[.blockFlattener, .fullInliner]⟩, ⟨[.ssaTransform]⟩, ⟨[.ssaTransform]⟩]

/-- All three have the same two chromosomes, but the third one has the other one twice. -/
theorem order_is_ignored_but_number_is_not :
    (shortAndTwins == shortBetweenTwins) = true ∧ ¬ (shortAndTwins == shortTwins) = true ∧
    ∃ r r', shortAndTwins.union shortTwins = .ok r ∧ shortBetweenTwins.union shortTwins = .ok r' ∧
      (r == r') = true := by
  obtain ⟨hequal, hjoined, -, hsame, -⟩ := equality_is_of_multisets shortAndTwins shortTwins
  obtain ⟨hequal', -, -, -, -⟩ := equality_is_of_multisets shortAndTwins shortBetweenTwins
  obtain ⟨hself, -, -, -, -⟩ := equality_is_of_multisets shortTwins shortTwins
  have htwins : (shortAndTwins == shortBetweenTwins) = true := hequal'.mpr (by decide)
  refine ⟨htwins, fun h => absurd (hequal.mp h).2 (by decide), ?_⟩
  rcases hsame _ _ htwins (hself.mpr ⟨rfl, .refl _⟩) with hunions | ⟨hrefused, -⟩
  · exact hunions
  · obtain ⟨r, hr⟩ := hjoined.mpr rfl
    rw [hrefused] at hr
    cases hr

end Population

end StepSearch
