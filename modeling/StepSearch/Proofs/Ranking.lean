import StepSearch.Population

/-!
# Ranking

The best individual of a population is found by one pass over its individuals, the ranking by a
stable sort. Both settle ties in favour of the earlier individual, so that the ranking begins with
the best one.
-/

namespace StepSearch

namespace Individual

/-- Choosing the fitter individual is associative: a sequence has the same best one from either
end. -/
theorem fitter_assoc (i j k : Individual) :
    fitter (fitter i j) k = fitter i (fitter j k) := by
  unfold fitter
  by_cases hij : j.fitness < i.fitness
  · by_cases hjk : k.fitness < j.fitness
    · simp [hij, hjk, Nat.lt_trans hjk hij]
    · simp [hij, hjk]
  · by_cases hjk : k.fitness < j.fitness
    · simp [hij, hjk]
    · have hik : ¬ k.fitness < i.fitness := by omega
      simp [hij, hjk, hik]

theorem foldl_fitter (i j : Individual) (rest : List Individual) :
    rest.foldl fitter (fitter i j) = fitter i (rest.foldl fitter j) := by
  induction rest generalizing j with
  | nil => rfl
  | cons k rest ih =>
    simp only [List.foldl_cons]
    rw [fitter_assoc, ih]

end Individual

namespace Population

/-- The order that a ranking sorts by. -/
abbrev AtLeastAsFit (i j : Individual) : Bool := decide (i.fitness ≤ j.fitness)

theorem atLeastAsFit_trans (i j k : Individual) :
    AtLeastAsFit i j = true → AtLeastAsFit j k = true → AtLeastAsFit i k = true := by
  simp only [decide_eq_true_eq]
  exact Nat.le_trans

theorem atLeastAsFit_total (i j : Individual) : (AtLeastAsFit i j || AtLeastAsFit j i) = true := by
  simp only [Bool.or_eq_true, decide_eq_true_eq]
  exact Nat.le_total i.fitness j.fitness

theorem ranked_pairwise (p : Population) :
    p.ranked.individuals.Pairwise fun i j => i.fitness ≤ j.fitness := by
  have h := List.pairwise_mergeSort atLeastAsFit_trans atLeastAsFit_total p.individuals
  exact h.imp fun hij => of_decide_eq_true hij

theorem perm_ranked (p : Population) : p.ranked.individuals.Perm p.individuals :=
  List.mergeSort_perm _ _

theorem ranked_ranked (p : Population) : p.ranked.ranked = p.ranked := by
  have hsorted : p.ranked.individuals.Pairwise fun i j => AtLeastAsFit i j = true :=
    (ranked_pairwise p).imp fun hij => decide_eq_true hij
  have hkept := List.mergeSort_of_pairwise hsorted
  show Population.mk p.metric (p.ranked.individuals.mergeSort AtLeastAsFit) = p.ranked
  rw [hkept]
  rfl

theorem mem_ranked {p : Population} {i : Individual} :
    i ∈ p.ranked.individuals ↔ i ∈ p.individuals := List.mem_mergeSort

@[simp] theorem length_ranked (p : Population) : p.ranked.individuals.length = p.size :=
  List.length_mergeSort _

/-- A ranking puts an individual behind those of the later ones that are strictly fitter, and before
all others of them. -/
theorem mergeSort_cons_fitness (i : Individual) (rest : List Individual) :
    ∃ before after,
      (i :: rest).mergeSort AtLeastAsFit = before ++ i :: after ∧
      rest.mergeSort AtLeastAsFit = before ++ after ∧
      (∀ j ∈ before, j.fitness < i.fitness) ∧ ∀ j ∈ after, i.fitness ≤ j.fitness := by
  obtain ⟨before, after, hcons, hrest, hbefore⟩ :=
    List.mergeSort_cons atLeastAsFit_trans atLeastAsFit_total i rest
  have hsorted := List.pairwise_mergeSort atLeastAsFit_trans atLeastAsFit_total (i :: rest)
  rw [hcons, List.pairwise_append, List.pairwise_cons] at hsorted
  refine ⟨before, after, hcons, hrest, fun j hj => ?_, fun j hj => ?_⟩
  · have h := hbefore j hj
    simpa using h
  · exact of_decide_eq_true (hsorted.2.1.1 j hj)

theorem head?_mergeSort_fitness (i : Individual) (rest : List Individual) :
    ((i :: rest).mergeSort AtLeastAsFit).head? = some (rest.foldl Individual.fitter i) := by
  induction rest generalizing i with
  | nil => simp
  | cons j rest ih =>
    obtain ⟨before, after, hcons, hrest, hbefore, hafter⟩ := mergeSort_cons_fitness i (j :: rest)
    have hbest := ih j
    rw [hrest] at hbest
    rw [hcons, List.foldl_cons, Individual.foldl_fitter]
    cases before with
    | nil =>
      -- Nobody behind `i` is strictly fitter, so the earlier of equally fit ones wins.
      have hmem := List.mem_of_head? hbest
      have hle := hafter _ hmem
      simp only [List.nil_append, List.head?_cons, Individual.fitter, Option.some_inj]
      rw [if_neg (by omega)]
    | cons k before =>
      have hk : k = rest.foldl Individual.fitter j := by simpa using hbest
      have hlt := hbefore k List.mem_cons_self
      rw [← hk]
      simp [Individual.fitter, hlt]

/-- The ranking begins with the best individual. -/
theorem head?_ranked (p : Population) : p.ranked.individuals.head? = p.best? := by
  unfold ranked best?
  cases p.individuals with
  | nil => simp
  | cons i rest => exact head?_mergeSort_fitness i rest

/-- Nobody is fitter than the best individual, which is one of the population. -/
theorem best?_least {p : Population} {best : Individual} (h : p.best? = some best) :
    best ∈ p.individuals ∧ ∀ i ∈ p.individuals, best.fitness ≤ i.fitness := by
  rw [← head?_ranked] at h
  obtain ⟨rest, hrest⟩ := List.head?_eq_some_iff.mp h
  have hsorted := ranked_pairwise p
  rw [hrest, List.pairwise_cons] at hsorted
  refine ⟨mem_ranked.mp (by simp [hrest]), fun i hi => ?_⟩
  have hmem := mem_ranked.mpr hi
  rw [hrest, List.mem_cons] at hmem
  rcases hmem with rfl | hmem
  · exact Nat.le_refl _
  · exact hsorted.1 i hmem

theorem best?_isSome {p : Population} (h : p.individuals ≠ []) : ∃ best, p.best? = some best := by
  unfold best?
  cases hp : p.individuals with
  | nil => exact absurd hp h
  | cons i rest => exact ⟨_, rfl⟩

/-! ### Ties -/

section Ties

variable (p : Population)

/-- Equally fit individuals come through a ranking in the order in which they stood. -/
theorem filter_ranked (n : Nat) : (p.ranked.individuals.filter fun i => i.fitness = n) =
    p.individuals.filter fun i => i.fitness = n := by
  have hlevel : (p.individuals.filter fun i => i.fitness = n).Pairwise
      fun i j => AtLeastAsFit i j = true := by
    refine List.pairwise_of_forall_mem_list fun i hi j hj => ?_
    rw [List.mem_filter, decide_eq_true_eq] at hi hj
    exact decide_eq_true (Nat.le_of_eq (hi.2.trans hj.2.symm))
  -- What is in order among the individuals stays a part of their ranking.
  have hpart : (p.individuals.filter fun i => i.fitness = n).Sublist p.ranked.individuals :=
    List.sublist_mergeSort atLeastAsFit_trans atLeastAsFit_total hlevel List.filter_sublist
  have hfiltered := hpart.filter fun i => i.fitness = n
  rw [List.filter_filter, List.filter_congr fun _ _ => Bool.and_self _] at hfiltered
  exact (hfiltered.eq_of_length ((perm_ranked p).filter _).length_eq.symm).symm

variable {p} {best : Individual}

theorem find?_of_best? (h : p.best? = some best) :
    (p.individuals.find? fun i => i.fitness = best.fitness) = some best := by
  rw [← head?_ranked] at h
  obtain ⟨rest, hrest⟩ := List.head?_eq_some_iff.mp h
  rw [← List.head?_filter, ← filter_ranked, hrest]
  simp

/-- Whether `best` stands in `p` behind less fit individuals only, and nobody behind it is fitter. -/
def IsEarliestBest (p : Population) (best : Individual) : Prop :=
  ∃ before after, p.individuals = before ++ best :: after ∧
    (∀ i ∈ before, best.fitness < i.fitness) ∧ ∀ i ∈ after, best.fitness ≤ i.fitness

theorem IsEarliestBest.find? (h : p.IsEarliestBest best) :
    (p.individuals.find? fun i => i.fitness = best.fitness) = some best := by
  obtain ⟨before, after, hsplit, hbefore, -⟩ := h
  refine List.find?_eq_some_iff_append.mpr ⟨decide_eq_true rfl, before, after, hsplit, ?_⟩
  intro i hi
  have hlt := hbefore i hi
  simpa using Nat.ne_of_gt hlt

theorem IsEarliestBest.least (h : p.IsEarliestBest best) :
    best ∈ p.individuals ∧ ∀ i ∈ p.individuals, best.fitness ≤ i.fitness := by
  obtain ⟨before, after, hsplit, hbefore, hafter⟩ := h
  rw [hsplit]
  refine ⟨List.mem_append_right _ List.mem_cons_self, fun i hi => ?_⟩
  rw [List.mem_append, List.mem_cons] at hi
  rcases hi with hi | rfl | hi
  · exact Nat.le_of_lt (hbefore i hi)
  · exact Nat.le_refl _
  · exact hafter i hi

theorem isEarliestBest_of_best? (h : p.best? = some best) : p.IsEarliestBest best := by
  obtain ⟨-, hleast⟩ := best?_least h
  obtain ⟨-, before, after, hsplit, hbefore⟩ := List.find?_eq_some_iff_append.mp (find?_of_best? h)
  refine ⟨before, after, hsplit, fun i hi => ?_, fun i hi => hleast i (by simp [hsplit, hi])⟩
  have hne : i.fitness ≠ best.fitness := by simpa using hbefore i hi
  have hle : best.fitness ≤ i.fitness := hleast i (by simp [hsplit, hi])
  omega

theorem best?_eq_some_iff : p.best? = some best ↔ p.IsEarliestBest best := by
  refine ⟨isEarliestBest_of_best?, fun h => ?_⟩
  obtain ⟨hmem, hleast⟩ := h.least
  obtain ⟨first, hfirst⟩ := best?_isSome (List.ne_nil_of_mem hmem)
  obtain ⟨hmem', hleast'⟩ := best?_least hfirst
  -- Of the individuals of least fitness both are the first.
  have hlevel : first.fitness = best.fitness := Nat.le_antisymm (hleast' _ hmem) (hleast _ hmem')
  have hfound := find?_of_best? hfirst
  rw [hlevel, h.find?] at hfound
  rw [hfirst, Option.some.inj hfound]

theorem best?_eq_none_iff : p.best? = none ↔ p.individuals = [] := by
  unfold best?
  cases p.individuals with
  | nil => simp
  | cons i rest => simp

end Ties

/-- A ranking is a stable sort, and the best individual is its first.

Everybody is in it, none less fit than the next, and individuals of one fitness stand in their old order.
A second ranking changes nothing. The best individual begins the ranking: it is the earliest one that
nobody is fitter than, and there is none only in a population of nobody. -/
theorem ranking_is_stable_and_begins_with_best (p : Population) :
    p.ranked.metric = p.metric ∧
    p.ranked.individuals.Perm p.individuals ∧
    (p.ranked.individuals.Pairwise fun i j => i.fitness ≤ j.fitness) ∧
    (∀ n, (p.ranked.individuals.filter fun i => i.fitness = n) =
      p.individuals.filter fun i => i.fitness = n) ∧
    p.ranked.ranked = p.ranked ∧
    p.best? = p.ranked.individuals.head? ∧
    (∀ best, p.best? = some best ↔ p.IsEarliestBest best) ∧
    (p.best? = none ↔ p.individuals = []) :=
  ⟨rfl, perm_ranked p, ranked_pairwise p, filter_ranked p, ranked_ranked p, (head?_ranked p).symm,
    fun _ => best?_eq_some_iff, best?_eq_none_iff⟩

def tiedPopulation : Population :=
  .ofChromosomes (.chromosomeLength 0)
    [⟨[.blockFlattener, .fullInliner]⟩, ⟨[.unusedPruner]⟩, ⟨[.ssaTransform]⟩]

/-- Two of three are equally fit, and the earlier one of them is the best. -/
theorem earlier_twin_begins_ranking :
    (tiedPopulation.ranked.individuals.filter fun i => i.fitness = 1) =
      [⟨⟨[.unusedPruner]⟩, 1⟩, ⟨⟨[.ssaTransform]⟩, 1⟩] ∧
    tiedPopulation.ranked.individuals.head? = some ⟨⟨[.unusedPruner]⟩, 1⟩ := by
  obtain ⟨-, -, -, hstable, -, hhead, hbest, -⟩ :=
    ranking_is_stable_and_begins_with_best tiedPopulation
  have htwin : tiedPopulation.best? = some ⟨⟨[.unusedPruner]⟩, 1⟩ :=
    (hbest _).mpr ⟨[⟨⟨[.blockFlattener, .fullInliner]⟩, 2⟩], [⟨⟨[.ssaTransform]⟩, 1⟩], rfl,
      by decide, by decide⟩
  exact ⟨(hstable 1).trans rfl, hhead ▸ htwin⟩

end Population

end StepSearch
