import Mathlib.Data.Nat.Count
import StepSearch.Proofs.Lengths
import StepSearch.Proofs.Totality
import StepSearch.Random.Keystream

/-!
# Repeated chromosomes

Who repeats the chromosome of somebody before is replaced, everybody else stays. The replacements
are drawn in the order of the places, and what is put in is not compared with what comes later: only
the chromosomes of the population as it was decide who is replaced.
-/

namespace StepSearch

namespace Population

/-! ### Places that repeat -/

/-- Whether the chromosome at place `k` is among `seen` or stands at a smaller place. -/
def RepeatsAfter (seen chromosomes : List Chromosome) (k : Nat) : Prop :=
  ∃ c, chromosomes[k]? = some c ∧ c ∈ seen ++ chromosomes.take k

instance (seen chromosomes : List Chromosome) : DecidablePred (RepeatsAfter seen chromosomes) :=
  fun k => decidable_of_iff
    (chromosomes[k]?.any fun c => c ∈ seen ++ chromosomes.take k)
    (by rw [Option.any_eq_true]; simp [RepeatsAfter])

/-- Whether the chromosome at place `k` stands at a smaller place too. -/
def Repeats (p : Population) (k : Nat) : Prop :=
  ∃ c, p.chromosomes[k]? = some c ∧ c ∈ p.chromosomes.take k

instance (p : Population) : DecidablePred p.Repeats :=
  inferInstanceAs (DecidablePred (RepeatsAfter [] p.chromosomes))

section Places

variable {seen chromosomes : List Chromosome} {c : Chromosome} {k : Nat}

theorem repeatsAfter_nil : ¬ RepeatsAfter seen [] k := by
  rintro ⟨c, hc, -⟩
  simp at hc

theorem repeatsAfter_zero : RepeatsAfter seen (c :: chromosomes) 0 ↔ c ∈ seen := by
  simp [RepeatsAfter]

theorem repeatsAfter_succ : RepeatsAfter seen (c :: chromosomes) (k + 1) ↔
    RepeatsAfter (if c ∈ seen then seen else c :: seen) chromosomes k := by
  unfold RepeatsAfter
  rw [List.getElem?_cons_succ, List.take_succ_cons]
  refine exists_congr fun d => and_congr_right fun _ => ?_
  -- A chromosome that was seen before adds nothing to what has been seen.
  by_cases hc : c ∈ seen
  · rw [if_pos hc, List.mem_append, List.mem_cons, List.mem_append]
    constructor
    · rintro (hd | rfl | hd)
      · exact .inl hd
      · exact .inl hc
      · exact .inr hd
    · exact Or.imp_right .inr
  · rw [if_neg hc, List.mem_append, List.mem_cons, List.mem_append, List.mem_cons]
    rw [or_left_comm, or_assoc]

theorem count_repeatsAfter_succ : Nat.count (RepeatsAfter seen (c :: chromosomes)) (k + 1) =
    Nat.count (RepeatsAfter (if c ∈ seen then seen else c :: seen) chromosomes) k +
      if c ∈ seen then 1 else 0 := by
  simp only [Nat.count_succ', repeatsAfter_succ, repeatsAfter_zero]

end Places

theorem Repeats.lt_size {p : Population} {k : Nat} (h : p.Repeats k) : k < p.size := by
  obtain ⟨c, hc, -⟩ := h
  rw [chromosomes, List.getElem?_map, Option.map_eq_some_iff] at hc
  obtain ⟨i, hi, -⟩ := hc
  exact (List.getElem?_eq_some_iff.mp hi).1

theorem exists_first_place {p : Population} {c : Chromosome} (h : c ∈ p.chromosomes) :
    ∃ k, p.chromosomes[k]? = some c ∧ ¬ p.Repeats k := by
  have hplace : ∃ k, p.chromosomes[k]? = some c := List.mem_iff_getElem?.mp h
  refine ⟨Nat.find hplace, Nat.find_spec hplace, ?_⟩
  rintro ⟨d, hd, hmem⟩
  obtain rfl : c = d := Option.some.inj ((Nat.find_spec hplace).symm.trans hd)
  obtain ⟨j, hj, hjc⟩ := List.mem_take_iff_getElem.mp hmem
  have hsmaller : j < Nat.find hplace := by omega
  exact Nat.find_min hplace hsmaller (List.getElem?_eq_some_iff.mpr ⟨by omega, hjc⟩)

theorem not_repeats_of_nodup {p : Population} (h : p.chromosomes.Nodup) (k : Nat) :
    ¬ p.Repeats k := by
  rintro ⟨c, hc, hmem⟩
  obtain ⟨hk, rfl⟩ := List.getElem?_eq_some_iff.mp hc
  obtain ⟨j, hj, hjk⟩ := List.mem_take_iff_getElem.mp hmem
  have hsame : j = k := (List.Nodup.getElem_inj_iff h).mp hjk
  omega

theorem countRepeats_eq (seen : List Chromosome) (individuals : List Individual) :
    countRepeats seen individuals =
      Nat.count (RepeatsAfter seen (individuals.map Individual.chromosome)) individuals.length := by
  induction individuals generalizing seen with
  | nil => rfl
  | cons i rest ih =>
    rw [countRepeats, List.map_cons, List.length_cons, count_repeatsAfter_succ]
    by_cases hseen : i.chromosome ∈ seen
    · rw [if_pos hseen, if_pos hseen, if_pos hseen, ih]
    · rw [if_neg hseen, if_neg hseen, if_neg hseen, ih, Nat.add_zero]

theorem duplicateCount_eq (p : Population) : p.duplicateCount = Nat.count p.Repeats p.size :=
  countRepeats_eq [] p.individuals

/-- Nothing is lost where the first of equal chromosomes stay. -/
theorem chromosomes_subset_of_kept {p q : Population}
    (hkept : ∀ k, ¬ p.Repeats k → q.individuals[k]? = p.individuals[k]?) :
    p.chromosomes ⊆ q.chromosomes := by
  intro c hc
  obtain ⟨k, hk, hfirst⟩ := exists_first_place hc
  refine List.mem_of_getElem? (i := k) ?_
  rw [chromosomes, List.getElem?_map, hkept k hfirst, ← List.getElem?_map]
  exact hk

/-! ### Replacements -/

variable {σ : Type} [WordSource σ]

/-- A place that repeats gets the chromosome whose number is the number of repeating places before. -/
theorem replaceRepeats_places {metric : Metric} {least greatest : Nat} {seen : List Chromosome}
    {before after : List Individual} {g g' : σ}
    (h : outcome (replaceRepeats metric least greatest seen before) g = (.ok after, g')) :
    ∃ drawn, outcome (Draw.times
        (Nat.count (RepeatsAfter seen (before.map Individual.chromosome)) before.length)
        (Chromosome.draw least greatest)) g = (.ok drawn, g') ∧
      ∀ k, after[k]? =
        if RepeatsAfter seen (before.map Individual.chromosome) k then
          drawn[Nat.count (RepeatsAfter seen (before.map Individual.chromosome)) k]?.map
            (Individual.ofChromosome metric)
        else before[k]? := by
  -- The individuals come one by one, and what has been seen before them is any list.
  induction before generalizing seen after g g' with
  | nil =>
    obtain ⟨rfl, rfl⟩ := pure_ok h
    exact ⟨[], rfl, fun k => by rw [List.map_nil, if_neg repeatsAfter_nil]⟩
  | cons i before ih =>
    unfold replaceRepeats at h
    simp only [List.map_cons, List.length_cons, count_repeatsAfter_succ]
    by_cases hseen : i.chromosome ∈ seen
    · rw [if_pos hseen] at h
      obtain ⟨substitute, m, hsubstitute, h⟩ := bind_ok h
      obtain ⟨rest, m', hrest, h⟩ := bind_ok h
      obtain ⟨rfl, rfl⟩ := pure_ok h
      obtain ⟨c, m₁, hc, hsubstitute⟩ := bind_ok hsubstitute
      obtain ⟨rfl, rfl⟩ := pure_ok hsubstitute
      obtain ⟨drawn, hdrawn, hplaces⟩ := ih hrest
      simp only [if_pos hseen]
      refine ⟨c :: drawn, ?_, fun k => ?_⟩
      · rw [Draw.times, bind_of_ok hc, bind_of_ok hdrawn]
        rfl
      · cases k with
        | zero =>
          rw [if_pos (repeatsAfter_zero.mpr hseen), Nat.count_zero]
          rfl
        | succ k =>
          simp only [repeatsAfter_succ, count_repeatsAfter_succ, if_pos hseen,
            List.getElem?_cons_succ]
          exact hplaces k
    · rw [if_neg hseen] at h
      obtain ⟨rest, m, hrest, h⟩ := bind_ok h
      obtain ⟨rfl, rfl⟩ := pure_ok h
      obtain ⟨drawn, hdrawn, hplaces⟩ := ih hrest
      simp only [if_neg hseen, Nat.add_zero]
      refine ⟨drawn, hdrawn, fun k => ?_⟩
      cases k with
      | zero =>
        rw [if_neg (mt repeatsAfter_zero.mp hseen)]
        rfl
      | succ k =>
        simp only [repeatsAfter_succ, count_repeatsAfter_succ, if_neg hseen, Nat.add_zero,
          List.getElem?_cons_succ]
        exact hplaces k

theorem randomiseDuplicates_places {p q : Population} {least greatest : Nat} {g g' : σ}
    (h : outcome (p.randomiseDuplicates least greatest) g = (.ok q, g')) :
    ∃ drawn, outcome (Draw.times (Nat.count p.Repeats p.size) (Chromosome.draw least greatest)) g =
        (.ok drawn, g') ∧
      ∀ k, q.individuals[k]? =
        if p.Repeats k then
          drawn[Nat.count p.Repeats k]?.map (Individual.ofChromosome p.metric)
        else p.individuals[k]? := by
  obtain ⟨individuals, m, hindividuals, h⟩ := bind_ok h
  obtain ⟨rfl, rfl⟩ := pure_ok h
  exact replaceRepeats_places hindividuals

/-- Repeated chromosomes are replaced in place.

As many chromosomes are drawn as places repeat a chromosome of a smaller place, and nothing else is
drawn; the journal tells this number. The first of these places gets the first of the chromosomes, and
so on; all others keep their individual. So no chromosome is lost, and where nothing is repeated
nothing changes. -/
theorem duplicates_are_replaced_in_place (p : Population) {least greatest : Nat}
    (h : least ≤ greatest) (g : σ) : ∃ drawn q g',
      outcome (Draw.times (Nat.count p.Repeats p.size) (Chromosome.draw least greatest)) g =
        (.ok drawn, g') ∧
      p.duplicateCount = Nat.count p.Repeats p.size ∧
      outcome (p.randomiseDuplicates least greatest) g = (.ok q, g') ∧
      q.metric = p.metric ∧ q.size = p.size ∧
      (∀ k, ¬ p.Repeats k → q.individuals[k]? = p.individuals[k]?) ∧
      (∀ k, p.Repeats k → ∃ c, drawn[Nat.count p.Repeats k]? = some c ∧
        q.individuals[k]? = some (Individual.ofChromosome p.metric c) ∧
        least ≤ c.length ∧ c.length ≤ greatest) ∧
      (∀ c ∈ p.chromosomes, c ∈ q.chromosomes) ∧
      (p.chromosomes.Nodup → q = p ∧ g' = g) := by
  obtain ⟨q, g', hq⟩ := p.randomiseDuplicates_total h g
  obtain ⟨hmetric, hsize, -, -⟩ := randomiseDuplicates_ok (fun _ _ _ => Individual.draw_fits) hq
  obtain ⟨drawn, hdrawn, hplaces⟩ := randomiseDuplicates_places hq
  have hkept : ∀ k, ¬ p.Repeats k → q.individuals[k]? = p.individuals[k]? :=
    fun k hk => (hplaces k).trans (if_neg hk)
  refine ⟨drawn, q, g', hdrawn, p.duplicateCount_eq, hq, hmetric, hsize, hkept, fun k hk => ?_,
    fun c hc => chromosomes_subset_of_kept hkept hc, fun hdistinct => ?_⟩
  · have hnumber : Nat.count p.Repeats k < drawn.length := by
      rw [Draw.times_length hdrawn]
      exact Nat.count_strict_mono hk hk.lt_size
    have hc : drawn[Nat.count p.Repeats k]? = some drawn[Nat.count p.Repeats k] :=
      List.getElem?_eq_getElem hnumber
    have hlength := Draw.times_forall (fun _ _ _ => Chromosome.draw_length) hdrawn _
      (List.getElem_mem hnumber)
    refine ⟨_, hc, ?_, hlength⟩
    rw [hplaces k, if_pos hk, hc, Option.map_some]
  · have hnone : Nat.count p.Repeats p.size = 0 :=
      Nat.count_of_forall_not fun k _ => not_repeats_of_nodup hdistinct k
    rw [hnone] at hdrawn
    obtain ⟨-, rfl⟩ := pure_ok hdrawn
    have hindividuals : q.individuals = p.individuals :=
      List.ext_getElem? fun k => hkept k (not_repeats_of_nodup hdistinct k)
    cases q
    subst hmetric hindividuals
    exact ⟨rfl, rfl⟩

def crowd : Population :=
  .ofChromosomes (.chromosomeLength 0)
    [⟨[.unusedPruner]⟩, ⟨[.fullInliner]⟩, ⟨[.unusedPruner]⟩, ⟨[.unusedPruner]⟩, ⟨[.fullInliner]⟩,
      ⟨[.blockFlattener]⟩]

/-- All replacements are equal to the last chromosome here, which stays all the same. -/
theorem crowd_is_thinned : ∃ q g',
    outcome (crowd.randomiseDuplicates 1 1) (Script.mk #[] 0) = (.ok q, g') ∧ g'.position = 6 ∧
    (∀ k ∈ [0, 1, 5], q.individuals[k]? = crowd.individuals[k]?) ∧
    ∀ k ∈ [2, 3, 4], q.individuals[k]? =
      some (Individual.ofChromosome crowd.metric ⟨[.blockFlattener]⟩) := by
  have hwords : (outcome (Draw.times (Nat.count crowd.Repeats crowd.size) (Chromosome.draw 1 1))
      (Script.mk #[] 0)).map Except.toOption Script.position =
        (some (List.replicate 3 ⟨[.blockFlattener]⟩), 6) := by decide +kernel
  obtain ⟨drawn, q, g', hdrawn, -, hq, -, -, hkept, hreplaced, -, -⟩ :=
    duplicates_are_replaced_in_place crowd (Nat.le_refl 1) (Script.mk #[] 0)
  rw [hdrawn] at hwords
  obtain ⟨hsame, hposition⟩ := Prod.mk.inj hwords
  obtain rfl : drawn = List.replicate 3 ⟨[.blockFlattener]⟩ := Option.some.inj hsame
  refine ⟨q, g', hq, hposition, fun k hk => hkept k ?_, fun k hk => ?_⟩
  · revert k
    decide
  · have hrepeats : ∀ k ∈ [2, 3, 4], crowd.Repeats k := by decide
    obtain ⟨c, hc, hplace, -, -⟩ := hreplaced k (hrepeats k hk)
    rw [hplace, List.eq_of_mem_replicate (List.mem_of_getElem? hc)]

end Population

end StepSearch
