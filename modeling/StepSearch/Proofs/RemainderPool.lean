import StepSearch.Proofs.ConsistentSettings
import StepSearch.Proofs.ExactValues
import StepSearch.Proofs.PoolCounts

/-!
# The pool that is left over

The crossover pool is what two counts, each rounded up, leave of the population. Every count comes from a
few rounded operations; for populations of up to `2 ^ 32` individuals their errors together are far less
than one individual, so that the pool that is left over does not exceed its own fraction. Without a
fraction for it there is no crossover.
-/

namespace StepSearch

open Binary64

/-! ### Counts -/

namespace Pool

theorem tolerance_value : tolerance.IsFinite ∧ 0 ≤ tolerance.value ∧ tolerance.value ≤ 1 / 2 ^ 29 := by
  obtain ⟨units, hview, hsmall, -⟩ := view_tolerance
  have hsmall' : (2 : ℚ) ^ 29 * units ≤ unitsPerOne := by exact_mod_cast hsmall
  refine ⟨⟨_, _, hview⟩, ?_, ?_⟩
  · rw [value_of_view hview, signedUnits_false, Int.cast_natCast]
    exact div_nonneg (Nat.cast_nonneg _) unitsPerOne_cast_pos.le
  · rw [value_of_view hview, signedUnits_false, Int.cast_natCast,
      div_le_iff₀ unitsPerOne_cast_pos]
    linarith

variable {x : Binary64} (hx : x.IsFinite) {size : Nat}
include hx

theorem count_of_nonpos (h : x.value ≤ 0) : count x size = 0 := by
  have hle : x.le .zero = true := by
    rw [le_iff_value_le hx zero_isFinite, value_zero]
    exact h
  unfold count
  rw [hle, Bool.or_true]
  rfl

variable (hsize : size ≤ 2 ^ 32)
include hsize

section Positive

-- The fraction of the elite is a rounded difference, which may lie above one.
variable (hpositive : 0 < x.value) (hle : x.value ≤ 2)
include hpositive hle

omit hx in
theorem share_mem : 0 ≤ x.value * size ∧ x.value * size ≤ 2 ^ 33 := by
  have hsize' : (size : ℚ) ≤ 2 ^ 32 := by exact_mod_cast hsize
  refine ⟨mul_nonneg hpositive.le (Nat.cast_nonneg _), ?_⟩
  calc x.value * size ≤ 2 * 2 ^ 32 := mul_le_mul hle hsize' (Nat.cast_nonneg _) (by norm_num)
    _ = 2 ^ 33 := by norm_num

theorem near_product : Near (x.mul (ofNat size)) (x.value * size) (2 ^ 33 / 2 ^ 53) := by
  obtain ⟨hsizeFinite, hsizeValue⟩ := ofNat_value (Nat.le_trans hsize (by decide : 2 ^ 32 ≤ 2 ^ 52))
  obtain ⟨hnonneg, hbound⟩ := share_mem hsize hpositive hle
  rw [← hsizeValue] at hnonneg hbound ⊢
  refine near_mul hx (by decide) hsizeFinite ?_
  rw [abs_of_nonneg hnonneg]
  exact hbound

/-- What is rounded up is near the share, although the tolerance has been taken off. -/
theorem near_share :
    Near ((x.mul (ofNat size)).sub tolerance) (x.value * size) (3 / 10 ^ 6) := by
  obtain ⟨htolerance, htoleranceNonneg, htoleranceLe⟩ := tolerance_value
  obtain ⟨hnonneg, hbound⟩ := share_mem hsize hpositive hle
  obtain ⟨hproduct, hproductError⟩ := near_product hx hsize hpositive hle
  rw [abs_le] at hproductError
  obtain ⟨hleft, hleftError⟩ : Near ((x.mul (ofNat size)).sub tolerance)
      ((x.mul (ofNat size)).value - tolerance.value) (2 ^ 34 / 2 ^ 53) := by
    refine near_sub hproduct (by decide) htolerance (abs_le.mpr ⟨?_, ?_⟩)
    · linarith
    · linarith
  rw [abs_le] at hleftError
  refine ⟨hleft, abs_le.mpr ⟨?_, ?_⟩⟩
  · linarith
  · linarith

theorem count_eq :
    count x size = min ⌈((x.mul (ofNat size)).sub tolerance).value⌉₊ size := by
  have hnumber : (x.isNaN || x.le .zero) = false := by
    rw [hx.isNaN, Bool.false_or, ← Bool.not_eq_true, le_iff_value_le hx zero_isFinite, value_zero]
    exact not_le.mpr hpositive
  obtain ⟨hleft, -⟩ := near_share hx hsize hpositive hle
  unfold count
  rw [hnumber, ceilToNat_eq hleft, Nat.min_assoc, Nat.min_comm maxWord, Nat.min_assoc,
    Nat.min_eq_left (Nat.le_trans hsize (by decide) : size ≤ maxWord)]
  rfl

end Positive

/-- A count falls short of its share only where everybody is counted. -/
theorem le_count (hle : x.value ≤ 2) :
    count x size = size ∨ x.value * size - 3 / 10 ^ 6 ≤ count x size := by
  rcases le_or_gt x.value 0 with hnonpos | hpositive
  · have hshare : x.value * size ≤ 0 :=
      mul_nonpos_of_nonpos_of_nonneg hnonpos (Nat.cast_nonneg _)
    right
    rw [count_of_nonpos hx hnonpos, Nat.cast_zero]
    linarith
  · obtain ⟨-, hshare⟩ := near_share hx hsize hpositive hle
    rw [abs_le] at hshare
    rw [count_eq hx hsize hpositive hle]
    generalize ((x.mul (ofNat size)).sub tolerance).value = share at hshare ⊢
    refine (le_total size ⌈share⌉₊).imp Nat.min_eq_right fun hless => ?_
    rw [Nat.min_eq_left hless]
    have hceil := Nat.le_ceil share
    linarith

theorem count_le_share (hle : x.value ≤ 2) :
    count x size ≤ 1 ∨ (count x size : ℚ) ≤ x.value * size + 1 + 3 / 10 ^ 6 := by
  rcases le_or_gt x.value 0 with hnonpos | hpositive
  · rw [count_of_nonpos hx hnonpos]
    exact .inl (Nat.zero_le 1)
  · obtain ⟨-, hshare⟩ := near_share hx hsize hpositive hle
    rw [abs_le] at hshare
    rw [count_eq hx hsize hpositive hle]
    generalize ((x.mul (ofNat size)).sub tolerance).value = share at hshare ⊢
    rcases le_or_gt share 0 with hshareNonpos | hsharePositive
    · rw [Nat.ceil_eq_zero.mpr hshareNonpos]
      exact .inl (Nat.le_succ_of_le (Nat.min_le_left _ _))
    · have hless := Nat.ceil_lt_add_one hsharePositive.le
      have hcount : ((min ⌈share⌉₊ size : Nat) : ℚ) ≤ ⌈share⌉₊ :=
        Nat.cast_le.mpr (Nat.min_le_left _ _)
      right
      linarith

end Pool

/-! ### Divisions -/

namespace PoolSizes

/-- What is asked of the fractions of the mutation and the crossover pool. Their sum is rounded. -/
structure Fractions (m c : Binary64) : Prop where
  mutation : m.InUnit
  crossover : c.InUnit
  sum_le : (m.add c).le .one = true

theorem partition_elite {size : Nat} (h : 1 ≤ size) (m c : Binary64) :
    (partition size m c).elite = max (Pool.count ((Binary64.one.sub m).sub c) size) 1 := by
  unfold partition
  rw [if_neg (Nat.ne_of_gt h)]

theorem partition_mutation {size : Nat} (h : 1 ≤ size) (m c : Binary64) :
    (partition size m c).mutation =
      min (Pool.count m size) (size - (partition size m c).elite) := by
  unfold partition
  rw [if_neg (Nat.ne_of_gt h)]

variable {m c : Binary64}

namespace Fractions

variable (h : Fractions m c)
include h

/-- Two fractions whose rounded sum is at most one hardly exceed the whole. -/
theorem value_add_le : m.value + c.value ≤ 1 + 2 / 2 ^ 53 := by
  obtain ⟨hmNonneg, hmLe⟩ := h.mutation.value_mem
  obtain ⟨hcNonneg, hcLe⟩ := h.crossover.value_mem
  obtain ⟨hfinite, herror⟩ : Near (m.add c) (m.value + c.value) (2 ^ 1 / 2 ^ 53) := by
    refine near_add h.mutation.isFinite (by decide) h.crossover.isFinite (abs_le.mpr ⟨?_, ?_⟩)
    · linarith
    · linarith
  have hsum := h.sum_le
  rw [le_iff_value_le hfinite one_isFinite, value_one] at hsum
  rw [abs_le] at herror
  linarith

/-- The fraction that is left for the elite is rounded twice. -/
theorem near_elite : Near ((Binary64.one.sub m).sub c) (1 - m.value - c.value) (3 / 2 ^ 53) := by
  obtain ⟨hmNonneg, hmLe⟩ := h.mutation.value_mem
  obtain ⟨hcNonneg, hcLe⟩ := h.crossover.value_mem
  obtain ⟨hleft, hleftError⟩ : Near (Binary64.one.sub m) (1 - m.value) (2 ^ 0 / 2 ^ 53) := by
    rw [← value_one]
    refine near_sub one_isFinite (by decide) h.mutation.isFinite ?_
    rw [value_one, abs_le]
    constructor
    · linarith
    · linarith
  rw [abs_le] at hleftError
  obtain ⟨hrest, hrestError⟩ : Near ((Binary64.one.sub m).sub c)
      ((Binary64.one.sub m).value - c.value) (2 ^ 1 / 2 ^ 53) := by
    refine near_sub hleft (by decide) h.crossover.isFinite (abs_le.mpr ⟨?_, ?_⟩)
    · linarith
    · linarith
  rw [abs_le] at hrestError
  refine ⟨hrest, abs_le.mpr ⟨?_, ?_⟩⟩
  · linarith
  · linarith

theorem elite_value_le : ((Binary64.one.sub m).sub c).value ≤ 2 := by
  obtain ⟨hmNonneg, -⟩ := h.mutation.value_mem
  obtain ⟨hcNonneg, -⟩ := h.crossover.value_mem
  obtain ⟨-, herror⟩ := h.near_elite
  rw [abs_le] at herror
  linarith

variable {size : Nat} (hsize : size ≤ 2 ^ 32)
include hsize

theorem abs_eliteShare_sub_le :
    |((Binary64.one.sub m).sub c).value * size - (1 - m.value - c.value) * size| ≤ 2 / 10 ^ 6 := by
  obtain ⟨-, herror⟩ := h.near_elite
  have hsize' : (size : ℚ) ≤ 2 ^ 32 := by exact_mod_cast hsize
  rw [← sub_mul, abs_mul, Nat.abs_cast]
  calc |((Binary64.one.sub m).sub c).value - (1 - m.value - c.value)| * size
      ≤ 3 / 2 ^ 53 * 2 ^ 32 := mul_le_mul herror hsize' (Nat.cast_nonneg _) (by norm_num)
    _ ≤ 2 / 10 ^ 6 := by norm_num

variable (hpositive : 1 ≤ size)
include hpositive

theorem le_elite : (partition size m c).elite = size ∨
    (1 - m.value - c.value) * size - 5 / 10 ^ 6 ≤ (partition size m c).elite := by
  have hshare := h.abs_eliteShare_sub_le hsize
  rw [abs_le] at hshare
  rw [partition_elite hpositive]
  rcases Pool.le_count h.near_elite.1 hsize h.elite_value_le with heverybody | hcount
  · left
    rw [heverybody]
    exact Nat.max_eq_left hpositive
  · right
    have hmax : ((Pool.count ((Binary64.one.sub m).sub c) size : Nat) : ℚ) ≤
        (max (Pool.count ((Binary64.one.sub m).sub c) size) 1 : Nat) :=
      Nat.cast_le.mpr (Nat.le_max_left _ _)
    linarith

theorem elite_le : ((partition size m c).elite : ℚ) ≤
    (1 - m.value - c.value) * size + 1 + 1 / 10 ^ 5 := by
  have hsize' : (size : ℚ) ≤ 2 ^ 32 := by exact_mod_cast hsize
  have hsum := h.value_add_le
  have hleft : -(2 / 2 ^ 53) * (size : ℚ) ≤ (1 - m.value - c.value) * size :=
    mul_le_mul_of_nonneg_right (by linarith) (Nat.cast_nonneg _)
  -- One individual is within the bound even if nothing is left for the elite.
  have hone : 1 ≤ (1 - m.value - c.value) * size + 1 + 1 / 10 ^ 5 := by linarith
  rw [partition_elite hpositive, Nat.cast_max, Nat.cast_one]
  refine max_le ?_ hone
  rcases Pool.count_le_share h.near_elite.1 hsize h.elite_value_le with hfew | hcount
  · have hfew' : (Pool.count ((Binary64.one.sub m).sub c) size : ℚ) ≤ 1 := by exact_mod_cast hfew
    linarith
  · have hshare := h.abs_eliteShare_sub_le hsize
    rw [abs_le] at hshare
    linarith

theorem le_mutation : (partition size m c).mutation = size - (partition size m c).elite ∨
    m.value * size - 3 / 10 ^ 6 ≤ (partition size m c).mutation := by
  have helite := one_le_elite hpositive m c
  have hle : m.value ≤ 2 := by linarith [h.mutation.value_mem.2]
  rw [partition_mutation hpositive]
  rcases Nat.le_total (size - (partition size m c).elite) (Pool.count m size) with hcut | hwhole
  · exact .inl (Nat.min_eq_right hcut)
  · rw [Nat.min_eq_left hwhole]
    rcases Pool.le_count h.mutation.isFinite hsize hle with heverybody | hcount
    · omega
    · exact .inr hcount

/-- The crossover pool keeps to its share: either nobody is left for it, or neither of the other pools
falls short. -/
theorem crossover_le : ((partition size m c).crossover : ℚ) ≤ c.value * size + 1 / 10 ^ 5 := by
  have hpools := partition_sum size m c
  have hnobody : (partition size m c).crossover = 0 →
      ((partition size m c).crossover : ℚ) ≤ c.value * size + 1 / 10 ^ 5 := by
    intro hzero
    have hshare := mul_nonneg h.crossover.value_mem.1 (Nat.cast_nonneg size)
    rw [hzero, Nat.cast_zero]
    linarith
  rcases h.le_elite hsize hpositive with heverybody | helite
  · exact hnobody (by omega)
  · rcases h.le_mutation hsize hpositive with hall | hmutation
    · exact hnobody (by omega)
    · have hpools' : ((partition size m c).elite : ℚ) + (partition size m c).mutation +
          (partition size m c).crossover = size := by exact_mod_cast hpools
      linarith

theorem crossover_eq_zero (hnone : c.value = 0) : (partition size m c).crossover = 0 := by
  have hless : ((partition size m c).crossover : ℚ) < 1 := by
    have hle := h.crossover_le hsize hpositive
    rw [hnone] at hle
    linarith
  exact Nat.lt_one_iff.mp (by exact_mod_cast hless)

end Fractions

end PoolSizes

theorem GewepOptions.fractions_of_valid {o : GewepOptions} (h : o.validate = .ok ()) :
    PoolSizes.Fractions o.mutationPool o.crossoverPool := by
  have hmet := o.validate_enforces.ok_iff.mp ⟨(), h⟩
  constructor
  case mutation => exact hmet (.inUnit .mutationPool o.mutationPool) (by simp [demands])
  case crossover => exact hmet (.inUnit .crossoverPool o.crossoverPool) (by simp [demands])
  case sum_le => exact hmet ⟨_, .poolsExceedPopulation o.mutationPool o.crossoverPool⟩ (by simp [demands])

/-! ### Generations -/

variable {σ : Type} [WordSource σ]

/-- Whether the next generation of `p` is made without crossover: whatever words are drawn, they are drawn
for mutants, which follow the elite. -/
def Gewep.BreedsMutantsOnly (σ : Type) [WordSource σ] (w : Gewep) (p : Population) : Prop :=
  ∀ g : σ, ∃ mutants g',
    outcome (Draw.times (w.pools p.size).mutation
      (w.mutant (p.ranked.individuals.take (w.pools p.size).elite))) g = (.ok mutants, g') ∧
    outcome (w.advance p) g = (.ok ⟨p.metric, p.ranked.individuals.take (w.pools p.size).elite ++
      mutants.map (Individual.ofChromosome p.metric)⟩, g')

theorem Gewep.breedsMutantsOnly_of_crossover_eq_zero {w : Gewep} {p : Population}
    (hp : p.individuals ≠ []) (hnone : (w.pools p.size).crossover = 0) : w.BreedsMutantsOnly σ p := by
  intro g
  have helite := List.length_pos_iff.mpr (w.feasible (σ := σ) hp).parents_ne_nil
  obtain ⟨mutants, g', hmutants⟩ := Draw.times_total (w.mutant_total helite) _ g
  have hchildren : outcome (Draw.times 0
      (crossChild (p.ranked.individuals.take (w.pools p.size).elite))) g' = (.ok [], g') := rfl
  refine ⟨mutants, g', hmutants, ?_⟩
  unfold advance
  rw [if_neg (mt Population.isEmpty_iff.mp hp), outcome_ofDraw]
  unfold breed
  rw [bind_of_ok hmutants, hnone, bind_of_ok hchildren, List.append_nil]
  rfl

theorem Gewep.breedsMutantsOnly_of_generation? {w : Gewep} (hnone : w.options.crossoverPool.value = 0)
    {bounds : Option (Nat × Nat)} {path : Option String} {start : Run.State σ}
    (hpositive : 1 ≤ start.population.size) (hsize : start.population.size ≤ 2 ^ 32) {k : Nat}
    {p : Population}
    (h : Run.generation? (Strategy.gewep w).toAlgorithm bounds path start k = some p) :
    w.BreedsMutantsOnly σ p := by
  have hkept : p.size = start.population.size :=
    Run.generation?_induction (fun p => p.size = start.population.size)
      (fun _ _ _ _ hp hoffspring => (Run.offspring_ok hoffspring).size_eq.trans hp) h rfl
  rw [← hkept] at hpositive hsize
  exact breedsMutantsOnly_of_crossover_eq_zero (List.length_pos_iff.mp hpositive)
    ((GewepOptions.fractions_of_valid w.valid).crossover_eq_zero hsize hpositive hnone)

/-- The crossover pool never exceeds its share.

The elite and the mutation pool are rounded up and leave the crossover pool what remains. In a population
of at most `2 ^ 32` individuals the roundings of the fractions, of their products and the tolerance do
not add up to one individual: the remainder is at most the share of the crossover fraction, and the elite
at most one individual above its own, both up to `1 / 10 ^ 5`. So a fraction of zero, with either sign,
leaves no crossover pool, and a run of such a strategy makes no crossover child in any generation. -/
theorem PoolSizes.remainder_keeps_to_its_share {m c : Binary64} (h : Fractions m c) {size : Nat}
    (hpositive : 1 ≤ size) (hsize : size ≤ 2 ^ 32) :
    ((partition size m c).crossover : ℚ) ≤ c.value * size + 1 / 10 ^ 5 ∧
    ((partition size m c).elite : ℚ) ≤ (1 - m.value - c.value) * size + 1 + 1 / 10 ^ 5 ∧
    (c.value = 0 → (partition size m c).crossover = 0 ∧
      ∀ w : Gewep, w.options.mutationPool = m → w.options.crossoverPool = c →
        ∀ (bounds : Option (Nat × Nat)) (path : Option String) (start : Run.State σ),
          start.population.size = size → ∀ k p,
            Run.generation? (Strategy.gewep w).toAlgorithm bounds path start k = some p →
              w.BreedsMutantsOnly σ p) := by
  refine ⟨h.crossover_le hsize hpositive, h.elite_le hsize hpositive, fun hnone => ⟨?_, ?_⟩⟩
  · exact h.crossover_eq_zero hsize hpositive hnone
  · rintro w rfl rfl bounds path start rfl k p hp
    exact Gewep.breedsMutantsOnly_of_generation? hnone hpositive hsize hp

def mutantOptions : GewepOptions :=
  { GewepOptions.standard 4 with
    mutationPool := .ofRatio false 7 10
    crossoverPool := .signedZero true }

/-- Seven tenths of four individuals are nearly three, but the elite is rounded up and leaves two, and
nobody is left for crossover. Of the largest population that is spoken of, two pools of a third each leave
the crossover pool a third rounded down. -/
theorem PoolSizes.nothing_is_left_without_a_fraction :
    partition 4 (.ofRatio false 7 10) (.signedZero true) = ⟨2, 2, 0⟩ ∧
    (∃ w : Gewep, w.options = mutantOptions ∧
      w.BreedsMutantsOnly Script Run.smallStart.population) ∧
    partition (2 ^ 32) (.ofRatio false 1 3) (.ofRatio false 1 3) =
      ⟨1431655766, 1431655766, 1431655764⟩ ∧
    (1431655764 : ℚ) ≤ (Binary64.ofRatio false 1 3).value * (2 ^ 32 : Nat) + 1 / 10 ^ 5 := by
  have hvalid : mutantOptions.validate = .ok () := Except.eq_ok_of_isOk (by decide +kernel)
  have hview : (Binary64.signedZero true).view = .finite true 0 := by decide +kernel
  have hthirds : partition (2 ^ 32) (.ofRatio false 1 3) (.ofRatio false 1 3) =
      ⟨1431655766, 1431655766, 1431655764⟩ := by decide +kernel
  obtain ⟨-, -, hnone⟩ := remainder_keeps_to_its_share (σ := Script)
    (GewepOptions.fractions_of_valid hvalid) (by decide : 1 ≤ 4) (by decide)
  obtain ⟨-, hmutants⟩ := hnone (value_of_view_zero hview)
  obtain ⟨hshare, -⟩ := remainder_keeps_to_its_share (σ := Script)
    (⟨by decide +kernel, by decide +kernel, by decide +kernel⟩ :
      Fractions (.ofRatio false 1 3) (.ofRatio false 1 3))
    (by decide : 1 ≤ 2 ^ 32) (Nat.le_refl _)
  rw [hthirds] at hshare
  refine ⟨by decide +kernel, ⟨⟨mutantOptions, hvalid⟩, rfl, ?_⟩, hthirds, by exact_mod_cast hshare⟩
  exact hmutants ⟨mutantOptions, hvalid⟩ rfl rfl none none Run.smallStart rfl 0 _ (Run.generation?_zero _)

end StepSearch
