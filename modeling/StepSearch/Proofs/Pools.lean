import Mathlib.Data.Nat.PSub
import StepSearch.Pool

/-!
# Pool sizes

A pool never has more members than the population, and the three pools of a division share the
population out without anybody left over. These facts hold for every fraction, NaN included, and for
every size, also one that is rounded when it is multiplied by a fraction.
-/

namespace StepSearch

theorem Pool.count_le (fraction : Binary64) (size : Nat) : Pool.count fraction size ≤ size := by
  unfold Pool.count
  split
  · exact Nat.zero_le _
  · exact Nat.min_le_right _ _

namespace PoolSizes

theorem partition_of_pos {size : Nat} (h : 0 < size) (mutation crossover : Binary64) :
    ∃ elite mutants, partition size mutation crossover =
      ⟨elite, mutants, size - elite - mutants⟩ ∧
      1 ≤ elite ∧ elite ≤ size ∧ mutants ≤ size - elite := by
  have hne : size ≠ 0 := by omega
  have hcount := Pool.count_le ((Binary64.one.sub mutation).sub crossover) size
  refine ⟨_, _, if_neg hne, ?_, ?_, ?_⟩
  · exact Nat.le_max_right _ _
  · exact Nat.max_le.mpr ⟨hcount, h⟩
  · exact Nat.min_le_right _ _

theorem partition_le {size : Nat} (h : 0 < size) (mutation crossover : Binary64) :
    (partition size mutation crossover).elite ≤ size ∧
      (partition size mutation crossover).mutation ≤
        size - (partition size mutation crossover).elite := by
  obtain ⟨elite, mutants, heq, -, helite, hmutants⟩ := partition_of_pos h mutation crossover
  rw [heq]
  exact ⟨helite, hmutants⟩

/-- The elite of a population that is not empty is not empty. -/
theorem one_le_elite {size : Nat} (h : 0 < size) (mutation crossover : Binary64) :
    1 ≤ (partition size mutation crossover).elite := by
  obtain ⟨elite, mutants, heq, hpos, -, -⟩ := partition_of_pos h mutation crossover
  rw [heq]
  exact hpos

/-- The three pools make up the population. -/
theorem partition_sum (size : Nat) (mutation crossover : Binary64) :
    (partition size mutation crossover).elite + (partition size mutation crossover).mutation +
      (partition size mutation crossover).crossover = size := by
  by_cases h : size = 0
  · simp [partition, h]
  · obtain ⟨elite, mutants, heq, -, hle, hmutants⟩ :=
      partition_of_pos (Nat.pos_of_ne_zero h) mutation crossover
    rw [heq]
    show elite + mutants + (size - elite - mutants) = size
    omega

theorem mutation_le_count (size : Nat) (mutation crossover : Binary64) :
    (partition size mutation crossover).mutation ≤ Pool.count mutation size := by
  unfold partition
  split
  · exact Nat.zero_le _
  · exact Nat.min_le_left _ _

/-- The same division with differences that have no value if they are below zero. -/
def partition? (size : Nat) (mutation crossover : Binary64) : Option PoolSizes :=
  if size = 0 then some ⟨0, 0, 0⟩
  else do
    let elite := max (Pool.count ((Binary64.one.sub mutation).sub crossover) size) 1
    let others ← size.psub elite
    let mutants := min (Pool.count mutation size) others
    let rest ← others.psub mutants
    return ⟨elite, mutants, rest⟩

theorem partition?_eq (size : Nat) (mutation crossover : Binary64) :
    partition? size mutation crossover = some (partition size mutation crossover) := by
  unfold partition? partition
  by_cases hsize : size = 0
  · rw [if_pos hsize, if_pos hsize]
  · have hcount := Pool.count_le ((Binary64.one.sub mutation).sub crossover) size
    have helite : max (Pool.count ((Binary64.one.sub mutation).sub crossover) size) 1 ≤ size := by
      omega
    rw [if_neg hsize, if_neg hsize]
    dsimp only
    rw [Nat.psub_eq_sub helite, Option.bind_eq_bind, Option.bind_some,
      Nat.psub_eq_sub (Nat.min_le_right _ _)]
    rfl

/-- A division shares out everybody, whatever the fractions are.

No difference in it is ever below zero, the three pools together are the population, and the elite of
somebody is somebody. The mutation pool has at most the members that its fraction counts, and no
fraction counts more than there are. -/
theorem partition_is_total_and_exclusive (size : Nat) (mutation crossover : Binary64) :
    partition? size mutation crossover = some (partition size mutation crossover) ∧
    (partition size mutation crossover).elite + (partition size mutation crossover).mutation +
      (partition size mutation crossover).crossover = size ∧
    (0 < size → 1 ≤ (partition size mutation crossover).elite) ∧
    (partition size mutation crossover).mutation ≤ Pool.count mutation size ∧
    ∀ fraction, Pool.count fraction size ≤ size :=
  ⟨partition?_eq size mutation crossover, partition_sum size mutation crossover,
    fun hsize => one_le_elite hsize mutation crossover, mutation_le_count size mutation crossover,
    fun fraction => Pool.count_le fraction size⟩

/-- The greatest size is no binary64 number. Its mutation pool would be everybody, and the elite has no
fraction. -/
theorem greatest_population_is_shared_out :
    partition Binary64.maxWord .one .nan = ⟨1, Binary64.maxWord - 1, 0⟩ ∧
    partition? Binary64.maxWord .one .nan = some (partition Binary64.maxWord .one .nan) ∧
    1 ≤ (partition Binary64.maxWord .one .nan).elite ∧
    Pool.count (.infinity false) Binary64.maxWord ≤ Binary64.maxWord := by
  obtain ⟨hchecked, -, helite, -, hcount⟩ :=
    partition_is_total_and_exclusive Binary64.maxWord .one .nan
  exact ⟨by decide +kernel, hchecked, helite (by decide), hcount _⟩

end PoolSizes

end StepSearch
