import StepSearch.Metric
import StepSearch.Proofs.Optimisation

/-!
# Program size as fitness

A program has one of three sizes after a chromosome has run on it: its number of words, its size
without the blocks that have no words, or the size that it had. They come in this order, and which
one it is depends on the steps that occur. So a longer chromosome is as good as the better of its
parts, and nothing is won by running it again.
-/

namespace StepSearch

namespace Body

/-! ### Three sizes -/

theorem size_ofWords (texts : List String) : (ofWords texts).size = texts.length := by
  induction texts with
  | nil => rfl
  | cons text texts ih =>
    rw [ofWords, size, ih, List.length_cons]
    omega

theorem length_words_le_size (b : Body) : b.words.length ≤ b.size := by
  induction b with
  | nil => exact Nat.le_refl 0
  | word text rest ih =>
    rw [words, size, List.length_cons]
    omega
  | block inner rest ihInner ihRest =>
    rw [words, size, List.length_append]
    omega

theorem size_prune_le (b : Body) : b.prune.size ≤ b.size := by
  induction b with
  | nil => exact Nat.le_refl 0
  | word text rest ih =>
    rw [prune, size, size]
    omega
  | block inner rest ihInner ihRest =>
    rw [prune_block, size]
    by_cases hwords : inner.words = []
    · rw [if_pos hwords]
      omega
    · rw [if_neg hwords, size]
      omega

theorem length_words_le_size_prune (b : Body) : b.words.length ≤ b.prune.size := by
  have h := length_words_le_size b.prune
  rw [words_prune] at h
  exact h

/-- The two steps bring a body down to two sizes, and the lesser one counts. -/
theorem size_reduced (steps : List Step) (b : Body) : (b.reduced steps).size =
    min (if .blockFlattener ∈ steps then b.words.length else b.size)
      (if .unusedPruner ∈ steps then b.prune.size else b.size) := by
  have hwords := length_words_le_size b
  have hpruned := length_words_le_size_prune b
  have hwhole := size_prune_le b
  by_cases hflattener : Step.blockFlattener ∈ steps
  · rw [reduced_of_flattener hflattener, size_ofWords, if_pos hflattener]
    split <;> omega
  rw [if_neg hflattener]
  by_cases hpruner : Step.unusedPruner ∈ steps
  · rw [reduced_of_pruner hflattener hpruner, if_pos hpruner]
    omega
  · rw [reduced_of_others hflattener hpruner, if_neg hpruner]
    omega

/-- What is had from a step in either of two sequences is had from the two in a row. -/
theorem ite_mem_append {n whole : Nat} (h : n ≤ whole) (s : Step) (steps steps' : List Step) :
    (if s ∈ steps ++ steps' then n else whole) =
      min (if s ∈ steps then n else whole) (if s ∈ steps' then n else whole) := by
  by_cases hs : s ∈ steps
  · rw [if_pos hs, if_pos (List.mem_append_left steps' hs)]
    split <;> omega
  rw [if_neg hs]
  by_cases hs' : s ∈ steps'
  · rw [if_pos hs', if_pos (List.mem_append_right steps hs')]
    omega
  · have hneither : s ∉ steps ++ steps' := by simp [hs, hs']
    rw [if_neg hs', if_neg hneither]
    omega

theorem size_reduced_append (steps steps' : List Step) (b : Body) :
    (b.reduced (steps ++ steps')).size = min (b.reduced steps).size (b.reduced steps').size := by
  rw [size_reduced, size_reduced, size_reduced, ite_mem_append (length_words_le_size b),
    ite_mem_append (size_prune_le b)]
  ac_rfl

end Body

/-! ### Repetitions -/

theorem Program.repeat_optimise (steps : List Step) (n : Nat) (p : Program) :
    Nat.repeat (fun p => p.optimise steps) n p = p.optimise (List.replicate n steps).flatten := by
  induction n with
  | zero => rfl
  | succ n ih =>
    rw [Nat.repeat, ih, List.replicate_succ', List.flatten_append, optimise_append,
      List.flatten_singleton]

namespace ProgramSize

variable (m : ProgramSize) (c d : Chromosome)

theorem optimisedProgram_eq :
    m.optimisedProgram c = m.program.optimise (List.replicate m.repetitions c.steps).flatten :=
  m.program.repeat_optimise c.steps m.repetitions

/-- A chromosome that runs again has the same steps as one that runs once. -/
theorem optimisedProgram_eq_once : m.optimisedProgram c = m.program.optimise c.steps := by
  rw [optimisedProgram_eq]
  refine Program.optimise_congr (fun s => ?_) m.program
  have hsome : m.repetitions ≠ 0 := Nat.ne_of_gt m.repetitions_pos
  simp [List.mem_flatten, List.mem_replicate, hsome]

theorem evaluate_eq_size_reduced : m.evaluate c = (m.program.body.reduced c.steps).size := by
  rw [evaluate, optimisedProgram_eq_once, Program.codeSize, Program.optimise_body]

/-- The fitness of two chromosomes in a row is the lesser of theirs. Running a chromosome several
times is running all of its steps so many times, and gives the fitness that it has after one run. -/
theorem evaluate_of_append_and_repetition :
    m.evaluate (c ++ d) = min (m.evaluate c) (m.evaluate d) ∧
    m.evaluate c = evaluate ⟨m.program, 1, Nat.one_pos⟩ c ∧
    m.optimisedProgram c =
      m.program.optimise (List.replicate m.repetitions c.steps).flatten := by
  refine ⟨?_, ?_, optimisedProgram_eq m c⟩
  · rw [evaluate_eq_size_reduced, evaluate_eq_size_reduced, evaluate_eq_size_reduced]
    exact Body.size_reduced_append c.steps d.steps m.program.body
  · rw [evaluate_eq_size_reduced, evaluate_eq_size_reduced]

end ProgramSize

end StepSearch
