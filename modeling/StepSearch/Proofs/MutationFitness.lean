import StepSearch.Proofs.ProgramFitness
import StepSearch.Proofs.Variation

/-!
# Mutations and program size

With more steps a chromosome never leaves more of a program. An addition keeps all steps of its parent
and a deletion brings in none, so the fitness of the two children lies on either side of that of the
parent. It stays between the number of words, which no step takes away, and the size of the program
before any step.
-/

namespace StepSearch

theorem Body.size_reduced_le_of_subset {steps steps' : List Step} (h : steps ⊆ steps') (b : Body) :
    (b.reduced steps').size ≤ (b.reduced steps).size := by
  have hmem : ∀ s, s ∈ steps' ↔ s ∈ steps ++ steps' := by
    intro s
    rw [List.mem_append]
    exact (or_iff_right_of_imp fun hs => h hs).symm
  have hsame : b.reduced steps' = b.reduced (steps ++ steps') := reduced_congr (hmem _) (hmem _) b
  have hleast := size_reduced_append steps steps' b
  rw [← hsame] at hleast
  omega

namespace ProgramSize

variable (m : ProgramSize)

/-! ### The range of fitness -/

theorem evaluate_le_of_subset {c d : Chromosome} (h : c.steps ⊆ d.steps) :
    m.evaluate d ≤ m.evaluate c := by
  rw [evaluate_eq_size_reduced, evaluate_eq_size_reduced]
  exact Body.size_reduced_le_of_subset h m.program.body

theorem evaluate_nil : m.evaluate ⟨[]⟩ = m.program.codeSize := by
  rw [evaluate, optimisedProgram_eq_once]
  rfl

theorem evaluate_of_flattener {c : Chromosome} (h : .blockFlattener ∈ c.steps) :
    m.evaluate c = m.program.body.words.length := by
  rw [evaluate_eq_size_reduced, Body.reduced_of_flattener h, Body.size_ofWords]

theorem evaluate_le_codeSize (c : Chromosome) : m.evaluate c ≤ m.program.codeSize := by
  rw [← evaluate_nil]
  exact m.evaluate_le_of_subset (List.nil_subset c.steps)

theorem words_le_evaluate (c : Chromosome) : m.program.body.words.length ≤ m.evaluate c := by
  have hflattener : Step.blockFlattener ∈ (⟨.blockFlattener :: c.steps⟩ : Chromosome).steps :=
    List.mem_cons_self
  rw [← m.evaluate_of_flattener hflattener]
  exact m.evaluate_le_of_subset (List.subset_cons_self _ c.steps)

/-! ### Children -/

variable {σ : Type} [WordSource σ]

/-- An addition never costs and a deletion never pays.

Whatever words are drawn, with a chance between zero and one both children come about; the one with
steps added is at most as large as the parent, and the one with steps deleted at least. The fitness of
every chromosome lies between the number of words of the program and the size of the program, and both
ends are reached. -/
theorem mutants_lie_on_either_side {p : Binary64} (hp : p.isUnit = true) (c : Chromosome) (g : σ) :
    (∃ child g', outcome (c.addSteps p) g = (.ok child, g') ∧ m.evaluate child ≤ m.evaluate c) ∧
    (∃ child g', outcome (c.deleteSteps p) g = (.ok child, g') ∧ m.evaluate c ≤ m.evaluate child) ∧
    (∀ d, m.program.body.words.length ≤ m.evaluate d ∧ m.evaluate d ≤ m.program.codeSize) ∧
    (∃ least greatest, m.evaluate least = m.program.body.words.length ∧
      m.evaluate greatest = m.program.codeSize) := by
  refine ⟨?_, ?_, fun d => ⟨m.words_le_evaluate d, m.evaluate_le_codeSize d⟩, ?_⟩
  · obtain ⟨child, g', hchild⟩ := c.addSteps_total hp g
    obtain ⟨hkept, -⟩ := Chromosome.addSteps_ok hchild
    exact ⟨child, g', hchild, m.evaluate_le_of_subset hkept.subset⟩
  · obtain ⟨child, g', hchild⟩ := c.deleteSteps_total hp g
    have hleft := Chromosome.deleteSteps_ok hchild
    exact ⟨child, g', hchild, m.evaluate_le_of_subset hleft.subset⟩
  · exact ⟨⟨[.blockFlattener]⟩, ⟨[]⟩, m.evaluate_of_flattener List.mem_cons_self, m.evaluate_nil⟩

/-- Two words, one of them in a block, and a block with nothing but an empty block. -/
def nestedProgram : ProgramSize where
  program := ⟨.word "a" (.block (.block .nil .nil) (.block (.word "b" .nil) .nil))⟩
  repetitions := 3
  repetitions_pos := by decide

def pruneThenInline : Chromosome :=
  ⟨[.unusedPruner, .fullInliner]⟩

def sevenWords : Script where
  words := #[0, 0, 0, 4294967295, 4294967295, 0, 4294967295]

/-- The first chance is hit, which gains a flattener or loses the pruner. -/
theorem mutants_lose_and_gain_blocks : ∃ longer shorter g g',
    outcome (pruneThenInline.addSteps Chromosome.evenChance) sevenWords = (.ok longer, g) ∧
    outcome (pruneThenInline.deleteSteps Chromosome.evenChance) sevenWords = (.ok shorter, g') ∧
    longer.steps = .blockFlattener :: pruneThenInline.steps ∧ shorter.steps = [.fullInliner] ∧
    nestedProgram.evaluate longer < nestedProgram.evaluate pruneThenInline ∧
    nestedProgram.evaluate pruneThenInline < nestedProgram.evaluate shorter ∧
    2 ≤ nestedProgram.evaluate pruneThenInline ∧ nestedProgram.evaluate pruneThenInline ≤ 5 := by
  have hlonger : (outcome (pruneThenInline.addSteps Chromosome.evenChance) sevenWords).map
      Except.toOption Script.position =
        (some ⟨[.blockFlattener, .unusedPruner, .fullInliner]⟩, 7) := by decide +kernel
  have hshorter : (outcome (pruneThenInline.deleteSteps Chromosome.evenChance) sevenWords).map
      Except.toOption Script.position = (some ⟨[.fullInliner]⟩, 4) := by decide +kernel
  obtain ⟨⟨longer, g, hadded, hle⟩, ⟨shorter, g', hdeleted, hge⟩, hrange, -⟩ :=
    nestedProgram.mutants_lie_on_either_side Chromosome.evenChance_isUnit pruneThenInline sevenWords
  obtain ⟨hwords, hwhole⟩ := hrange pruneThenInline
  rw [hadded] at hlonger
  rw [hdeleted] at hshorter
  obtain rfl := Option.some.inj (Prod.mk.inj hlonger).1
  obtain rfl := Option.some.inj (Prod.mk.inj hshorter).1
  exact ⟨_, _, g, g', hadded, hdeleted, rfl, rfl, Nat.lt_of_le_of_ne hle (by decide),
    Nat.lt_of_le_of_ne hge (by decide), hwords, hwhole⟩

end ProgramSize

end StepSearch
