import StepSearch.Program

/-!
# What step sequences do to programs

The two steps that act on programs keep the words and take away blocks, `BlockFlattener` all of them
and `UnusedPruner` those without words. The result of a sequence is therefore told by which of the
two occur in it.
-/

namespace StepSearch

namespace Body

/-! ### Words -/

/-- The given words, without nested blocks. -/
def ofWords : List String → Body
  | [] => nil
  | text :: texts => word text (ofWords texts)

theorem words_ofWords (texts : List String) : (ofWords texts).words = texts := by
  induction texts with
  | nil => rfl
  | cons text texts ih => rw [ofWords, words, ih]

theorem ofWords_append (texts texts' : List String) :
    ofWords (texts ++ texts') = ofWords texts ++ ofWords texts' := by
  induction texts with
  | nil => rfl
  | cons text texts ih =>
    rw [List.cons_append, ofWords, ih]
    rfl

/-! ### Flattening -/

theorem flatten_eq_ofWords (b : Body) : b.flatten = ofWords b.words := by
  induction b with
  | nil => rfl
  | word text rest ih => rw [flatten, words, ofWords, ih]
  | block inner rest ihInner ihRest => rw [flatten, words, ofWords_append, ihInner, ihRest]

theorem words_flatten (b : Body) : b.flatten.words = b.words := by
  rw [flatten_eq_ofWords, words_ofWords]

/-! ### Pruning -/

theorem prune_eq_nil_iff (b : Body) : b.prune = nil ↔ b.words = [] := by
  induction b with
  | nil => simp [prune, words]
  | word text rest _ => simp [prune, words]
  | block inner rest ihInner ihRest =>
    rw [words, List.append_eq_nil_iff, ← ihInner, ← ihRest, prune]
    cases hinner : inner.prune with
    | nil => simp
    | word text inner' => simp
    | block inner' rest' => simp

theorem prune_block (inner rest : Body) : (block inner rest).prune =
    if inner.words = [] then rest.prune else block inner.prune rest.prune := by
  have hempty := prune_eq_nil_iff inner
  rw [prune]
  cases hinner : inner.prune with
  | nil =>
    have hwords : inner.words = [] := hempty.mp hinner
    rw [if_pos hwords]
  | word text inner' =>
    have hwords : inner.words ≠ [] := fun h => by simpa [hinner] using hempty.mpr h
    rw [if_neg hwords]
  | block inner' rest' =>
    have hwords : inner.words ≠ [] := fun h => by simpa [hinner] using hempty.mpr h
    rw [if_neg hwords]

theorem words_prune (b : Body) : b.prune.words = b.words := by
  induction b with
  | nil => rfl
  | word text rest ih => rw [prune, words, words, ih]
  | block inner rest ihInner ihRest =>
    rw [prune_block]
    by_cases hwords : inner.words = []
    · rw [if_pos hwords, words, hwords, List.nil_append, ihRest]
    · rw [if_neg hwords, words, words, ihInner, ihRest]

theorem prune_ofWords (texts : List String) : (ofWords texts).prune = ofWords texts := by
  induction texts with
  | nil => rfl
  | cons text texts ih => rw [ofWords, prune, ih]

theorem prune_prune (b : Body) : b.prune.prune = b.prune := by
  induction b with
  | nil => rfl
  | word text rest ih => rw [prune, prune, ih]
  | block inner rest ihInner ihRest =>
    rw [prune_block]
    by_cases hwords : inner.words = []
    · rw [if_pos hwords, ihRest]
    · have hwords' : inner.prune.words ≠ [] := by
        rw [words_prune]
        exact hwords
      rw [if_neg hwords, prune_block, if_neg hwords', ihInner, ihRest]

/-- The tree without the nested blocks that have no word at any depth. Whether a block goes is asked
of the block as it stands in the tree, not of what is left of it. -/
def withoutWordless : Body → Body
  | nil => nil
  | word text rest => word text rest.withoutWordless
  | block inner rest =>
    if inner.words = [] then rest.withoutWordless
    else block inner.withoutWordless rest.withoutWordless

theorem prune_eq_withoutWordless (b : Body) : b.prune = b.withoutWordless := by
  induction b with
  | nil => rfl
  | word text rest ih => rw [prune, withoutWordless, ih]
  | block inner rest ihInner ihRest => rw [prune_block, withoutWordless, ihInner, ihRest]

/-! ### One step -/

theorem apply_of_ne {s : Step} (hflattener : s ≠ .blockFlattener) (hpruner : s ≠ .unusedPruner)
    (b : Body) : apply s b = b := by
  cases s with
  | blockFlattener => exact absurd rfl hflattener
  | unusedPruner => exact absurd rfl hpruner
  | _ => rfl

theorem words_apply (s : Step) (b : Body) : (apply s b).words = b.words := by
  by_cases hflattener : s = .blockFlattener
  · subst hflattener
    exact words_flatten b
  by_cases hpruner : s = .unusedPruner
  · subst hpruner
    exact words_prune b
  · rw [apply_of_ne hflattener hpruner]

/-! ### Sequences of steps -/

theorem words_foldl_apply (steps : List Step) (b : Body) :
    (steps.foldl (fun b s => apply s b) b).words = b.words := by
  induction steps generalizing b with
  | nil => rfl
  | cons s steps ih => rw [List.foldl_cons, ih, words_apply]

/-- What is left of a body after some steps, told by which steps are among them. -/
def reduced (steps : List Step) (b : Body) : Body :=
  if .blockFlattener ∈ steps then ofWords b.words
  else if .unusedPruner ∈ steps then b.prune
  else b

theorem reduced_of_flattener {steps : List Step} (h : .blockFlattener ∈ steps) (b : Body) :
    b.reduced steps = ofWords b.words := if_pos h

theorem reduced_of_pruner {steps : List Step} (h : .blockFlattener ∉ steps)
    (h' : .unusedPruner ∈ steps) (b : Body) : b.reduced steps = b.prune := by
  rw [reduced, if_neg h, if_pos h']

theorem reduced_of_others {steps : List Step} (h : .blockFlattener ∉ steps)
    (h' : .unusedPruner ∉ steps) (b : Body) : b.reduced steps = b := by
  rw [reduced, if_neg h, if_neg h']

theorem reduced_congr {steps steps' : List Step}
    (h : .blockFlattener ∈ steps ↔ .blockFlattener ∈ steps')
    (h' : .unusedPruner ∈ steps ↔ .unusedPruner ∈ steps') (b : Body) :
    b.reduced steps = b.reduced steps' := by
  simp only [reduced, h, h']

theorem reduced_ofWords (steps : List Step) (texts : List String) :
    (ofWords texts).reduced steps = ofWords texts := by
  unfold reduced
  rw [words_ofWords, prune_ofWords, ite_self, ite_self]

theorem reduced_prune (steps : List Step) (b : Body) :
    b.prune.reduced steps = b.reduced (.unusedPruner :: steps) := by
  have hpruner : Step.unusedPruner ∈ Step.unusedPruner :: steps := List.mem_cons_self
  by_cases hflattener : Step.blockFlattener ∈ steps
  · have hflattener' : Step.blockFlattener ∈ Step.unusedPruner :: steps :=
      List.mem_cons_of_mem _ hflattener
    rw [reduced_of_flattener hflattener, reduced_of_flattener hflattener', words_prune]
  · have hflattener' : Step.blockFlattener ∉ Step.unusedPruner :: steps := by
      simpa using hflattener
    rw [reduced_of_pruner hflattener' hpruner]
    by_cases hagain : Step.unusedPruner ∈ steps
    · rw [reduced_of_pruner hflattener hagain, prune_prune]
    · rw [reduced_of_others hflattener hagain]

theorem reduced_apply (s : Step) (steps : List Step) (b : Body) :
    (apply s b).reduced steps = b.reduced (s :: steps) := by
  by_cases hflattener : s = .blockFlattener
  · subst hflattener
    -- Nothing is left for the other steps, whichever they are.
    show b.flatten.reduced steps = _
    rw [flatten_eq_ofWords, reduced_ofWords, reduced_of_flattener List.mem_cons_self]
  by_cases hpruner : s = .unusedPruner
  · subst hpruner
    exact reduced_prune steps b
  · rw [apply_of_ne hflattener hpruner]
    have hflattener' : Step.blockFlattener ∈ s :: steps ↔ Step.blockFlattener ∈ steps := by
      rw [List.mem_cons, or_iff_right (Ne.symm hflattener)]
    have hpruner' : Step.unusedPruner ∈ s :: steps ↔ Step.unusedPruner ∈ steps := by
      rw [List.mem_cons, or_iff_right (Ne.symm hpruner)]
    exact reduced_congr hflattener'.symm hpruner'.symm b

theorem foldl_apply (steps : List Step) (b : Body) :
    steps.foldl (fun b s => apply s b) b = b.reduced steps := by
  induction steps generalizing b with
  | nil => exact (reduced_of_others List.not_mem_nil List.not_mem_nil b).symm
  | cons s steps ih => rw [List.foldl_cons, ih, reduced_apply]

end Body

namespace Program

theorem optimise_body (p : Program) (steps : List Step) :
    (p.optimise steps).body = p.body.reduced steps :=
  Body.foldl_apply steps p.body

theorem words_optimise (p : Program) (steps : List Step) :
    (p.optimise steps).body.words = p.body.words :=
  Body.words_foldl_apply steps p.body

theorem optimise_append (p : Program) (steps steps' : List Step) :
    p.optimise (steps ++ steps') = (p.optimise steps).optimise steps' := by
  rw [optimise, List.foldl_append]
  rfl

theorem optimise_congr {steps steps' : List Step} (h : ∀ s, s ∈ steps ↔ s ∈ steps')
    (p : Program) : p.optimise steps = p.optimise steps' := by
  have hbody : (p.optimise steps).body = (p.optimise steps').body := by
    rw [optimise_body, optimise_body]
    exact Body.reduced_congr (h .blockFlattener) (h .unusedPruner) p.body
  exact congrArg Program.mk hbody

/-- Steps keep the words in their order. With `BlockFlattener` among them nothing else is left; with
`UnusedPruner` and without it exactly the nested blocks go that have no word at any depth; all other
steps change nothing. Their order and number do not matter. -/
theorem optimise_determined_by_steps_present (p : Program) (steps : List Step) :
    (p.optimise steps).body.words = p.body.words ∧
    (p.optimise steps).body =
      (if .blockFlattener ∈ steps then .ofWords p.body.words
      else if .unusedPruner ∈ steps then p.body.withoutWordless
      else p.body) ∧
    ∀ steps', (∀ s, s ∈ steps' ↔ s ∈ steps) → p.optimise steps' = p.optimise steps := by
  refine ⟨words_optimise p steps, ?_, fun steps' h => optimise_congr h p⟩
  rw [optimise_body, ← Body.prune_eq_withoutWordless]
  rfl

theorem emptied_blocks_are_pruned : ∃ p : Program,
    p.body = .word "a" (.block (.block .nil .nil) (.block (.word "b" (.block .nil .nil)) .nil)) ∧
    p.optimise [.unusedPruner, .fullInliner, .unusedPruner] =
      p.optimise [.fullInliner, .unusedPruner] ∧
    (p.optimise [.fullInliner, .unusedPruner]).body = .word "a" (.block (.word "b" .nil) .nil) := by
  obtain ⟨-, hbody, hsame⟩ := optimise_determined_by_steps_present
    ⟨.word "a" (.block (.block .nil .nil) (.block (.word "b" (.block .nil .nil)) .nil))⟩
    [.fullInliner, .unusedPruner]
  have hsteps : ∀ s, s ∈ [Step.unusedPruner, .fullInliner, .unusedPruner] ↔
      s ∈ [Step.fullInliner, .unusedPruner] := by
    intro s
    cases s <;> decide
  exact ⟨_, rfl, hsame _ hsteps, hbody.trans (by decide)⟩

end Program

end StepSearch
