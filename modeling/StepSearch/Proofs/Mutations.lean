import StepSearch.Proofs.Totality

/-!
# Mutations in one pass

A mutation edits the parent place by place, and every edit moves the steps behind it. The same words
give the same child in one pass over the steps of the parent, in which nothing has to be moved: each
step is replaced, left out, or preceded by a new one. What is left out and what is new does not depend
on the steps, so a child can also be put together from its parent and from draws made beforehand. What
a child has of its parent is read off this form; what a crossover child has of its parents is read off
the point.
-/

namespace StepSearch

variable {σ : Type} [WordSource σ]

namespace Chromosome

/-! ### The passes -/

/-- Another step with the given chance. -/
def drawSubstitute (p : Binary64) (s : Step) : Draw σ Step := do
  if ← Draw.chance p then Step.draw
  else return s

/-- What a step is replaced by with the given chance. -/
def drawReplacement (p : Binary64) : Draw σ (Option Step) := do
  if ← Draw.chance p then return some (← Step.draw)
  else return none

/-- One new step with the given chance. -/
def drawInsertion (p : Binary64) : Draw σ (List Step) := do
  if ← Draw.chance p then return [← Step.draw]
  else return []

def substituteEach (p : Binary64) : List Step → Draw σ (List Step)
  | [] => return []
  | s :: rest => do
    let s' ← drawSubstitute p s
    return s' :: (← substituteEach p rest)

def leaveOutEach (p : Binary64) : List Step → Draw σ (List Step)
  | [] => return []
  | s :: rest => do
    let hit ← Draw.chance p
    let kept ← leaveOutEach p rest
    return if hit then kept else s :: kept

def insertBeforeEach (p : Binary64) : List Step → Draw σ (List Step)
  | [] => drawInsertion p
  | s :: rest => do
    let new ← drawInsertion p
    return new ++ s :: (← insertBeforeEach p rest)

/-! ### Edits in place -/

section InPlace

variable (p : Binary64) (done rest : List Step) (s : Step)

theorem insertIdx_done (t : Step) : (done ++ rest).insertIdx done.length t = done ++ t :: rest := by
  induction done with
  | nil => simp
  | cons d done ih => simp [ih]

theorem randomiseAt_done :
    (randomiseAt p ⟨done ++ s :: rest⟩ done.length : Draw σ Chromosome) =
      do return ⟨(done ++ [← drawSubstitute p s]) ++ rest⟩ := by
  unfold randomiseAt drawSubstitute
  rw [bind_assoc]
  refine bind_congr fun hit => ?_
  cases hit with
  | true => simp [replaceAt]
  | false => simp

theorem deleteAt_done (removed : Nat) :
    (deleteAt p (⟨done ++ s :: rest⟩, removed) (done.length + removed) : Draw σ (Chromosome × Nat)) =
      do
        let hit ← Draw.chance p
        return if hit then (⟨done ++ rest⟩, removed + 1) else (⟨(done ++ [s]) ++ rest⟩, removed) := by
  unfold deleteAt
  refine bind_congr fun hit => ?_
  cases hit with
  | true => simp [eraseAt, List.eraseIdx_append_of_length_le]
  | false => simp

theorem addAt_done {i added : Nat} (hplace : i + added = done.length) :
    (addAt p (⟨done ++ rest⟩, added) i : Draw σ (Chromosome × Nat)) = do
      let new ← drawInsertion p
      return (⟨(done ++ new) ++ rest⟩, added + new.length) := by
  unfold addAt drawInsertion
  rw [bind_assoc]
  refine bind_congr fun hit => ?_
  cases hit with
  | true =>
    have hend : min done.length (done ++ rest).length = done.length := by
      rw [List.length_append]
      omega
    simp [hplace, insertAt, length, insertIdx_done]
  | false => simp

end InPlace

/-! ### Folds of edits are passes

The steps before the place at hand are done, in the form that the child has them in; the steps from
there on are those of the parent. -/

theorem foldlM_randomiseAt (p : Binary64) (done rest : List Step) :
    ((List.range' done.length rest.length).foldlM (randomiseAt p) ⟨done ++ rest⟩ :
      Draw σ Chromosome) = do return ⟨done ++ (← substituteEach p rest)⟩ := by
  induction rest generalizing done with
  | nil => simp [substituteEach]
  | cons s rest ih =>
    rw [List.length_cons, List.range'_succ, List.foldlM_cons, randomiseAt_done, substituteEach]
    simp only [bind_assoc, pure_bind]
    refine bind_congr fun s' => ?_
    have hnext := ih (done ++ [s'])
    rw [List.length_append, List.length_singleton] at hnext
    rw [hnext]
    simp

theorem foldlM_deleteAt (p : Binary64) (done rest : List Step) (removed : Nat) :
    (do return (← (List.range' (done.length + removed) rest.length).foldlM (deleteAt p)
      (⟨done ++ rest⟩, removed)).1 : Draw σ Chromosome) =
      do return ⟨done ++ (← leaveOutEach p rest)⟩ := by
  induction rest generalizing done removed with
  | nil => simp [leaveOutEach]
  | cons s rest ih =>
    rw [List.length_cons, List.range'_succ, List.foldlM_cons, deleteAt_done, leaveOutEach]
    simp only [bind_assoc, pure_bind]
    refine bind_congr fun hit => ?_
    cases hit with
    | true =>
      have hnext := ih done (removed + 1)
      rw [← Nat.add_assoc] at hnext
      simp only [if_true]
      exact hnext
    | false =>
      have hnext := ih (done ++ [s]) removed
      rw [List.length_append, List.length_singleton, Nat.add_right_comm] at hnext
      simp only [Bool.false_eq_true, if_false]
      rw [hnext]
      simp

theorem foldlM_addAt (p : Binary64) (done rest : List Step) {i added : Nat}
    (hplace : i + added = done.length) :
    (do return (← (List.range' i (rest.length + 1)).foldlM (addAt p)
      (⟨done ++ rest⟩, added)).1 : Draw σ Chromosome) =
      do return ⟨done ++ (← insertBeforeEach p rest)⟩ := by
  induction rest generalizing done i added with
  | nil =>
    rw [List.range'_succ, List.foldlM_cons, addAt_done p done [] hplace, insertBeforeEach]
    simp
  | cons s rest ih =>
    rw [List.length_cons, List.range'_succ, List.foldlM_cons, addAt_done p done (s :: rest) hplace,
      insertBeforeEach]
    simp only [bind_assoc, pure_bind]
    refine bind_congr fun new => ?_
    have hnextPlace : i + 1 + (added + new.length) = (done ++ new ++ [s]).length := by
      simp only [List.length_append, List.length_singleton]
      omega
    have hnext := ih (done ++ new ++ [s]) hnextPlace
    simp only [List.append_assoc, List.singleton_append] at hnext ⊢
    rw [hnext]

theorem randomiseSteps_eq (c : Chromosome) (p : Binary64) :
    (c.randomiseSteps p : Draw σ Chromosome) = do return ⟨← substituteEach p c.steps⟩ := by
  unfold randomiseSteps
  rw [List.range_eq_range']
  exact foldlM_randomiseAt p [] c.steps

theorem deleteSteps_eq (c : Chromosome) (p : Binary64) :
    (c.deleteSteps p : Draw σ Chromosome) = do return ⟨← leaveOutEach p c.steps⟩ := by
  unfold deleteSteps
  rw [List.range_eq_range']
  exact foldlM_deleteAt p [] c.steps 0

theorem addSteps_eq (c : Chromosome) (p : Binary64) :
    (c.addSteps p : Draw σ Chromosome) = do return ⟨← insertBeforeEach p c.steps⟩ := by
  unfold addSteps
  rw [List.range_eq_range']
  exact foldlM_addAt p [] c.steps rfl

/-! ### Passes and their draws -/

/-- The steps, each with its replacement in its place if there is one. -/
def overlay (replacements : List (Option Step)) (steps : List Step) : List Step :=
  List.zipWith (fun replacement s => replacement.getD s) replacements steps

/-- The steps whose chance was missed, in order. -/
def missed (hits : List Bool) (steps : List Step) : List Step :=
  ((hits.zip steps).filter fun (hit, _) => !hit).map Prod.snd

/-- The steps with what is new before each of them and behind the last one:
`new₀ ++ [s₀] ++ new₁ ++ [s₁] ++ … ++ newₙ`. -/
def interleave : List (List Step) → List Step → List Step
  | [], steps => steps
  | news, [] => news.flatten
  | new :: news, s :: steps => new ++ s :: interleave news steps

section Overlay

variable {replacements : List (Option Step)} {steps : List Step} {i : Nat}
  (hlength : replacements.length = steps.length)
include hlength

theorem length_overlay : (overlay replacements steps).length = steps.length := by
  unfold overlay
  rw [List.length_zipWith, hlength, Nat.min_self]

theorem getElem?_overlay {replacement : Option Step} (h : replacements[i]? = some replacement) :
    ∃ s, steps[i]? = some s ∧ (overlay replacements steps)[i]? = some (replacement.getD s) := by
  obtain ⟨hi, -⟩ := List.getElem?_eq_some_iff.mp h
  have hstep : steps[i]? = some steps[i] := List.getElem?_eq_getElem (hlength ▸ hi)
  refine ⟨steps[i], hstep, ?_⟩
  unfold overlay
  rw [List.getElem?_zipWith, h, hstep]

end Overlay

theorem missed_cons (hit : Bool) (hits : List Bool) (s : Step) (steps : List Step) :
    missed (hit :: hits) (s :: steps) = if hit then missed hits steps else s :: missed hits steps := by
  cases hit with
  | true => rfl
  | false => rfl

theorem missed_sublist (hits : List Bool) (steps : List Step) :
    (missed hits steps).Sublist steps := by
  induction steps generalizing hits with
  | nil => simp [missed]
  | cons s steps ih =>
    cases hits with
    | nil => exact List.nil_sublist _
    | cons hit hits =>
      rw [missed_cons]
      cases hit with
      | true => exact (ih hits).cons s
      | false => exact (ih hits).cons_cons s

theorem length_missed {hits : List Bool} {steps : List Step} (h : hits.length = steps.length) :
    (missed hits steps).length + hits.count true = steps.length := by
  induction steps generalizing hits with
  | nil => simp [missed, List.length_eq_zero_iff.mp h]
  | cons s steps ih =>
    obtain ⟨hit, hits, rfl⟩ := List.exists_cons_of_length_eq_add_one h
    have hrest := ih (Nat.succ.inj h)
    rw [missed_cons, List.length_cons]
    cases hit with
    | true =>
      rw [if_pos rfl, List.count_cons_self]
      omega
    | false =>
      rw [if_neg Bool.false_ne_true, List.count_cons_of_ne Bool.false_ne_true, List.length_cons]
      omega

theorem interleave_sublist (news : List (List Step)) (steps : List Step) :
    steps.Sublist (interleave news steps) := by
  fun_induction interleave news steps with
  | case1 steps => exact .refl steps
  | case2 news => exact List.nil_sublist _
  | case3 new news s steps ih =>
    exact (ih.cons_cons s).trans (List.sublist_append_right new _)

theorem length_interleave (news : List (List Step)) (steps : List Step) :
    (interleave news steps).length = steps.length + news.flatten.length := by
  fun_induction interleave news steps with
  | case1 steps => simp
  | case2 news => simp
  | case3 new news s steps ih =>
    simp only [List.length_append, List.length_cons, List.flatten_cons, ih]
    omega

theorem length_flatten_le {news : List (List Step)} (h : ∀ new ∈ news, new = [] ∨ ∃ s, new = [s]) :
    news.flatten.length ≤ news.length := by
  induction news with
  | nil => exact Nat.le_refl 0
  | cons new news ih =>
    obtain ⟨hnew, hnews⟩ := List.forall_mem_cons.mp h
    have hle := ih hnews
    rw [List.flatten_cons, List.length_append, List.length_cons]
    rcases hnew with rfl | ⟨s, rfl⟩
    · rw [List.length_nil]
      omega
    · rw [List.length_singleton]
      omega

theorem length_interleave_le {news : List (List Step)} {steps : List Step}
    (hcount : news.length = steps.length + 1) (h : ∀ new ∈ news, new = [] ∨ ∃ s, new = [s]) :
    (interleave news steps).length ≤ 2 * steps.length + 1 := by
  have hle := length_flatten_le h
  rw [length_interleave]
  omega

theorem drawSubstitute_eq (p : Binary64) (s : Step) :
    (drawSubstitute p s : Draw σ Step) = do return (← drawReplacement p).getD s := by
  unfold drawSubstitute drawReplacement
  rw [bind_assoc]
  refine bind_congr fun hit => ?_
  cases hit with
  | true => simp
  | false => simp

theorem substituteEach_eq (p : Binary64) (steps : List Step) :
    (substituteEach p steps : Draw σ (List Step)) =
      do return overlay (← Draw.times steps.length (drawReplacement p)) steps := by
  induction steps with
  | nil => simp [substituteEach, Draw.times, overlay]
  | cons s steps ih =>
    rw [substituteEach, List.length_cons, Draw.times, drawSubstitute_eq, ih]
    simp only [bind_assoc, pure_bind, overlay, List.zipWith_cons_cons]

theorem leaveOutEach_eq (p : Binary64) (steps : List Step) :
    (leaveOutEach p steps : Draw σ (List Step)) =
      do return missed (← Draw.times steps.length (Draw.chance p)) steps := by
  induction steps with
  | nil => simp [leaveOutEach, Draw.times, missed]
  | cons s steps ih =>
    rw [leaveOutEach, List.length_cons, Draw.times, ih]
    simp only [bind_assoc, pure_bind, missed_cons]

theorem insertBeforeEach_eq (p : Binary64) (steps : List Step) :
    (insertBeforeEach p steps : Draw σ (List Step)) =
      do return interleave (← Draw.times (steps.length + 1) (drawInsertion p)) steps := by
  induction steps with
  | nil => simp [insertBeforeEach, Draw.times, interleave]
  | cons s steps ih =>
    rw [insertBeforeEach, List.length_cons, Draw.times, ih]
    simp only [bind_assoc, pure_bind, interleave]

theorem randomiseSteps_eq_overlay (c : Chromosome) (p : Binary64) :
    (c.randomiseSteps p : Draw σ Chromosome) =
      do return ⟨overlay (← Draw.times c.length (drawReplacement p)) c.steps⟩ := by
  rw [randomiseSteps_eq, substituteEach_eq]
  simp only [bind_assoc, pure_bind, length]

theorem deleteSteps_eq_missed (c : Chromosome) (p : Binary64) :
    (c.deleteSteps p : Draw σ Chromosome) =
      do return ⟨missed (← Draw.times c.length (Draw.chance p)) c.steps⟩ := by
  rw [deleteSteps_eq, leaveOutEach_eq]
  simp only [bind_assoc, pure_bind, length]

theorem addSteps_eq_interleave (c : Chromosome) (p : Binary64) :
    (c.addSteps p : Draw σ Chromosome) =
      do return ⟨interleave (← Draw.times (c.length + 1) (drawInsertion p)) c.steps⟩ := by
  rw [addSteps_eq, insertBeforeEach_eq]
  simp only [bind_assoc, pure_bind, length]

/-! ### What a child has of its parents -/

section Children

variable {p : Binary64} {g g' : σ}

theorem drawInsertion_ok {new : List Step} (h : outcome (drawInsertion p) g = (.ok new, g')) :
    new = [] ∨ ∃ s, new = [s] := by
  obtain ⟨hit, m, -, h⟩ := bind_ok h
  cases hit with
  | true =>
    obtain ⟨s, m', -, h⟩ := bind_ok h
    obtain ⟨rfl, -⟩ := pure_ok h
    exact .inr ⟨s, rfl⟩
  | false =>
    obtain ⟨rfl, -⟩ := pure_ok h
    exact .inl rfl

theorem randomiseSteps_ok {c child : Chromosome}
    (h : outcome (c.randomiseSteps p) g = (.ok child, g')) : child.length = c.length := by
  simp only [randomiseSteps_eq_overlay] at h
  obtain ⟨replacements, m, hreplacements, h⟩ := bind_ok h
  obtain ⟨rfl, -⟩ := pure_ok h
  exact length_overlay (Draw.times_length hreplacements)

theorem deleteSteps_ok {c child : Chromosome}
    (h : outcome (c.deleteSteps p) g = (.ok child, g')) : child.steps.Sublist c.steps := by
  simp only [deleteSteps_eq_missed] at h
  obtain ⟨hits, m, -, h⟩ := bind_ok h
  obtain ⟨rfl, -⟩ := pure_ok h
  exact missed_sublist hits c.steps

theorem addSteps_ok {c child : Chromosome} (h : outcome (c.addSteps p) g = (.ok child, g')) :
    c.steps.Sublist child.steps ∧ child.length ≤ 2 * c.length + 1 := by
  simp only [addSteps_eq_interleave] at h
  obtain ⟨news, m, hnews, h⟩ := bind_ok h
  obtain ⟨rfl, -⟩ := pure_ok h
  have hcount := Draw.times_length hnews
  have hsingle := Draw.times_forall (fun _ _ _ => drawInsertion_ok) hnews
  exact ⟨interleave_sublist news c.steps, length_interleave_le hcount hsingle⟩

end Children

theorem length_spliceAt {a b : Chromosome} {point : Nat} (ha : point ≤ a.length)
    (hb : point ≤ b.length) : (a.spliceAt b point).length = b.length := by
  unfold spliceAt length at *
  rw [List.length_append, List.length_take, List.length_drop]
  omega

theorem crossover_ok {a b child : Chromosome} {g g' : σ}
    (h : outcome (a.crossover b) g = (.ok child, g')) :
    ∃ point, (0 < min a.length b.length → 1 ≤ point) ∧ point ≤ a.length ∧ point ≤ b.length ∧
      child = a.spliceAt b point := by
  obtain ⟨point, m, hpoint, h⟩ := bind_ok h
  obtain ⟨rfl, -⟩ := pure_ok h
  obtain ⟨hge, hle⟩ := Draw.inclusive_mem hpoint
  refine ⟨point, fun hshorter => ?_, Nat.le_trans hle (Nat.min_le_left _ _),
    Nat.le_trans hle (Nat.min_le_right _ _), rfl⟩
  rw [if_pos hshorter] at hge
  exact hge

end Chromosome

/-! ### The three mutations -/

/-- What the child of a mutation has of its parent. -/
def Mutation.Yields (parent child : Chromosome) : Mutation → Prop
  | randomisation => child.length = parent.length
  | deletion => child.steps.Sublist parent.steps
  | addition => parent.steps.Sublist child.steps ∧ child.length ≤ 2 * parent.length + 1

theorem Mutation.Yields.length_le {kind : Mutation} {parent child : Chromosome}
    (h : kind.Yields parent child) : child.length ≤ 2 * parent.length + 1 := by
  cases kind with
  | randomisation =>
    have hlength : child.length = parent.length := h
    omega
  | deletion =>
    have hlength : child.length ≤ parent.length := List.Sublist.length_le h
    omega
  | addition => exact h.2

theorem Gewep.mutate_ok {w : Gewep} {parent child : Chromosome} {g g' : σ}
    (h : outcome (w.mutate parent) g = (.ok child, g')) :
    ∃ kind m, outcome w.chooseMutation g = (.ok kind, m) ∧ kind.Yields parent child := by
  obtain ⟨kind, m, hkind, h⟩ := bind_ok h
  refine ⟨kind, m, hkind, ?_⟩
  cases kind with
  | randomisation => exact Chromosome.randomiseSteps_ok h
  | deletion => exact Chromosome.deleteSteps_ok h
  | addition => exact Chromosome.addSteps_ok h

end StepSearch
