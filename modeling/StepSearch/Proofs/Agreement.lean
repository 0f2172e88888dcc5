import StepSearch.Proofs.PopulationFiles
import StepSearch.Proofs.Rescaling
import StepSearch.Proofs.Rounds

/-!
# Runs that agree

Two runs with the same chromosomes, costs in the same order and the same generator take the same
course as long as nothing outside interferes, that is, no report is refused and no file operation
fails. Where they write to, what they wrote before, whether they save their populations and by which
key their metric goes makes no difference.
-/

namespace StepSearch

/-- The same options with another population file, or none. -/
def RunOptions.saving (o : RunOptions) (path : Option String) : RunOptions :=
  { o with autosave := path }

/-! ### Interference -/

/-- Whether a failure comes from outside: a report was refused, or a file operation failed. -/
def Failure.IsExternal : Failure → Prop
  | .error (.report _) | .error (.fileAccess _ _) => True
  | _ => False

variable {σ : Type}

namespace Run

/-- Whether no report was refused and no file operation failed. -/
def Undisturbed {α : Type} (result : Except Failure α) : Prop :=
  ∀ failure, result = .error failure → ¬ failure.IsExternal

theorem Undisturbed.ok {α : Type} (a : α) : Undisturbed (.ok a : Except Failure α) :=
  fun _ h => by cases h

theorem Undisturbed.error {α : Type} {failure : Failure} (h : ¬ failure.IsExternal) :
    Undisturbed (.error failure : Except Failure α) := by
  rintro _ ⟨⟩
  exact h

theorem Undisturbed.map {α β : Type} {result : Except Failure α} (h : Undisturbed result)
    (f : α → β) : Undisturbed (result.map f) := by
  intro failure hfailure
  cases result with
  | error cause =>
    cases hfailure
    exact h failure rfl
  | ok a => cases hfailure

theorem Undisturbed.of_map {α β : Type} {f : α → β} {result : Except Failure α}
    (h : Undisturbed (result.map f)) : Undisturbed result := by
  intro failure hfailure
  apply h failure
  rw [hfailure]
  rfl

theorem Undisturbed.of_bind {α β : Type} {x : Run σ α} {f : α → Run σ β} {s : State σ}
    (h : Undisturbed (outcome (x >>= f) s).1) : Undisturbed (outcome x s).1 := by
  intro failure hfailure
  apply h failure
  rw [outcome_bind]
  rcases hx : outcome x s with ⟨result, t⟩
  rw [hx] at hfailure
  cases hfailure
  rfl

end Run

/-! ### The same point of two runs -/

namespace Run

/-- Whether two runs have come to the same point: the same individuals in the same order, metrics
that evaluate alike, and the same generator. -/
structure State.Agrees (s t : State σ) : Prop where
  individuals : t.population.individuals = s.population.individuals
  evaluate : t.population.metric.evaluate = s.population.metric.evaluate
  generator : t.bench.generator = s.bench.generator

theorem State.Agrees.symm {s t : State σ} (h : s.Agrees t) : t.Agrees s :=
  ⟨h.individuals.symm, h.evaluate.symm, h.generator.symm⟩

theorem State.Agrees.trans {s t u : State σ} (h : s.Agrees t) (h' : t.Agrees u) : s.Agrees u :=
  ⟨h'.individuals.trans h.individuals, h'.evaluate.trans h.evaluate,
    h'.generator.trans h.generator⟩

/-- Whether a second run has come to the same point as a first one but for the costs: the same
chromosomes in the same order, every cost replaced by what `f` makes of it, and the same generator. -/
structure State.Mirrors (f : Nat → Nat) (s t : State σ) : Prop where
  individuals : t.population.individuals = s.population.individuals.map (Individual.rescale f)
  evaluate : t.population.metric.evaluate = f ∘ s.population.metric.evaluate
  generator : t.bench.generator = s.bench.generator

theorem State.Mirrors.population_eq {f : Nat → Nat} {s t : State σ} (h : s.Mirrors f t) :
    t.population = s.population.rescaled f t.population.metric := by
  rw [Population.rescaled, ← h.individuals]

theorem State.mirrors_id_iff {s t : State σ} : s.Mirrors id t ↔ s.Agrees t := by
  constructor
  · intro h
    refine ⟨?_, h.evaluate, h.generator⟩
    rw [h.individuals, Individual.rescale_id, List.map_id]
  · intro h
    refine ⟨?_, h.evaluate, h.generator⟩
    rw [h.individuals, Individual.rescale_id, List.map_id]

variable [WordSource σ]

/-! ### Where interference comes from -/

/-- The making of a generation touches nothing outside, so it cannot be disturbed. -/
theorem offspring_undisturbed (s : Strategy) (bounds : Option (Nat × Nat)) (p : Population)
    (g : σ) : Undisturbed (outcome (offspring s.toAlgorithm bounds p) g).1 := by
  have hmisuse : ∀ (draw : Draw σ Population) g,
      Undisturbed (outcome (Search.ofDraw draw) g).1 := by
    intro draw g failure hfailure
    obtain ⟨misuse, rfl⟩ := ofDraw_error (Prod.ext hfailure rfl)
    simp [Failure.IsExternal]
  have hadvance : Undisturbed (outcome (s.advance p) g).1 := by
    cases s with
    | random r =>
      simp only [Strategy.advance, RandomElitist.advance]
      split
      · exact Undisturbed.error (by simp [Failure.IsExternal])
      · exact hmisuse _ g
    | gewep w =>
      simp only [Strategy.advance, Gewep.advance]
      split
      · exact Undisturbed.error (by simp [Failure.IsExternal])
      · exact hmisuse _ g
  unfold offspring
  rw [outcome_bind]
  simp only [Strategy.toAlgorithm]
  rcases hnext : outcome (s.advance p) g with ⟨failure | next, g'⟩
  · rw [hnext] at hadvance
    intro failure' hfailure
    exact hadvance failure' hfailure
  · cases bounds with
    | none => exact Undisturbed.ok next
    | some range => exact hmisuse _ g'

/-- A run that saves nothing and whose output has no limit is not disturbed. -/
theorem rounds_undisturbed (strategy : Strategy) (bounds : Option (Nat × Nat)) (n : Nat)
    (progress : Progress) {s : State σ} (hout : s.bench.output.capacity = none) :
    Undisturbed (outcome (rounds strategy.toAlgorithm bounds none n progress) s).1 := by
  induction n generalizing progress s with
  | zero => exact Undisturbed.ok progress
  | succ n ih =>
    rw [rounds_succ, outcome_bind]
    have hround := round_outcome strategy.toAlgorithm bounds none progress s
    rcases hresult : outcome (round strategy.toAlgorithm bounds none progress) s with ⟨result, t⟩
    simp only [hresult] at hround
    cases hround with
    | unreported houtput => simp [Sink.write, hout] at houtput
    | childless _ hoffspring =>
      intro failure hfailure
      refine offspring_undisturbed strategy bounds s.population s.bench.generator failure ?_
      cases hfailure
      rw [hoffspring]
    | unsaved _ _ hpath => cases hpath
    | completed houtput =>
      -- The output of the next round has no limit either.
      refine ih _ ?_
      have hwritten : t.bench.output = (s.bench.output.write
          (reportText (progress.rounds + 1) s.population)).2 := by rw [houtput]
      rw [hwritten]
      simp [Sink.write, hout]

theorem execute_undisturbed (strategy : Strategy) (options : RunOptions)
    (hsave : options.autosave = none) (allotment : Nat) {s : State σ}
    (hout : s.bench.output.capacity = none) :
    Undisturbed (outcome (execute strategy.toAlgorithm options allotment) s).1 := by
  cases hbounds : options.duplicateBounds with
  | error fault =>
    rw [execute_of_fault hbounds]
    exact Undisturbed.error (by simp [Failure.IsExternal])
  | ok bounds =>
    obtain ⟨journal, hexecute⟩ :=
      execute_eq_rounds strategy.toAlgorithm hbounds allotment s rfl
    rw [hexecute, hsave]
    exact (rounds_undisturbed strategy bounds _ {} hout).map _

/-! ### Rounds that mirror each other -/

/-- Without disturbance a round only makes the next generation and puts it in place. -/
theorem round_undisturbed {algorithm : Algorithm σ} {bounds : Option (Nat × Nat)}
    {path : Option String} {progress : Progress} {s : State σ}
    (h : Undisturbed (outcome (round algorithm bounds path progress) s).1) :
    ∃ t, outcome (round algorithm bounds path progress) s =
        ((outcome (offspring algorithm bounds s.population) s.bench.generator).1.map progress.next,
          t) ∧
      t.bench.generator =
        (outcome (offspring algorithm bounds s.population) s.bench.generator).2 ∧
      t.population = (outcome (offspring algorithm bounds s.population)
        s.bench.generator).1.toOption.getD s.population := by
  have hround := round_outcome algorithm bounds path progress s
  rcases hresult : outcome (round algorithm bounds path progress) s with ⟨result, t⟩
  simp only [hresult] at h hround
  refine ⟨t, ?_⟩
  cases hround with
  | unreported => exact absurd trivial (h _ rfl)
  | childless _ hoffspring hpopulation =>
    rw [hoffspring]
    exact ⟨rfl, rfl, hpopulation⟩
  | unsaved _ _ _ hfiles =>
    obtain ⟨file, fault, rfl⟩ := FileStore.writeChromosomes_error hfiles
    exact absurd trivial (h _ rfl)
  | completed _ hoffspring =>
    rw [hoffspring]
    exact ⟨rfl, rfl, rfl⟩

/-- Whether two results are the same failure, or values that are related. -/
inductive Matches {α β : Type} (R : α → β → Prop) : Except Failure α → Except Failure β → Prop where
  | error (failure : Failure) : Matches R (.error failure) (.error failure)
  | ok {a : α} {b : β} (related : R a b) : Matches R (.ok a) (.ok b)

theorem Matches.eq_map {α β : Type} {R : α → β → Prop} {g : α → β} {result : Except Failure α}
    {result' : Except Failure β} (h : Matches R result result') (hR : ∀ a b, R a b → b = g a) :
    result' = result.map g := by
  cases h with
  | error failure => rfl
  | ok hab =>
    rw [hR _ _ hab]
    rfl

section Mirroring

variable {f : Nat → Nat} {costs : Set Nat} {R : Progress → Progress → Prop} {s t : State σ}
  {strategy : Strategy} {bounds : Option (Nat × Nat)} {path path' : Option String} {a b : Progress}

theorem round_mirror
    (hnext : ∀ a b p metric, Population.CostsIn costs p → R a b →
      R (a.next p) (b.next (p.rescaled f metric)))
    (hf : StrictMonoOn f costs) (hst : s.Mirrors f t) (hcosts : s.population.CostsIn costs)
    (hab : R a b) (hs : Undisturbed (outcome (round strategy.toAlgorithm bounds path a) s).1)
    (ht : Undisturbed (outcome (round strategy.toAlgorithm bounds path' b) t).1) :
    (outcome (round strategy.toAlgorithm bounds path a) s).2.Mirrors f
        (outcome (round strategy.toAlgorithm bounds path' b) t).2 ∧
      Matches R (outcome (round strategy.toAlgorithm bounds path a) s).1
        (outcome (round strategy.toAlgorithm bounds path' b) t).1 := by
  obtain ⟨s', hs', hgenerator, hpopulation⟩ := round_undisturbed hs
  obtain ⟨t', ht', hgenerator', hpopulation'⟩ := round_undisturbed ht
  rw [hs', ht']
  -- Both rounds make the same generation, up to the costs.
  rw [hst.generator, hst.population_eq, offspring_rescaled strategy bounds hst.evaluate hf hcosts]
    at hgenerator' hpopulation' ⊢
  rcases hoffspring : outcome (offspring strategy.toAlgorithm bounds s.population)
    s.bench.generator with ⟨failure | q, g⟩
  · rw [hoffspring] at hgenerator hpopulation hgenerator' hpopulation'
    refine ⟨⟨?_, ?_, hgenerator'.trans hgenerator.symm⟩, .error failure⟩
    · rw [hpopulation', hpopulation]
      rfl
    · rw [hpopulation', hpopulation]
      exact hst.evaluate
  · have hdescends := offspring_ok hoffspring
    rw [hoffspring] at hgenerator hpopulation hgenerator' hpopulation'
    refine ⟨⟨?_, ?_, hgenerator'.trans hgenerator.symm⟩, .ok ?_⟩
    · rw [hpopulation', hpopulation]
      rfl
    · rw [hpopulation', hpopulation]
      show t.population.metric.evaluate = f ∘ q.metric.evaluate
      rw [hdescends.metric_eq]
      exact hst.evaluate
    · exact hnext a b q t.population.metric (hdescends.costsIn hcosts) hab

/-- Runs that mirror each other at the start do so after any number of rounds. -/
theorem rounds_mirror {n : Nat}
    (hnext : ∀ a b p metric, Population.CostsIn costs p → R a b →
      R (a.next p) (b.next (p.rescaled f metric)))
    (hf : StrictMonoOn f costs) (hst : s.Mirrors f t) (hcosts : s.population.CostsIn costs)
    (hab : R a b) (hs : Undisturbed (outcome (rounds strategy.toAlgorithm bounds path n a) s).1)
    (ht : Undisturbed (outcome (rounds strategy.toAlgorithm bounds path' n b) t).1) :
    (outcome (rounds strategy.toAlgorithm bounds path n a) s).2.Mirrors f
        (outcome (rounds strategy.toAlgorithm bounds path' n b) t).2 ∧
      Matches R (outcome (rounds strategy.toAlgorithm bounds path n a) s).1
        (outcome (rounds strategy.toAlgorithm bounds path' n b) t).1 := by
  induction n generalizing s t a b with
  | zero => exact ⟨hst, .ok hab⟩
  | succ n ih =>
    rw [rounds_succ] at hs ht ⊢
    rw [rounds_succ]
    obtain ⟨hmirrors, hmatches⟩ := round_mirror hnext hf hst hcosts hab hs.of_bind ht.of_bind
    rw [outcome_bind] at hs ht ⊢
    rw [outcome_bind]
    rcases hround : outcome (round strategy.toAlgorithm bounds path a) s with ⟨result, s'⟩
    rcases hround' : outcome (round strategy.toAlgorithm bounds path' b) t with ⟨result', t'⟩
    rw [hround, hround'] at hmirrors hmatches
    rw [hround] at hs
    rw [hround'] at ht
    cases hmatches with
    | error failure => exact ⟨hmirrors, .error failure⟩
    | ok hab' =>
      obtain ⟨hoffspring, -, -⟩ := round_ok hround
      exact ih hmirrors ((offspring_ok hoffspring).costsIn hcosts) hab' hs ht

end Mirroring

end Run

/-- The progress of a run that goes on after another one. -/
def Progress.followedBy (prior later : Progress) : Progress where
  rounds := prior.rounds + later.rounds
  bestFitness := prior.bestFitness.merge min later.bestFitness

theorem Progress.followedBy_next (prior later : Progress) (p : Population) :
    prior.followedBy (later.next p) = (prior.followedBy later).next p := by
  rcases prior with ⟨m, _ | least⟩ <;> rcases later with ⟨n, _ | least'⟩ <;>
    cases hbest : p.best? <;>
    simp [followedBy, next, hbest, Nat.add_assoc, Nat.min_assoc]

theorem Progress.next_rescaled_id (progress : Progress) (p : Population) (metric : Metric) :
    progress.next (p.rescaled id metric) = progress.next p := by
  have hbest := Population.best?_rescaled strictMonoOn_id p.costsIn_univ metric
  rw [Individual.rescale_id, Option.map_id] at hbest
  unfold next
  rw [hbest]
  rfl

theorem Progress.followedBy_start (prior : Progress) : prior.followedBy {} = prior := by
  rcases prior with ⟨m, _ | least⟩ <;> rfl

theorem Progress.start_followedBy (later : Progress) : followedBy {} later = later := by
  rcases later with ⟨n, _ | least⟩ <;> simp [followedBy]

namespace Run

variable [WordSource σ] {s t : State σ} {strategy : Strategy} {bounds : Option (Nat × Nat)}
  {path path' : Option String}

/-- Runs that agree at the start agree after any number of rounds, whatever was before. -/
theorem rounds_agree (prior progress : Progress) {n : Nat} (hst : s.Agrees t)
    (hs : Undisturbed (outcome (rounds strategy.toAlgorithm bounds path n progress) s).1)
    (ht : Undisturbed
      (outcome (rounds strategy.toAlgorithm bounds path' n (prior.followedBy progress)) t).1) :
    (outcome (rounds strategy.toAlgorithm bounds path n progress) s).2.Agrees
        (outcome (rounds strategy.toAlgorithm bounds path' n (prior.followedBy progress)) t).2 ∧
      (outcome (rounds strategy.toAlgorithm bounds path' n (prior.followedBy progress)) t).1 =
        (outcome (rounds strategy.toAlgorithm bounds path n progress) s).1.map
          prior.followedBy := by
  have hnext : ∀ a b p metric, Population.CostsIn Set.univ p → b = prior.followedBy a →
      b.next (p.rescaled id metric) = prior.followedBy (a.next p) := by
    intro a b p metric _ hb
    rw [hb, Progress.followedBy_next, Progress.next_rescaled_id]
  obtain ⟨hstate, hresult⟩ := rounds_mirror hnext strictMonoOn_id (State.mirrors_id_iff.mpr hst)
    s.population.costsIn_univ rfl hs ht
  exact ⟨State.mirrors_id_iff.mp hstate, hresult.eq_map fun _ _ h => h⟩

end Run

end StepSearch
