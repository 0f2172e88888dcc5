import StepSearch.Proofs.Rounds

/-!
# Lengths in the random search

The random strategy keeps some individuals and draws all others, and repeated chromosomes are replaced
by drawn ones. So a chromosome of a later generation has a length between the bounds, or it has been
there from the start.
-/

namespace StepSearch

/-- Whether the length of the chromosome lies between the bounds. -/
def Individual.LengthWithin (least greatest : Nat) (i : Individual) : Prop :=
  least ≤ i.chromosome.length ∧ i.chromosome.length ≤ greatest

/-- Whether everybody in `q` has a length between the bounds or is one of `p`. -/
def Population.Renews (least greatest : Nat) (p q : Population) : Prop :=
  ∀ i ∈ q.individuals, i.LengthWithin least greatest ∨ i ∈ p.individuals

namespace Population.Renews

variable {least greatest : Nat} {p q r : Population}

theorem refl (p : Population) : p.Renews least greatest p := fun _ hi => .inr hi

theorem trans (hpq : p.Renews least greatest q) (hqr : q.Renews least greatest r) :
    p.Renews least greatest r := by
  intro i hi
  rcases hqr i hi with hlength | hi
  · exact .inl hlength
  · exact hpq i hi

theorem lengthWithin (h : p.Renews least greatest q)
    (hp : ∀ i ∈ p.individuals, i.LengthWithin least greatest) :
    ∀ i ∈ q.individuals, i.LengthWithin least greatest := by
  intro i hi
  rcases h i hi with hlength | hi
  · exact hlength
  · exact hp i hi

end Population.Renews

variable {σ : Type} [WordSource σ]

/-! ### What is drawn -/

theorem Chromosome.draw_length {least greatest : Nat} {g g' : σ} {c : Chromosome}
    (h : outcome (draw least greatest) g = (.ok c, g')) : least ≤ c.length ∧ c.length ≤ greatest := by
  unfold draw at h
  split at h
  · cases h
  · obtain ⟨length, m, hlength, h⟩ := bind_ok h
    obtain ⟨steps, m', hsteps, h⟩ := bind_ok h
    obtain ⟨rfl, -⟩ := pure_ok h
    have hcount : steps.length = length := Draw.times_length hsteps
    rw [Chromosome.length, hcount]
    exact Draw.inclusive_mem hlength

theorem Individual.draw_lengthWithin {metric : Metric} {least greatest : Nat} {g g' : σ}
    {i : Individual} (h : outcome (draw metric least greatest) g = (.ok i, g')) :
    i.LengthWithin least greatest := by
  obtain ⟨c, m, hc, h⟩ := bind_ok h
  obtain ⟨rfl, -⟩ := pure_ok h
  exact Chromosome.draw_length hc

theorem Population.draw_lengthWithin {metric : Metric} {size least greatest : Nat} {g g' : σ}
    {p : Population} (h : outcome (draw metric size least greatest) g = (.ok p, g')) :
    ∀ i ∈ p.individuals, i.LengthWithin least greatest := by
  obtain ⟨individuals, m, hindividuals, h⟩ := bind_ok h
  obtain ⟨rfl, -⟩ := pure_ok h
  exact Draw.times_forall (fun _ _ _ => Individual.draw_lengthWithin) hindividuals

theorem Population.randomiseDuplicates_renews {p q : Population} {least greatest : Nat} {g g' : σ}
    (h : outcome (p.randomiseDuplicates least greatest) g = (.ok q, g')) :
    p.Renews least greatest q := by
  obtain ⟨-, -, -, horigin⟩ :=
    randomiseDuplicates_ok (fun _ _ _ => Individual.draw_lengthWithin) h
  exact fun i hi => (horigin i hi).symm

/-! ### One generation -/

theorem RandomElitist.advance_renews {r : RandomElitist} {p q : Population} {g g' : σ}
    (h : outcome (r.advance p) g = (.ok q, g')) :
    p.Renews r.options.leastLength r.options.greatestLength q := by
  unfold advance at h
  split at h
  · cases h
  · obtain ⟨others, m, hothers, h⟩ := bind_ok (ofDraw_ok h)
    obtain ⟨rfl, -⟩ := pure_ok h
    have hdrawn := Population.draw_lengthWithin hothers
    intro i hi
    rcases List.mem_append.mp hi with hi | hi
    · exact .inr (Population.mem_ranked.mp (List.mem_of_mem_take hi))
    · exact .inl (hdrawn i hi)

namespace Run

theorem offspring_renews {r : RandomElitist} {bounds : Option (Nat × Nat)}
    (hbounds : ∀ range, bounds = some range →
      range = (r.options.leastLength, r.options.greatestLength))
    {p q : Population} {g g' : σ}
    (h : outcome (offspring (Strategy.random r).toAlgorithm bounds p) g = (.ok q, g')) :
    p.Renews r.options.leastLength r.options.greatestLength q := by
  obtain ⟨next, m, hnext, h⟩ := bind_ok h
  have hrenews := RandomElitist.advance_renews hnext
  cases bounds with
  | none =>
    obtain ⟨rfl, -⟩ := pure_ok h
    exact hrenews
  | some range =>
    cases hbounds range rfl
    exact hrenews.trans (Population.randomiseDuplicates_renews (ofDraw_ok h))

/-! ### Whole runs -/

theorem duplicateBounds_of_same {r : RandomElitist} {options : RunOptions}
    (h : options.randomiseDuplicates = true →
      options.leastLength = some r.options.leastLength ∧
      options.greatestLength = some r.options.greatestLength) :
    ∃ bounds, options.duplicateBounds = .ok bounds ∧ ∀ range, bounds = some range →
      range = (r.options.leastLength, r.options.greatestLength) := by
  unfold RunOptions.duplicateBounds
  by_cases hduplicates : options.randomiseDuplicates = true
  · obtain ⟨hleast, hgreatest⟩ := h hduplicates
    obtain ⟨-, hlengths⟩ := RandomOptions.validate_ok r.valid
    rw [if_pos hduplicates, hleast, hgreatest]
    refine ⟨some (r.options.leastLength, r.options.greatestLength), if_pos hlengths, ?_⟩
    rintro range ⟨⟩
    rfl
  · refine ⟨none, if_neg hduplicates, ?_⟩
    rintro range ⟨⟩

/-- The random search keeps to its lengths.

Whatever words are drawn and however the run ends, everybody in a later generation, or in the
population at the end, has a length between the bounds of the strategy or was there at the start. If
all lengths are between the bounds at the start, they are so forever. -/
theorem random_search_keeps_its_lengths {r : RandomElitist} {options : RunOptions} {allotment : Nat}
    {start final : State σ} {result : Except Failure (Option Progress)}
    (hduplicates : options.randomiseDuplicates = true →
      options.leastLength = some r.options.leastLength ∧
      options.greatestLength = some r.options.greatestLength)
    (hrun : outcome (execute (Strategy.random r).toAlgorithm options allotment) start =
      (result, final)) :
    ∃ bounds, options.duplicateBounds = .ok bounds ∧ ∀ p,
      (p = final.population ∨ ∃ k, generation? (Strategy.random r).toAlgorithm bounds
        options.autosave start k = some p) →
      (∀ i ∈ p.individuals, i.LengthWithin r.options.leastLength r.options.greatestLength ∨
        i ∈ start.population.individuals) ∧
      ((∀ i ∈ start.population.individuals,
          i.LengthWithin r.options.leastLength r.options.greatestLength) →
        ∀ i ∈ p.individuals, i.LengthWithin r.options.leastLength r.options.greatestLength) := by
  obtain ⟨bounds, hbounds, hsame⟩ := duplicateBounds_of_same hduplicates
  have step : ∀ p q (g g' : σ),
      start.population.Renews r.options.leastLength r.options.greatestLength p →
      outcome (offspring (Strategy.random r).toAlgorithm bounds p) g = (.ok q, g') →
      start.population.Renews r.options.leastLength r.options.greatestLength q :=
    fun p q g g' hp hq => hp.trans (offspring_renews hsame hq)
  refine ⟨bounds, hbounds, fun p hp => ?_⟩
  have hrenews : start.population.Renews r.options.leastLength r.options.greatestLength p := by
    rcases hp with rfl | ⟨k, hk⟩
    · exact execute_invariant _ hbounds step hrun (.refl _)
    · exact generation?_induction _ step hk (.refl _)
  exact ⟨hrenews, hrenews.lengthWithin⟩

/-- One individual of four survives, and chromosomes are drawn with one step or two. -/
def smallRandom : RandomElitist :=
  ⟨.forPopulation 4 1 2, Except.eq_ok_of_isOk (by decide +kernel)⟩

theorem small_random_search_keeps_its_lengths : ∃ summary final,
    outcome (execute (Strategy.random smallRandom).toAlgorithm (smallOptions none) 0) smallStart =
      (.ok (some summary), final) ∧
    ∀ i ∈ final.population.individuals, i.LengthWithin 1 2 := by
  obtain ⟨summary, final, hrun⟩ :=
    smallStart_execute none (fun _ h => by cases h) (Strategy.random smallRandom)
  obtain ⟨bounds, -, hlengths⟩ :=
    random_search_keeps_its_lengths (fun _ => ⟨rfl, rfl⟩) hrun
  have hstart : ∀ i ∈ smallStart.population.individuals, i.LengthWithin 1 2 := by
    unfold Individual.LengthWithin
    decide
  exact ⟨summary, final, hrun, (hlengths _ (.inl rfl)).2 hstart⟩

end Run

end StepSearch
