import StepSearch.Proofs.Agreement

/-!
# Reports and the saving of populations

What a run writes is the reports of its generations, one for each round, and nothing else. The
population file is no part of what a run computes: with it or without it the same generations are
made from the same words and reported in the same way, unless the file cannot be written.
-/

namespace StepSearch

/-! ### The text of a report -/

theorem foldl_append_eq_join {α : Type} (f : α → String) (text : String) (values : List α) :
    values.foldl (fun text a => text ++ f a) text = text ++ String.join (values.map f) := by
  induction values generalizing text with
  | nil => simp
  | cons a rest ih => rw [List.foldl_cons, ih, List.map_cons, String.join_cons, String.append_assoc]

theorem Population.toString_eq_join (p : Population) : p.toString =
    String.join (p.individuals.map fun i =>
      s!"Fitness: {i.fitness}, optimisations: {i.chromosome}\n") := by
  have hline : ∀ (text : String) (i : Individual), text ++ i.toString ++ "\n" =
      text ++ s!"Fitness: {i.fitness}, optimisations: {i.chromosome}\n" := by
    intro text i
    rw [String.append_assoc]
    rfl
  unfold Population.toString
  simp only [hline]
  rw [foldl_append_eq_join, String.empty_append]

theorem Population.min?_fitness (p : Population) :
    (p.individuals.map Individual.fitness).min? = p.best?.map Individual.fitness := by
  by_cases hnobody : p.individuals = []
  · rw [best?, hnobody]
    rfl
  · obtain ⟨best, hbest⟩ := best?_isSome hnobody
    obtain ⟨hmem, hleast⟩ := best?_least hbest
    rw [hbest, Option.map_some, List.min?_eq_some_iff]
    refine ⟨List.mem_map_of_mem hmem, fun fitness hfitness => ?_⟩
    obtain ⟨i, hi, rfl⟩ := List.mem_map.mp hfitness
    exact hleast i hi

namespace Run

/-- What stands in the report of a round: its number, the least fitness, and everybody in order. -/
def reportBlock (round : Nat) (p : Population) : String :=
  s!"\n---------- ROUND {round} ----------\nBest fitness: " ++
  (p.individuals.map Individual.fitness).min?.elim "-" toString ++ "\n" ++
  String.join (p.individuals.map fun i =>
    s!"Fitness: {i.fitness}, optimisations: {i.chromosome}\n")

theorem reportText_eq_reportBlock (round : Nat) (p : Population) :
    reportText round p = reportBlock round p := by
  unfold reportText reportBlock
  rw [Population.min?_fitness, Population.toString_eq_join]
  cases p.best? with
  | none => rfl
  | some best => rfl

variable {σ : Type}

/-! ### What the files are no part of -/

/-- What a run that saves nothing computes with: everything but the files and the journal. -/
structure View (σ : Type) where
  population : Population
  generator : σ
  output : Sink

def State.view (s : State σ) : View σ :=
  ⟨s.population, s.bench.generator, s.bench.output⟩

/-- Whether a run came to its end because its last population could not be saved. -/
def SaveFailed {α : Type} (path : Option String) (result : Except Failure α) (t : State σ) : Prop :=
  ∃ file before cause, path = some file ∧ result = .error (.error cause) ∧
    outcome (FileStore.writeChromosomes file t.population.chromosomes) before =
      (.error cause, t.bench.files)

theorem not_saveFailed_none {α : Type} {result : Except Failure α} {t : State σ} :
    ¬ SaveFailed none result t := by
  rintro ⟨file, before, cause, hpath, -, -⟩
  cases hpath

theorem SaveFailed.map {α β : Type} {path : Option String} {f : α → β}
    {result : Except Failure α} {s t : State σ} (h : SaveFailed path result s)
    (hpopulation : t.population = s.population)
    (hfiles : t.bench.files = s.bench.files) : SaveFailed path (result.map f) t := by
  obtain ⟨file, before, cause, hpath, rfl, hwrite⟩ := h
  exact ⟨file, before, cause, hpath, rfl, by rw [hpopulation, hfiles]; exact hwrite⟩

/-! ### What is written -/

variable [WordSource σ] {algorithm : Algorithm σ} {bounds : Option (Nat × Nat)}
  {path : Option String}

theorem round_written {progress progress' : Progress} {s t : State σ}
    (h : outcome (round algorithm bounds path progress) s = (.ok progress', t)) :
    t.bench.output.written = s.bench.output.written ++
      (reportBlock (progress.rounds + 1) s.population).toUTF8 := by
  have hround := round_outcome algorithm bounds path progress s
  simp only [h] at hround
  cases hround with
  | completed houtput => rw [Sink.write_accepted houtput, reportText_eq_reportBlock]

/-- Whether the given populations are those from which the first rounds of a run start. -/
def History (algorithm : Algorithm σ) (bounds : Option (Nat × Nat)) (path : Option String)
    (start : State σ) (generations : List Population) : Prop :=
  ∀ k p, generations[k]? = some p → generation? algorithm bounds path start k = some p

theorem History.concat {generations : List Population} {p : Population} {start : State σ}
    (h : History algorithm bounds path start generations)
    (hp : generation? algorithm bounds path start generations.length = some p) :
    History algorithm bounds path start (generations ++ [p]) := by
  intro k q hq
  rcases Nat.lt_trichotomy k generations.length with hk | rfl | hk
  · rw [List.getElem?_append_left hk] at hq
    exact h k q hq
  · rw [List.getElem?_concat_length] at hq
    cases hq
    exact hp
  · rw [List.getElem?_append_right (Nat.le_of_lt hk), List.getElem?_singleton,
      if_neg (by omega)] at hq
    cases hq

/-- Every round writes one report, on the generation that it starts from. -/
theorem rounds_written {n : Nat} {progress : Progress} {s t : State σ}
    (h : outcome (rounds algorithm bounds path n {}) s = (.ok progress, t)) :
    ∃ generations, History algorithm bounds path s generations ∧ generations.length = n ∧
      t.bench.output.written = s.bench.output.written ++
        (String.join (generations.mapIdx fun k p => reportBlock (k + 1) p)).toUTF8 := by
  induction n generalizing progress t with
  | zero =>
    obtain ⟨-, rfl⟩ := pure_ok h
    refine ⟨[], ?_, rfl, by simp⟩
    intro k p hp
    cases hp
  | succ n ih =>
    obtain ⟨middle, u, hrounds, hround⟩ := rounds_last_ok h
    obtain ⟨generations, hhistory, rfl, hwritten⟩ := ih hrounds
    have hcount : middle.rounds = generations.length := by
      rw [rounds_count hrounds]
      exact Nat.zero_add generations.length
    refine ⟨generations ++ [u.population], hhistory.concat (generation?_of_ok hrounds),
      List.length_append, ?_⟩
    rw [round_written hround, hwritten, hcount, List.mapIdx_concat, String.join_append]
    simp [ByteArray.append_assoc]

/-! ### Runs that save and runs that do not -/

/-- A round without its autosave. -/
def unsavedRound (algorithm : Algorithm σ) (bounds : Option (Nat × Nat)) (progress : Progress)
    (v : View σ) : Except Failure Progress × View σ :=
  match v.output.write (reportText (progress.rounds + 1) v.population) with
  | (false, output) => (.error (.error (.report Sink.refusal)), { v with output })
  | (true, output) =>
    match outcome (offspring algorithm bounds v.population) v.generator with
    | (.error failure, generator) => (.error failure, { v with output, generator })
    | (.ok population, generator) =>
      (.ok (progress.next population), { population, generator, output })

theorem round_view {progress : Progress} {s t : State σ} {result : Except Failure Progress}
    (h : outcome (round algorithm bounds path progress) s = (result, t)) :
    SaveFailed path result t ∨
      unsavedRound algorithm bounds progress s.view = (result, t.view) := by
  have hround := round_outcome algorithm bounds path progress s
  simp only [h] at hround
  unfold unsavedRound State.view
  cases hround with
  | unreported houtput hpopulation hgenerator =>
    right
    simp only [houtput, hpopulation, hgenerator]
  | childless houtput hoffspring hpopulation =>
    right
    simp only [houtput, hoffspring, hpopulation]
  | unsaved _ _ hpath hfiles => exact .inl ⟨_, _, _, hpath, rfl, hfiles⟩
  | completed houtput hoffspring =>
    right
    simp only [houtput, hoffspring]

/-- Unless it cannot save, a run that saves sees what a run sees that does not. -/
theorem rounds_unsaving {n : Nat} {progress : Progress} {s s' t t' : State σ}
    {result result' : Except Failure Progress} (hst : t.view = s.view)
    (h : outcome (rounds algorithm bounds path n progress) s = (result, s'))
    (h' : outcome (rounds algorithm bounds none n progress) t = (result', t')) :
    SaveFailed path result s' ∨ result' = result ∧ t'.view = s'.view := by
  induction n generalizing progress s t with
  | zero =>
    cases h
    cases h'
    exact .inr ⟨rfl, hst⟩
  | succ n ih =>
    rw [rounds_succ, outcome_bind] at h h'
    rcases hs : outcome (round algorithm bounds path progress) s with ⟨first, u⟩
    rcases ht : outcome (round algorithm bounds none progress) t with ⟨first', u'⟩
    rw [hs] at h
    rw [ht] at h'
    have hview' := (round_view ht).resolve_left not_saveFailed_none
    rcases round_view hs with hfailed | hview
    · obtain ⟨file, before, cause, hpath, rfl, hfiles⟩ := hfailed
      cases h
      exact .inl ⟨file, before, cause, hpath, rfl, hfiles⟩
    · rw [hst, hview] at hview'
      obtain ⟨rfl, huview⟩ := Prod.mk.inj hview'
      cases first with
      | error failure =>
        cases h
        cases h'
        exact .inr ⟨rfl, huview.symm⟩
      | ok middle => exact ih huview.symm h h'

/-- Unless it cannot save, a run has the same generations with and without a population file. -/
theorem generation?_unsaving {n k : Nat} {s t : State σ} {result : Except Failure Progress}
    (h : outcome (rounds algorithm bounds path n {}) s = (result, t))
    (hsaved : ¬ SaveFailed path result t) (hk : k ≤ n) :
    generation? algorithm bounds path s k = generation? algorithm bounds none s k := by
  obtain ⟨rest, rfl⟩ : ∃ rest, n = k + rest := ⟨n - k, by omega⟩
  rcases hs : outcome (rounds algorithm bounds path k {}) s with ⟨first, u⟩
  rcases hs' : outcome (rounds algorithm bounds none k {}) s with ⟨first', u'⟩
  rcases rounds_unsaving rfl hs hs' with hfailed | ⟨rfl, hview⟩
  · -- A save that fails is the end of the whole run.
    obtain ⟨file, before, cause, hpath, rfl, hfiles⟩ := hfailed
    rw [rounds_add, bind_of_error hs] at h
    cases h
    exact absurd ⟨file, before, cause, hpath, rfl, hfiles⟩ hsaved
  · unfold generation?
    rw [hs, hs']
    cases first' with
    | error failure => rfl
    | ok progress => exact congrArg (fun v => some v.population) hview.symm

/-! ### Whole runs -/

/-- A run of `n` rounds writes the reports of the `n` generations before the last one, in their
order, and nothing else. Unless a population cannot be saved, the same run without a population file
has the same result, the same generations, the same words left and the same output. -/
theorem run_trace_with_and_without_saving {algorithm : Algorithm σ} {options : RunOptions}
    {allotment : Nat} {start final : State σ} {result : Except Failure (Option Progress)}
    (hrun : outcome (execute algorithm options allotment) start = (result, final)) :
    (∀ summary, result = .ok summary → ∃ bounds generations,
      options.duplicateBounds = .ok bounds ∧
      History algorithm bounds options.autosave start generations ∧
      generations.length = options.maxRounds.getD allotment ∧
      generation? algorithm bounds options.autosave start generations.length =
        some final.population ∧
      (∀ progress, summary = some progress → progress.rounds = generations.length) ∧
      final.bench.output.written = start.bench.output.written ++
        (String.join (generations.mapIdx fun k p => reportBlock (k + 1) p)).toUTF8) ∧
    (SaveFailed options.autosave result final ∨
      ∃ final', outcome (execute algorithm (options.saving none) allotment) start =
          (result, final') ∧
        final'.view = final.view ∧
        ∀ bounds k, options.duplicateBounds = .ok bounds → k ≤ options.maxRounds.getD allotment →
          generation? algorithm bounds options.autosave start k =
            generation? algorithm bounds none start k) := by
  cases hbounds : options.duplicateBounds with
  | error fault =>
    have hbounds' : (options.saving none).duplicateBounds = .error fault := hbounds
    rw [execute_of_fault hbounds] at hrun
    cases hrun
    refine ⟨?_, .inr ⟨start, execute_of_fault hbounds' allotment start, rfl, ?_⟩⟩
    · intro summary hsummary
      cases hsummary
    · intro bounds k hbounds
      cases hbounds
  | ok bounds =>
    have hbounds' : (options.saving none).duplicateBounds = .ok bounds := hbounds
    rcases hs : outcome (rounds algorithm bounds options.autosave
      (options.maxRounds.getD allotment) {}) start with ⟨last, u⟩
    rcases hs' : outcome (rounds algorithm bounds none
      (options.maxRounds.getD allotment) {}) start with ⟨last', u'⟩
    obtain ⟨journal, hexecute⟩ := execute_eq_rounds algorithm hbounds allotment start hs
    obtain ⟨journal', hexecute'⟩ := execute_eq_rounds algorithm hbounds' allotment start hs'
    rw [hexecute] at hrun
    cases hrun
    refine ⟨?_, ?_⟩
    · intro summary hsummary
      cases last with
      | error failure => cases hsummary
      | ok progress =>
        obtain ⟨generations, hhistory, hlength, hwritten⟩ := rounds_written hs
        refine ⟨bounds, generations, rfl, hhistory, hlength, ?_, ?_, hwritten⟩
        · rw [hlength]
          exact (generation?_of_ok hs).trans rfl
        · rintro last rfl
          obtain ⟨n, -, rfl⟩ := Option.map_eq_some_iff.mp (Except.ok.inj hsummary)
          rw [rounds_count hs, hlength]
          exact Nat.zero_add _
    · by_cases hsaved : SaveFailed options.autosave last u
      · exact .inl (hsaved.map rfl rfl)
      · obtain ⟨rfl, hview⟩ := (rounds_unsaving rfl hs hs').resolve_left hsaved
        refine .inr ⟨_, hexecute', hview, ?_⟩
        rintro _ k ⟨⟩ hk
        exact generation?_unsaving hs hsaved hk

/-- The small search writes one report, whether or not it saves. -/
theorem small_search_trace : ∃ summary final final',
    outcome (execute smallStrategy.toAlgorithm (smallOptions (some "p")) 0) smallStart =
      (.ok (some summary), final) ∧
    outcome (execute smallStrategy.toAlgorithm (smallOptions none) 0) smallStart =
      (.ok (some summary), final') ∧
    final'.view = final.view ∧
    final.bench.output.written = (reportBlock 1 smallStart.population).toUTF8 := by
  have hsaving : ∀ file, some "p" = some file → ∀ chromosomes,
      (outcome (FileStore.writeChromosomes file chromosomes) {}).1 = .ok () := by
    rintro _ ⟨⟩ chromosomes
    rfl
  obtain ⟨summary, final, hrun⟩ := smallStart_execute (some "p") hsaving
  obtain ⟨htrace, hunseen⟩ := run_trace_with_and_without_saving hrun
  obtain ⟨bounds, generations, -, hhistory, hlength, -, -, hwritten⟩ := htrace _ rfl
  obtain ⟨p, rfl⟩ := List.length_eq_one_iff.mp hlength
  cases hhistory 0 p rfl
  obtain ⟨final', hrun', hview, -⟩ := hunseen.resolve_left fun hfailed => by
    obtain ⟨_, _, _, -, hresult, -⟩ := hfailed
    cases hresult
  refine ⟨summary, final, final', hrun, hrun', hview, ?_⟩
  rw [hwritten]
  simp [smallStart]

end Run

end StepSearch
