import StepSearch.CommandLine.Reply
import StepSearch.Proofs.Agreement
import StepSearch.Proofs.CheckedGenerations
import StepSearch.Proofs.InitialPopulation

/-!
# Failures before the first round

A search from the command line finds out what is wrong with its options, its program and its
chromosomes before the first round, when nothing but the seed has been written. A search that comes
to its first round fails only if a report is refused or a file cannot be used. The line with the seed
is the one thing that must not be refused: without it the search panics before it has done anything.
-/

namespace StepSearch

/-! ### Kinds of failures -/

/-- Whether a failure is due to the options or to a text that is no chromosome. -/
def Failure.IsConfiguration : Failure → Prop
  | .error (.configuration _) | .error (.invalidChromosome _) => True
  | _ => False

/-- Whether a failure is due to the options, the chromosomes or the program. -/
def Failure.IsInput : Failure → Prop
  | .error (.programLoad _ _) => True
  | failure => failure.IsConfiguration

/-- Whether a failure is one that the preparation of a search may end with. -/
def Failure.IsPreparatory : Failure → Prop
  | .error (.fileAccess _ _) => True
  | failure => failure.IsInput

theorem Failure.IsPreparatory.ne_invariant {cause : SearchError}
    (h : (Failure.error cause).IsPreparatory) (breach : Breach) : cause ≠ .invariant breach := by
  rintro rfl
  exact h

theorem Failure.IsExternal.ne_invariant {cause : SearchError}
    (h : (Failure.error cause).IsExternal) (breach : Breach) : cause ≠ .invariant breach := by
  rintro rfl
  exact h

theorem Failure.IsExternal.not_input {failure : Failure} (h : failure.IsExternal) :
    ¬ failure.IsInput := by
  cases failure with
  | misuse misuse => exact absurd h id
  | error cause => cases cause <;> simp_all [IsExternal, IsInput, IsConfiguration]

/-! ### Rounds -/

/-- Whether a plan gives out just the places of `size` individuals, with somebody to take parents
from where parents are needed. -/
def RoundPlan.Fits (size : Nat) : RoundPlan → Prop
  | .gewep pools => 0 < pools.elite ∧ pools.elite + pools.mutation + pools.crossover = size
  | .random survivors fresh => survivors + fresh = size

theorem Strategy.plan_fits (s : Strategy) {size : Nat} (h : 0 < size) :
    (s.plan size).Fits size := by
  cases s with
  | random r => exact Nat.add_sub_of_le (Pool.count_le _ _)
  | gewep w => exact ⟨PoolSizes.one_le_elite h _ _, PoolSizes.partition_sum size _ _⟩

namespace Run

variable {σ : Type} [WordSource σ] {strategy : Strategy} {bounds : Option (Nat × Nat)}
  {path : Option String}

/-- A round that starts from somebody fails from outside only. -/
theorem round_error_external
    (hbounds : ∀ least greatest, bounds = some (least, greatest) → least ≤ greatest)
    {progress : Progress} {s t : State σ} {failure : Failure} (hs : s.population.individuals ≠ [])
    (h : outcome (round strategy.toAlgorithm bounds path progress) s = (.error failure, t)) :
    failure.IsExternal := by
  have hround := round_outcome strategy.toAlgorithm bounds path progress s
  simp only [h] at hround
  cases hround with
  | unreported => exact trivial
  | childless _ hoffspring =>
    obtain ⟨q, g, hq⟩ := offspring_total strategy hbounds hs s.bench.generator
    rw [hq] at hoffspring
    cases hoffspring
  | unsaved _ _ _ hfiles =>
    obtain ⟨file, fault, rfl⟩ := FileStore.writeChromosomes_error hfiles
    exact trivial

theorem rounds_error_external
    (hbounds : ∀ least greatest, bounds = some (least, greatest) → least ≤ greatest) {n : Nat}
    {progress : Progress} {s t : State σ} {failure : Failure} (hs : s.population.individuals ≠ [])
    (h : outcome (rounds strategy.toAlgorithm bounds path n progress) s = (.error failure, t)) :
    failure.IsExternal := by
  induction n generalizing progress s with
  | zero => cases h
  | succ n ih =>
    rcases bind_error h with hround | ⟨middle, u, hround, hrest⟩
    · exact round_error_external hbounds hs hround
    · obtain ⟨hoffspring, -, -⟩ := round_ok hround
      exact ih (offspring_ok hoffspring).ne_nil hrest

end Run

/-! ### The initial population -/

namespace PopulationSources

variable {σ : Type} [WordSource σ] {s : PopulationSources} {metric : Metric} {files : FileStore}

theorem FirstFault.isPreparatory {cause : SearchError} (h : s.FirstFault files cause) :
    (Failure.error cause).IsPreparatory := by
  cases h with
  | bounds => exact trivial
  | chromosome => exact trivial
  | file _ _ _ _ hfault => cases hfault <;> exact trivial

theorem build_ok {g g' : σ} {p : Population} (h : outcome (s.build metric files) g = (.ok p, g')) :
    s.leastLength ≤ s.greatestLength := by
  obtain ⟨_, m, hlengths, -⟩ := bind_ok h
  exact checkLengths_ok (Except.mapError_eq_ok (ofExcept_ok hlengths))

theorem build_error {g g' : σ} {failure : Failure}
    (h : outcome (s.build metric files) g = (.error failure, g')) : failure.IsPreparatory := by
  obtain ⟨cause, hcause, rfl⟩ := build_error_iff.mp (congrArg Prod.fst h)
  exact hcause.isPreparatory

end PopulationSources

/-! ### Preparation -/

section Preparation

variable {ε σ α β : Type}

/-- Whether a computation leaves the output and the files of every workbench alone. -/
def Discreet (x : ExceptT ε (StateM (Workbench σ)) α) : Prop :=
  ∀ bench, (outcome x bench).2.output = bench.output ∧ (outcome x bench).2.files = bench.files

namespace Discreet

theorem pure (a : α) : Discreet (pure a : ExceptT ε (StateM (Workbench σ)) α) :=
  fun _ => ⟨rfl, rfl⟩

theorem bind {x : ExceptT ε (StateM (Workbench σ)) α} {f : α → ExceptT ε (StateM (Workbench σ)) β}
    (hx : Discreet x) (hf : ∀ a, Discreet (f a)) : Discreet (x >>= f) := by
  intro bench
  obtain ⟨houtput, hfiles⟩ := hx bench
  rw [outcome_bind]
  rcases hresult : outcome x bench with ⟨e | a, middle⟩
  · rw [hresult] at houtput hfiles
    exact ⟨houtput, hfiles⟩
  · rw [hresult] at houtput hfiles
    obtain ⟨houtput', hfiles'⟩ := hf a middle
    exact ⟨houtput'.trans houtput, hfiles'.trans hfiles⟩

end Discreet

theorem Session.search_discreet (action : Search σ α) : Discreet (Session.search action) :=
  fun _ => ⟨rfl, rfl⟩

theorem Session.require_discreet (result : Except SearchError α) :
    Discreet (Session.require result : Session σ α) :=
  fun _ => ⟨rfl, rfl⟩

theorem Session.log_discreet (event : Event) : Discreet (Session.log event : Session σ Unit) :=
  fun _ => ⟨rfl, rfl⟩

namespace Session

theorem readProgram_discreet (path : String) :
    Discreet (readProgram path : Session σ Program) :=
  fun _ => ⟨rfl, rfl⟩

theorem buildStrategy_discreet (settings : StrategySettings) (size : Nat) :
    Discreet (buildStrategy settings size : Session σ Strategy) :=
  (require_discreet _).bind fun _ => (log_discreet _).bind fun _ => .pure _

theorem buildPopulation_discreet [WordSource σ] (sources : PopulationSources) (metric : Metric) :
    Discreet (buildPopulation sources metric : Session σ Population) := by
  refine Discreet.bind (fun _ => ⟨rfl, rfl⟩) fun bench => ?_
  exact (search_discreet _).bind fun _ => (log_discreet _).bind fun _ => .pure _

variable {bench final : Workbench σ} {failure : Failure}

theorem require_error {result : Except SearchError α}
    (h : outcome (require result) bench = (.error failure, final)) :
    ∃ cause, result = .error cause ∧ failure = .error cause := by
  rw [outcome_require] at h
  exact Except.mapError_error (Prod.mk.inj h).1

theorem readProgram_error {path : String}
    (h : outcome (readProgram path) bench = (.error failure, final)) : failure.IsPreparatory := by
  have hrequire : outcome (require (bench.files.readProgram path)) bench =
      (.error failure, final) := h
  obtain ⟨cause, hcause, rfl⟩ := require_error hrequire
  rcases Except.bind_error hcause with hread | ⟨text, -, hload⟩
  · obtain ⟨fault, -, rfl⟩ := Except.mapError_error hread
    exact trivial
  · obtain ⟨problems, -, rfl⟩ := Except.mapError_error hload
    exact trivial

theorem programSize_error {program : Program} {repetitions : Nat}
    (h : outcome (programSize program repetitions) bench = (.error failure, final)) :
    failure.IsPreparatory := by
  obtain ⟨cause, hcause, rfl⟩ := require_error h
  obtain ⟨fault, -, rfl⟩ := Except.mapError_error hcause
  exact trivial

/-- A population that is built is the one of the sources, which is then counted in the journal. -/
theorem outcome_buildPopulation [WordSource σ] (sources : PopulationSources) (metric : Metric)
    (bench : Workbench σ) :
    ∃ journal, outcome (buildPopulation sources metric) bench =
      ((outcome (sources.build metric bench.files) bench.generator).1,
        { bench with
          generator := (outcome (sources.build metric bench.files) bench.generator).2
          journal }) := by
  unfold buildPopulation
  rw [outcome_bind, outcome_get]
  simp only
  rw [outcome_bind, outcome_search]
  rcases outcome (sources.build metric bench.files) bench.generator with ⟨failure | p, g⟩
  · exact ⟨bench.journal, rfl⟩
  · exact ⟨bench.journal.push (.populationBuilt p.size), rfl⟩

theorem buildPopulation_eq [WordSource σ] {sources : PopulationSources} {metric : Metric}
    {result : Except Failure Population}
    (h : outcome (buildPopulation sources metric) bench = (result, final)) :
    outcome (sources.build metric bench.files) bench.generator = (result, final.generator) := by
  obtain ⟨journal, hbuild⟩ := outcome_buildPopulation sources metric bench
  rw [hbuild] at h
  cases h
  rfl

theorem buildStrategy_error {settings : StrategySettings} {size : Nat}
    (h : outcome (buildStrategy settings size) bench = (.error failure, final)) :
    failure.IsPreparatory := by
  have hrecorded : ∀ (strategy : Strategy) (middle : Workbench σ), ∃ recorded after,
      outcome (do log (.strategyChosen settings.kind); return strategy) middle =
        (.ok recorded, after) :=
    fun _ _ => ⟨_, _, rfl⟩
  obtain ⟨cause, hcause, rfl⟩ := require_error ((bind_error_iff hrecorded).mp h)
  obtain ⟨fault, -, rfl⟩ := Except.mapError_error hcause
  exact trivial

theorem buildStrategy_ok {settings : StrategySettings} {size : Nat} {strategy : Strategy}
    (h : outcome (buildStrategy settings size) bench = (.ok strategy, final)) : 0 < size := by
  obtain ⟨chosen, middle, hchosen, -⟩ := bind_ok h
  rw [outcome_require] at hchosen
  have hbuilt := Except.mapError_eq_ok (Except.mapError_eq_ok (Prod.mk.inj hchosen).1)
  unfold StrategySettings.build at hbuilt
  split at hbuilt
  · cases hbuilt
  · omega

end Session

end Preparation

namespace CommandLine

variable {σ α : Type}

theorem outcome_perform (stage : Stage) (action : Session σ α) (bench : Workbench σ) :
    outcome (stage.perform action) bench =
      ((outcome action bench).1.mapError stage.abort, (outcome action bench).2) := rfl

theorem perform_ok {stage : Stage} {action : Session σ α} {bench final : Workbench σ} {a : α}
    (h : outcome (stage.perform action) bench = (.ok a, final)) :
    outcome action bench = (.ok a, final) := by
  rw [outcome_perform] at h
  obtain ⟨hresult, hfinal⟩ := Prod.mk.inj h
  exact Prod.ext (Except.mapError_eq_ok hresult) hfinal

theorem perform_error {stage : Stage} {action : Session σ α} {bench final : Workbench σ}
    {abort : Abort} (h : outcome (stage.perform action) bench = (.error abort, final)) :
    ∃ failure, outcome action bench = (.error failure, final) ∧ abort = stage.abort failure := by
  rw [outcome_perform] at h
  obtain ⟨hresult, hfinal⟩ := Prod.mk.inj h
  obtain ⟨failure, hfailure, rfl⟩ := Except.mapError_error hresult
  exact ⟨failure, Prod.ext hfailure hfinal, rfl⟩

theorem perform_discreet {action : Session σ α} (h : Discreet action) (stage : Stage) :
    Discreet (stage.perform action) := h

/-- Whether a search ends with an error of the given kind. -/
def Abort.IsFatal (kind : Failure → Prop) : Abort → Prop
  | .fatal error => kind (.error error.cause)
  | .panic _ => False

theorem perform_fatal {stage : Stage} {action : Session σ α} {bench final : Workbench σ}
    {abort : Abort} {kind : Failure → Prop}
    (haction : ∀ failure, outcome action bench = (.error failure, final) → kind failure)
    (hkind : ∀ misuse, ¬ kind (.misuse misuse))
    (h : outcome (stage.perform action) bench = (.error abort, final)) : abort.IsFatal kind := by
  obtain ⟨failure, hfailure, rfl⟩ := perform_error h
  have hholds := haction failure hfailure
  cases failure with
  | error cause => exact hholds
  | misuse misuse => exact absurd hholds (hkind misuse)

theorem outcome_printSeed (seed : UInt32) (bench : Workbench σ) :
    outcome (printSeed seed) bench =
      (if (bench.output.write (seedLine seed)).1 then .ok ()
        else .error (.panic (.unprinted Sink.refusal)),
      { bench with output := (bench.output.write (seedLine seed)).2 }) := rfl

theorem outcome_fromPopulation (population : Population) (action : Run σ α) (bench : Workbench σ) :
    outcome (fromPopulation population action) bench =
      ((outcome action ⟨bench, population⟩).1, (outcome action ⟨bench, population⟩).2.bench) := rfl

namespace Invocation

variable [WordSource σ]

/-- The preparation after the seed has been written. -/
def prepareSilently (i : Invocation) : Command σ Prepared := do
  let program ← Stage.program.perform (Session.readProgram i.inputFile)
  let metric ← Stage.metric.perform (Session.programSize program i.repetitions)
  let population ← Stage.population.perform
    (Session.buildPopulation i.sources (metric.toMetric 0))
  let strategy ← Stage.strategy.perform (Session.buildStrategy i.settings population.size)
  return ⟨population, strategy⟩

theorem prepare_eq (i : Invocation) (seed : UInt32) {bench : Workbench σ}
    (h : (bench.output.write (seedLine seed)).1 = true) :
    outcome (i.prepare seed) bench =
      outcome i.prepareSilently { bench with output := (bench.output.write (seedLine seed)).2 } := by
  have hprint := outcome_printSeed seed bench
  rw [if_pos h] at hprint
  exact bind_of_ok hprint fun _ => i.prepareSilently

/-- Without the line with the seed there is no search. -/
theorem execute_refused (i : Invocation) {seed : UInt32} (allotment : Nat) {bench : Workbench σ}
    (h : (bench.output.write (seedLine seed)).1 = false) :
    outcome (i.execute seed allotment) bench = (.error (.panic (.unprinted Sink.refusal)),
      { bench with output := (bench.output.write (seedLine seed)).2 }) := by
  have hprint := outcome_printSeed seed bench
  rw [h, if_neg Bool.false_ne_true] at hprint
  exact bind_of_error (bind_of_error hprint fun _ => i.prepareSilently) _

theorem prepareSilently_discreet (i : Invocation) :
    Discreet (i.prepareSilently : Command σ Prepared) := by
  refine (perform_discreet (Session.readProgram_discreet _) _).bind fun program => ?_
  refine (perform_discreet (Session.require_discreet _) _).bind fun metric => ?_
  refine (perform_discreet (Session.buildPopulation_discreet _ _) _).bind fun population => ?_
  exact (perform_discreet (Session.buildStrategy_discreet _ _) _).bind fun strategy => .pure _

/-- However the preparation ends, nothing but the seed has been written, and no file has changed. -/
theorem prepare_discreet {i : Invocation} {seed : UInt32} {bench final : Workbench σ}
    {result : Except Abort Prepared} (hseed : (bench.output.write (seedLine seed)).1 = true)
    (h : outcome (i.prepare seed) bench = (result, final)) :
    final.output.written = bench.output.written ++ (seedLine seed).toUTF8 ∧
      final.files = bench.files := by
  rw [prepare_eq i seed hseed] at h
  obtain ⟨houtput, hfiles⟩ := i.prepareSilently_discreet
    { bench with output := (bench.output.write (seedLine seed)).2 }
  rw [h] at houtput hfiles
  refine ⟨?_, hfiles⟩
  rw [houtput]
  exact Sink.write_accepted (Prod.ext hseed rfl)

theorem prepareSilently_error {i : Invocation} {bench final : Workbench σ} {abort : Abort}
    (h : outcome i.prepareSilently bench = (.error abort, final)) :
    abort.IsFatal Failure.IsPreparatory := by
  have hkind : ∀ misuse, ¬ (Failure.misuse misuse).IsPreparatory := fun _ => id
  rcases bind_error h with h | ⟨program, b, -, h⟩
  · exact perform_fatal (fun _ => Session.readProgram_error) hkind h
  rcases bind_error h with h | ⟨metric, b, -, h⟩
  · exact perform_fatal (fun _ => Session.programSize_error) hkind h
  rcases bind_error h with h | ⟨population, b, -, h⟩
  · refine perform_fatal (fun _ hbuild => ?_) hkind h
    exact PopulationSources.build_error (Session.buildPopulation_eq hbuild)
  rcases bind_error h with h | ⟨strategy, b, -, h⟩
  · exact perform_fatal (fun _ => Session.buildStrategy_error) hkind h
  · cases h

/-- A search that is prepared starts from somebody, and with lengths that are in order. -/
theorem prepareSilently_ok {i : Invocation} {bench final : Workbench σ} {prepared : Prepared}
    (h : outcome i.prepareSilently bench = (.ok prepared, final)) :
    prepared.population.individuals ≠ [] ∧
      i.settings.leastLength ≤ i.settings.greatestLength := by
  obtain ⟨program, b, -, h⟩ := bind_ok h
  obtain ⟨metric, b, -, h⟩ := bind_ok h
  obtain ⟨population, b, hpopulation, h⟩ := bind_ok h
  obtain ⟨strategy, b, hstrategy, h⟩ := bind_ok h
  obtain ⟨rfl, -⟩ := pure_ok h
  have hsize := Session.buildStrategy_ok (perform_ok hstrategy)
  have hlengths := PopulationSources.build_ok (Session.buildPopulation_eq (perform_ok hpopulation))
  exact ⟨List.length_pos_iff.mp hsize, hlengths⟩

/-! ### Runs from the command line -/

/-- Lengths in order serve as bounds for replacements too. -/
theorem duplicateBounds_ok {i : Invocation}
    (h : i.settings.leastLength ≤ i.settings.greatestLength) :
    ∃ bounds, i.runOptions.duplicateBounds = .ok bounds ∧
      ∀ least greatest, bounds = some (least, greatest) → least ≤ greatest := by
  unfold RunOptions.duplicateBounds runOptions
  cases i.keepDuplicates with
  | true => exact ⟨none, rfl, fun _ _ hnone => by cases hnone⟩
  | false =>
    refine ⟨_, if_pos h, ?_⟩
    rintro _ _ ⟨⟩
    exact h

theorem run_error_external {i : Invocation} {prepared : Prepared} {allotment : Nat}
    {bench final : Workbench σ} {failure : Failure}
    (hpopulation : prepared.population.individuals ≠ [])
    (hlengths : i.settings.leastLength ≤ i.settings.greatestLength)
    (h : outcome (fromPopulation prepared.population
      (Run.execute prepared.strategy.toAlgorithm i.runOptions allotment)) bench =
        (.error failure, final)) : failure.IsExternal := by
  obtain ⟨bounds, hbounds, hordered⟩ := duplicateBounds_ok hlengths
  rcases hrounds : outcome (Run.rounds prepared.strategy.toAlgorithm bounds i.runOptions.autosave
    (i.runOptions.maxRounds.getD allotment) {}) ⟨bench, prepared.population⟩ with ⟨result, t⟩
  obtain ⟨journal, hexecute⟩ := Run.execute_eq_rounds _ hbounds allotment _ hrounds
  rw [outcome_fromPopulation, hexecute] at h
  cases result with
  | error cause =>
    cases h
    exact Run.rounds_error_external hordered hpopulation hrounds
  | ok progress => cases h

theorem chain_head?_iff (fatal : Fatal) :
    fatal.chain.head? = some Fatal.hint ↔ (Failure.error fatal.cause).IsConfiguration := by
  have hdescription : fatal.stage.description ≠ Fatal.hint := by
    cases fatal.stage <;> decide
  unfold Fatal.chain
  rcases fatal with ⟨stage, cause⟩
  cases cause <;> simp [SearchError.isConfigurationError, Failure.IsConfiguration, hdescription]

/-- Once the seed is printed, a failure comes from the preparation, or from outside when that is done. -/
theorem execute_error {i : Invocation} {seed : UInt32} {allotment : Nat}
    {bench final : Workbench σ} {abort : Abort} (hseed : (bench.output.write (seedLine seed)).1 = true)
    (h : outcome (i.execute seed allotment) bench = (.error abort, final)) :
    (outcome (i.prepare seed) bench = (.error abort, final) ∧
        abort.IsFatal Failure.IsPreparatory) ∨
      ∃ prepared u, outcome (i.prepare seed) bench = (.ok prepared, u) ∧
        abort.IsFatal Failure.IsExternal := by
  rcases bind_error h with hprepare | ⟨prepared, u, hprepare, hrest⟩
  · rw [prepare_eq i seed hseed] at hprepare ⊢
    exact .inl ⟨hprepare, prepareSilently_error hprepare⟩
  · refine .inr ⟨prepared, u, hprepare, ?_⟩
    rw [prepare_eq i seed hseed] at hprepare
    obtain ⟨hpopulation, hlengths⟩ := prepareSilently_ok hprepare
    exact perform_fatal (fun _ => run_error_external hpopulation hlengths) (fun _ => id) hrest

/-- A search panics exactly if the line with its seed is refused. -/
theorem execute_panics_iff {i : Invocation} {seed : UInt32} {allotment : Nat}
    {bench final : Workbench σ} {result : Except Abort (Option Progress)}
    (hrun : outcome (i.execute seed allotment) bench = (result, final)) (cause : Panic) :
    result = .error (.panic cause) ↔
      (bench.output.write (seedLine seed)).1 = false ∧ cause = .unprinted Sink.refusal := by
  cases hseed : (bench.output.write (seedLine seed)).1 with
  | false =>
    rw [execute_refused i allotment hseed] at hrun
    cases hrun
    simp [eq_comm]
  | true =>
    refine ⟨?_, fun h => absurd h.1 (by simp)⟩
    rintro rfl
    rcases execute_error hseed hrun with ⟨-, hfatal⟩ | ⟨-, -, -, hfatal⟩
    · exact hfatal.elim
    · exact hfatal.elim

theorem seed_accepted_of_prepare {i : Invocation} {seed : UInt32} {bench u : Workbench σ}
    {prepared : Prepared} (h : outcome (i.prepare seed) bench = (.ok prepared, u)) :
    (bench.output.write (seedLine seed)).1 = true := by
  obtain ⟨_, middle, hprint, _⟩ := bind_ok h
  rw [outcome_printSeed] at hprint
  by_contra hrefused
  rw [if_neg hrefused] at hprint
  cases hprint

theorem seed_accepted_of_fatal {i : Invocation} {seed : UInt32} {allotment : Nat}
    {bench final : Workbench σ} {fatal : Fatal}
    (h : outcome (i.execute seed allotment) bench = (.error (.fatal fatal), final)) :
    (bench.output.write (seedLine seed)).1 = true := by
  by_contra hrefused
  rw [execute_refused i allotment (Bool.eq_false_iff.mpr hrefused)] at h
  cases h

/-- A search from the command line fails early, or from outside.

An error that is due to the options, the chromosomes or the program comes before the first round:
nothing has been written but the seed, and no file has changed. No error is the fault of the search
itself. Once the search is prepared, that is, from the first report on, it ends with an error only
because a report is refused or a file cannot be used. The hint at the options stands in front of an
error just if it is due to the options or to a text that is no chromosome.

A search panics exactly if the line with the seed is refused; then it has done nothing else. In every
generation there is somebody, the strategy gives out just as many places as there are individuals, and
no place is ever looked for that is not there: the next generation is also the one that is made with
all checks. -/
theorem fails_early_or_from_outside {i : Invocation} {seed : UInt32} {allotment : Nat}
    {bench final : Workbench σ} {result : Except Abort (Option Progress)}
    (hrun : outcome (i.execute seed allotment) bench = (result, final)) :
    (∀ fatal, result = .error (.fatal fatal) →
      ((Failure.error fatal.cause).IsInput →
        outcome (i.prepare seed) bench = (.error (.fatal fatal), final) ∧
        final.output.written = bench.output.written ++ (seedLine seed).toUTF8 ∧
        final.files = bench.files) ∧
      (∀ breach, fatal.cause ≠ .invariant breach) ∧
      (∀ prepared u, outcome (i.prepare seed) bench = (.ok prepared, u) →
        (Failure.error fatal.cause).IsExternal) ∧
      (fatal.chain.head? = some Fatal.hint ↔ (Failure.error fatal.cause).IsConfiguration)) ∧
    (∀ cause, result = .error (.panic cause) ↔
      (bench.output.write (seedLine seed)).1 = false ∧ cause = .unprinted Sink.refusal) ∧
    ((bench.output.write (seedLine seed)).1 = false →
      final = { bench with output := (bench.output.write (seedLine seed)).2 }) ∧
    (∀ prepared u bounds k p, outcome (i.prepare seed) bench = (.ok prepared, u) →
      i.runOptions.duplicateBounds = .ok bounds →
      Run.generation? prepared.strategy.toAlgorithm bounds i.autosave ⟨u, prepared.population⟩ k =
        some p →
      0 < p.size ∧ (prepared.strategy.plan p.size).Fits p.size ∧
        Confirms (prepared.strategy.advance? p : OptionT (Search σ) Population)
          (prepared.strategy.advance p)) ∧
    PlacesInRange σ := by
  refine ⟨?_, execute_panics_iff hrun, ?_, ?_, placesInRange⟩
  · rintro fatal rfl
    have hseed := seed_accepted_of_fatal hrun
    rcases execute_error hseed hrun with ⟨hprepare, hpreparatory⟩ | ⟨prepared, u, -, hexternal⟩
    · refine ⟨fun _ => ⟨hprepare, prepare_discreet hseed hprepare⟩, hpreparatory.ne_invariant, ?_,
        chain_head?_iff fatal⟩
      intro prepared u hprepared
      rw [hprepare] at hprepared
      cases hprepared
    · exact ⟨fun hinput => absurd hinput hexternal.not_input, hexternal.ne_invariant,
        fun _ _ _ => hexternal, chain_head?_iff fatal⟩
  · intro hrefused
    rw [execute_refused i allotment hrefused] at hrun
    exact (Prod.mk.inj hrun).2.symm
  · intro prepared u bounds k p hprepare _ hp
    rw [prepare_eq i seed (seed_accepted_of_prepare hprepare)] at hprepare
    obtain ⟨hpopulation, -⟩ := prepareSilently_ok hprepare
    have hsomebody : p.individuals ≠ [] :=
      Run.generation?_induction (fun p => p.individuals ≠ [])
        (fun _ _ _ _ _ hq => (Run.offspring_ok hq).ne_nil) hp hpopulation
    have hsize : 0 < p.size := List.length_pos_iff.mpr hsomebody
    exact ⟨hsize, prepared.strategy.plan_fits hsize, prepared.strategy.advance?_confirms p⟩

/-- A search on an empty program with crossed lengths. -/
def crossed : Invocation where
  inputFile := "p"
  settings := { leastLength := 3, greatestLength := 2 }

def crossedBench : Workbench Script where
  generator := { words := #[] }
  files := (FileStore.write {} "p" "{ }".toUTF8).toOption.getD {}

/-- Crossed lengths are found out before the first round, and the user is told where to look. -/
theorem crossed_lengths_fail_early : ∃ fatal final,
    outcome (crossed.execute 7 1) crossedBench = (.error (.fatal fatal), final) ∧
    final.output.written = (seedLine 7).toUTF8 ∧ final.files = crossedBench.files ∧
    fatal.chain.head? = some Fatal.hint := by
  have hresult : (outcome (crossed.execute 7 1) crossedBench).1 =
      .error (.fatal ⟨.population, .configuration (.lengthBounds 3 2)⟩) := by decide +kernel
  rcases hrun : outcome (crossed.execute 7 1) crossedBench with ⟨result, final⟩
  rw [hrun] at hresult
  obtain ⟨hfailure, -, -⟩ := fails_early_or_from_outside hrun
  obtain ⟨hearly, -, -, hhint⟩ := hfailure _ hresult
  obtain ⟨-, hwritten, hfiles⟩ := hearly trivial
  refine ⟨_, final, Prod.ext hresult rfl, ?_, hfiles, hhint.mpr trivial⟩
  rw [hwritten]
  exact ByteArray.empty_append

/-- One round of a search on an empty program, with nothing wrong in its options. -/
def plain : Invocation where
  inputFile := "p"
  rounds := some 1
  chromosomes := ["u"]

/-- An output that takes nothing. -/
def refusingBench : Workbench Script :=
  { crossedBench with output := { capacity := some 0 } }

/-- A search that succeeds where its output takes everything panics where the line with the seed is
refused. -/
theorem refused_seed_panics : (outcome (plain.execute 7 1) crossedBench).1.isOk = true ∧
    ∃ final, outcome (plain.execute 7 1) refusingBench =
      (.error (.panic (.unprinted Sink.refusal)), final) :=
  ⟨by decide +kernel, _, execute_refused plain 1 (by decide)⟩

end Invocation

end CommandLine

end StepSearch
