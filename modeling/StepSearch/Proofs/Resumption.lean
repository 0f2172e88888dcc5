import StepSearch.Proofs.Agreement
import StepSearch.Proofs.InitialPopulation

/-!
# Resumption

A run can be stopped and taken up again from its population file: the file has every chromosome in
its place, their fitness is computed anew, and nothing is drawn for that. The two runs together then
do what one run without the break does.
-/

namespace StepSearch

/-! ### From the population to the file and back -/

theorem PopulationSources.build_file {σ : Type} [WordSource σ] {least greatest : Nat}
    (hle : least ≤ greatest) (metric : Metric) {files : FileStore} {path : String}
    {chromosomes : List Chromosome} (h : files.readChromosomes path = .ok chromosomes) (g : σ) :
    outcome (build
        { leastLength := least, greatestLength := greatest, files := [path] } metric files) g =
      (.ok (.ofChromosomes metric chromosomes), g) := by
  have hnone : Chromosome.parseAll [] = .ok [] := rfl
  obtain ⟨random, g', hrandom, hbuild⟩ := build_of_legible
    (s := { leastLength := least, greatestLength := greatest, files := [path] }) files metric g hle
    hnone
  obtain ⟨rfl, rfl⟩ : random = [] ∧ g' = g := by
    cases hrandom
    exact ⟨rfl, rfl⟩
  have hfound : [path].mapM files.readChromosomes = .ok [chromosomes] := by
    rw [List.mapM_cons, h]
    rfl
  rw [hbuild, hfound]
  simp only [Except.map, Except.mapError, List.nil_append, List.flatten_cons, List.flatten_nil,
    List.append_nil]

theorem Progress.next_bestFitness {p : Population} {best : Individual} (progress : Progress)
    (h : p.best? = some best) : ∃ least, (progress.next p).bestFitness = some least := by
  unfold next
  cases hseen : progress.bestFitness with
  | none => exact ⟨best.fitness, by simp only [h]⟩
  | some least => exact ⟨min least best.fitness, by simp only [h]⟩

namespace Run

variable {σ : Type} [WordSource σ] {algorithm : Algorithm σ} {bounds : Option (Nat × Nat)}

theorem rounds_autosaved {path : String} {n : Nat} {progress progress' : Progress} {s t : State σ}
    (hn : 1 ≤ n)
    (h : outcome (rounds algorithm bounds (some path) n progress) s = (.ok progress', t)) :
    t.bench.files.readChromosomes path = .ok t.population.chromosomes := by
  obtain ⟨m, rfl⟩ : ∃ m, n = m + 1 := ⟨n - 1, by omega⟩
  obtain ⟨middle, u, -, hlast⟩ := rounds_add_ok h
  obtain ⟨progress'', t', hround, hdone⟩ := bind_ok hlast
  obtain ⟨rfl, rfl⟩ := pure_ok hdone
  obtain ⟨-, -, hsaved⟩ := round_ok hround
  exact FileStore.readChromosomes_of_writeChromosomes hsaved

theorem rounds_best {strategy : Strategy} {path : Option String} {n : Nat}
    {progress progress' : Progress} {s t : State σ} (hn : 1 ≤ n)
    (h : outcome (rounds strategy.toAlgorithm bounds path n progress) s = (.ok progress', t)) :
    ∃ least, progress'.bestFitness = some least := by
  have hknown : progress'.rounds = progress.rounds ∨ ∃ least, progress'.bestFitness = some least := by
    refine rounds_induction (fun current _ =>
      current.rounds = progress.rounds ∨ ∃ least, current.bestFitness = some least) ?_ h (.inl rfl)
    intro current p q g g' _ hoffspring
    obtain ⟨best, hbest⟩ := Population.best?_isSome (offspring_ok hoffspring).ne_nil
    exact .inr (current.next_bestFitness hbest)
  rcases hknown with hnone | hknown
  · have hcount := rounds_count h
    omega
  · exact hknown

theorem rounds_evaluated {strategy : Strategy} {path : Option String} {n : Nat}
    {progress progress' : Progress} {s t : State σ} (hs : s.population.Evaluated)
    (h : outcome (rounds strategy.toAlgorithm bounds path n progress) s = (.ok progress', t)) :
    t.population.Evaluated ∧ t.population.metric = s.population.metric := by
  refine rounds_induction
    (fun _ p => p.Evaluated ∧ p.metric = s.population.metric) ?_ h ⟨hs, rfl⟩
  intro _ p q g g' hp hoffspring
  have hdescends := offspring_ok hoffspring
  exact ⟨hdescends.evaluated hp.1, hdescends.metric_eq.trans hp.2⟩

end Run

/-! ### Two runs for one -/

/-- The same options for so many rounds, with the given population file. -/
def RunOptions.upTo (o : RunOptions) (n : Nat) (path : Option String) : RunOptions :=
  { o with maxRounds := some n, autosave := path }

namespace Run

variable {σ : Type} [WordSource σ]

theorem execute_upTo (algorithm : Algorithm σ) {settings : RunOptions} {bounds : Option (Nat × Nat)}
    (hbounds : settings.duplicateBounds = .ok bounds) (n : Nat) (path : Option String)
    (allotment : Nat) (s : State σ) :
    ∃ journal, outcome (execute algorithm (settings.upTo n path) allotment) s =
      ((outcome (rounds algorithm bounds path n {}) s).1.map some,
        { (outcome (rounds algorithm bounds path n {}) s).2 with
          bench := { (outcome (rounds algorithm bounds path n {}) s).2.bench with journal } }) := by
  have hbounds' : (settings.upTo n path).duplicateBounds = .ok bounds := hbounds
  exact execute_eq_rounds algorithm hbounds' allotment s rfl

theorem execute_refused {algorithm : Algorithm σ} {settings : RunOptions} {fault : ConfigurationFault}
    (hfault : settings.duplicateBounds = .error fault) (n : Nat) (path : Option String)
    (allotment : Nat) (s : State σ) :
    outcome (execute algorithm (settings.upTo n path) allotment) s =
      (.error (.error (.configuration fault)), s) := by
  have hfault' : (settings.upTo n path).duplicateBounds = .error fault := hfault
  exact execute_of_fault hfault' allotment s

/-- How the result of a run, the result of `b` more rounds after it and the result of a single run
belong together: both fail alike, or the best fitness of the single run is the lesser one. -/
def Joined (b : Nat) (first : Progress) (rest single : Except Failure (Option Progress)) : Prop :=
  (∃ failure, rest = .error failure ∧ single = .error failure) ∨
  ∃ last total, rest = .ok (some last) ∧ single = .ok (some total) ∧
    total.rounds = first.rounds + b ∧
    (b = 0 → total.bestFitness = first.bestFitness) ∧
    (1 ≤ b → ∃ m n, first.bestFitness = some m ∧ last.bestFitness = some n ∧
      total.bestFitness = some (min m n))

variable {strategy : Strategy} {settings : RunOptions} {bounds : Option (Nat × Nat)} {a b : Nat}
  {path path' path'' : Option String} {start alone saved resumed : State σ}

/-- The first rounds of the single run are those of the run that is taken up again later. -/
theorem rounds_head_agrees {first : Except Failure Progress} (halone : start.Agrees alone)
    (hfirst : outcome (rounds strategy.toAlgorithm bounds path a {}) start = (first, saved))
    (hquiet : Undisturbed first)
    (hsingle : Undisturbed
      (outcome (rounds strategy.toAlgorithm bounds path' (a + b) {}) alone).1) :
    ∃ u, outcome (rounds strategy.toAlgorithm bounds path' a {}) alone = (first, u) ∧
      saved.Agrees u := by
  rw [rounds_add] at hsingle
  have hquiet' : Undisturbed (outcome (rounds strategy.toAlgorithm bounds path a {}) start).1 := by
    rw [hfirst]
    exact hquiet
  have hagree := rounds_agree {} {} halone hquiet' hsingle.of_bind
  rw [hfirst, Progress.followedBy_start] at hagree
  obtain ⟨hstate, hresult⟩ := hagree
  rcases hhead : outcome (rounds strategy.toAlgorithm bounds path' a {}) alone with ⟨result, u⟩
  rw [hhead] at hstate hresult
  refine ⟨u, ?_, hstate⟩
  cases first with
  | error failure =>
    cases hresult
    rfl
  | ok progress =>
    simp only [Except.map, Progress.start_followedBy] at hresult
    rw [hresult]

theorem rounds_failed_agree {failure : Failure} (halone : start.Agrees alone)
    (hfirst : outcome (rounds strategy.toAlgorithm bounds path a {}) start =
      (.error failure, saved))
    (hquiet : Undisturbed (.error failure : Except Failure Progress))
    (hsingle : Undisturbed
      (outcome (rounds strategy.toAlgorithm bounds path' (a + b) {}) alone).1) :
    (outcome (rounds strategy.toAlgorithm bounds path' (a + b) {}) alone).1 = .error failure ∧
      saved.Agrees (outcome (rounds strategy.toAlgorithm bounds path' (a + b) {}) alone).2 := by
  obtain ⟨u, hhead, hstate⟩ := rounds_head_agrees halone hfirst hquiet hsingle
  rw [rounds_add, outcome_bind, hhead]
  exact ⟨rfl, hstate⟩

theorem rounds_resumed_agree {first : Progress} (halone : start.Agrees alone)
    (hfirst : outcome (rounds strategy.toAlgorithm bounds path a {}) start = (.ok first, saved))
    (hsingle : Undisturbed
      (outcome (rounds strategy.toAlgorithm bounds path' (a + b) {}) alone).1)
    (hresumed : saved.Agrees resumed)
    (hrest : Undisturbed (outcome (rounds strategy.toAlgorithm bounds path'' b {}) resumed).1) :
    (outcome (rounds strategy.toAlgorithm bounds path'' b {}) resumed).2.Agrees
        (outcome (rounds strategy.toAlgorithm bounds path' (a + b) {}) alone).2 ∧
      (outcome (rounds strategy.toAlgorithm bounds path' (a + b) {}) alone).1 =
        (outcome (rounds strategy.toAlgorithm bounds path'' b {}) resumed).1.map
          first.followedBy := by
  obtain ⟨u, hhead, hstate⟩ := rounds_head_agrees halone hfirst (Undisturbed.ok first) hsingle
  rw [rounds_add, outcome_bind, hhead] at hsingle ⊢
  -- The run that is taken up counts its rounds from zero, the single one goes on from `first`.
  rw [← Progress.followedBy_start first] at hsingle
  have hcontinue := rounds_agree first {} (hresumed.symm.trans hstate) hrest hsingle
  rwa [Progress.followedBy_start] at hcontinue

theorem rounds_joined {first : Progress} (ha : 1 ≤ a)
    (hfirst : outcome (rounds strategy.toAlgorithm bounds path a {}) start = (.ok first, saved)) :
    Joined b first ((outcome (rounds strategy.toAlgorithm bounds path' b {}) resumed).1.map some)
      (((outcome (rounds strategy.toAlgorithm bounds path' b {}) resumed).1.map
        first.followedBy).map some) := by
  rcases hrest : outcome (rounds strategy.toAlgorithm bounds path' b {}) resumed with
    ⟨failure | last, t⟩
  · exact .inl ⟨failure, rfl, rfl⟩
  · refine .inr ⟨last, first.followedBy last, rfl, rfl, ?_, ?_, ?_⟩
    · rw [Progress.followedBy, rounds_count hrest]
      show first.rounds + (0 + b) = first.rounds + b
      rw [Nat.zero_add]
    · rintro rfl
      obtain ⟨rfl, -⟩ := pure_ok hrest
      rw [Progress.followedBy_start]
    · intro hb
      obtain ⟨m, hm⟩ := rounds_best ha hfirst
      obtain ⟨n, hn⟩ := rounds_best hb hrest
      refine ⟨m, n, hm, hn, ?_⟩
      rw [Progress.followedBy, hm, hn]
      rfl

/-- A run of `a` rounds, taken up again from its population file for `b` more, does what a single
run of `a + b` rounds does. The file gives the individuals back as they are without drawing
anything. If the first run fails, the single one fails in the same way. -/
theorem resumed_run_continues {allotment : Nat} {path : String} {metric : Metric}
    {least greatest : Nat} {final : State σ} {first single : Except Failure (Option Progress)}
    (hevaluated : start.population.Evaluated) (ha : 1 ≤ a) (hle : least ≤ greatest)
    (hmetric : metric.evaluate = start.population.metric.evaluate)
    (hfirst : outcome (execute strategy.toAlgorithm (settings.upTo a (some path)) allotment) start =
      (first, saved))
    (hquiet : Undisturbed first) (halone : start.Agrees alone)
    (hsingle : outcome (execute strategy.toAlgorithm (settings.upTo (a + b) path') allotment) alone =
      (single, final))
    (hquiet' : Undisturbed single) :
    (∀ failure, first = .error failure → single = .error failure ∧ saved.Agrees final) ∧
    ∀ summary, first = .ok summary → ∃ progress q, summary = some progress ∧
      outcome (PopulationSources.build
          { leastLength := least, greatestLength := greatest, files := [path] }
          metric saved.bench.files) saved.bench.generator = (.ok q, saved.bench.generator) ∧
      q.individuals = saved.population.individuals ∧
      ∀ resumed path'' rest last, resumed.population = q →
        resumed.bench.generator = saved.bench.generator →
        outcome (execute strategy.toAlgorithm (settings.upTo b path'') allotment) resumed =
          (rest, last) →
        Undisturbed rest → last.Agrees final ∧ Joined b progress rest single := by
  cases hbounds : settings.duplicateBounds with
  | error fault =>
    rw [execute_refused hbounds] at hfirst hsingle
    cases hfirst
    cases hsingle
    exact ⟨fun failure hfailure => ⟨hfailure, halone⟩, fun summary hsummary => by cases hsummary⟩
  | ok bounds =>
    obtain ⟨journal, hexecute⟩ :=
      execute_upTo strategy.toAlgorithm hbounds a (some path) allotment start
    obtain ⟨journal', hexecute'⟩ :=
      execute_upTo strategy.toAlgorithm hbounds (a + b) path' allotment alone
    rw [hexecute] at hfirst
    rw [hexecute'] at hsingle
    cases hfirst
    cases hsingle
    have hwhole := hquiet'.of_map
    rcases hrounds : outcome (rounds strategy.toAlgorithm bounds (some path) a {}) start with
      ⟨failure | progress, u⟩
    · rw [hrounds] at hquiet
      obtain ⟨hresult, hstate⟩ := rounds_failed_agree halone hrounds hquiet.of_map hwhole
      refine ⟨fun failure' hfailure => ?_, fun summary hsummary => by cases hsummary⟩
      rw [hresult]
      exact ⟨hfailure, hstate.individuals, hstate.evaluate, hstate.generator⟩
    · refine ⟨fun failure hfailure => (by cases hfailure), fun summary hsummary => ?_⟩
      -- The file keeps chromosomes only, so the fitness that is computed anew has to be the old one.
      obtain ⟨hfits, hsame⟩ := rounds_evaluated hevaluated hrounds
      have hindividuals : (Population.ofChromosomes metric u.population.chromosomes).individuals =
          u.population.individuals := by
        refine map_ofChromosome_of_fits fun i hi => ?_
        rw [Individual.Fits, hmetric, ← hsame]
        exact hfits i hi
      refine ⟨progress, .ofChromosomes metric u.population.chromosomes, ?_, ?_, ?_, ?_⟩
      · cases hsummary
        rfl
      · exact PopulationSources.build_file hle metric (rounds_autosaved ha hrounds) _
      · exact hindividuals
      · intro resumed path'' rest last hpopulation hgenerator hrest hquiet''
        obtain ⟨journal'', hexecute''⟩ :=
          execute_upTo strategy.toAlgorithm hbounds b path'' allotment resumed
        rw [hexecute''] at hrest
        cases hrest
        have hresumed : u.Agrees resumed := by
          refine ⟨?_, ?_, hgenerator⟩
          · rw [hpopulation]
            exact hindividuals
          · rw [hpopulation, hsame]
            exact hmetric
        obtain ⟨hstate, hresult⟩ :=
          rounds_resumed_agree halone hrounds hwhole hresumed hquiet''.of_map
        rw [hresult]
        exact ⟨⟨hstate.individuals, hstate.evaluate, hstate.generator⟩, rounds_joined ha hrounds⟩

theorem resumed_small_search : ∃ first saved q,
    outcome (execute smallStrategy.toAlgorithm ((smallOptions none).upTo 1 (some "p")) 0)
      smallStart = (.ok (some first), saved) ∧
    outcome (PopulationSources.build { files := ["p"] } (.chromosomeLength 7) saved.bench.files)
      saved.bench.generator = (.ok q, saved.bench.generator) ∧
    ∃ rest last single final,
      outcome (execute smallStrategy.toAlgorithm ((smallOptions none).upTo 1 none) 0)
        ⟨{ generator := saved.bench.generator }, q⟩ = (rest, last) ∧
      outcome (execute smallStrategy.toAlgorithm ((smallOptions none).upTo 2 none) 0)
        smallStart = (single, final) ∧
      last.Agrees final ∧ Joined 1 first rest single := by
  have hsaving : ∀ file, some "p" = some file → ∀ chromosomes,
      (outcome (FileStore.writeChromosomes file chromosomes) {}).1 = .ok () := by
    rintro _ ⟨⟩ chromosomes
    rfl
  obtain ⟨first, saved, hfirst⟩ := smallStart_execute (some "p") hsaving
  have hquiet := execute_undisturbed smallStrategy ((smallOptions none).upTo 2 none) rfl 0
    (s := smallStart) rfl
  rcases hsingle : outcome (execute smallStrategy.toAlgorithm ((smallOptions none).upTo 2 none) 0)
    smallStart with ⟨single, final⟩
  rw [hsingle] at hquiet
  have hfirst' : outcome (execute smallStrategy.toAlgorithm
      ((smallOptions none).upTo 1 (some "p")) 0) smallStart = (.ok (some first), saved) := hfirst
  have hmetric : (Metric.chromosomeLength 7).evaluate = smallStart.population.metric.evaluate := rfl
  have hnone : 0 ≤ 0 := Nat.le_refl 0
  obtain ⟨-, hresumed⟩ := resumed_run_continues (b := 1)
    (Population.ofChromosomes_evaluated _ _) (Nat.le_refl 1) hnone hmetric hfirst'
    (Undisturbed.ok _) ⟨rfl, rfl, rfl⟩ hsingle hquiet
  obtain ⟨progress, q, hprogress, hbuild, -, hcontinued⟩ := hresumed (some first) rfl
  cases hprogress
  have hquiet' := execute_undisturbed smallStrategy ((smallOptions none).upTo 1 none) rfl 0
    (s := ⟨{ generator := saved.bench.generator }, q⟩) rfl
  rcases hrest : outcome (execute smallStrategy.toAlgorithm ((smallOptions none).upTo 1 none) 0)
    ⟨{ generator := saved.bench.generator }, q⟩ with ⟨rest, last⟩
  rw [hrest] at hquiet'
  exact ⟨first, saved, q, hfirst, hbuild, rest, last, single, final, hrest, rfl,
    hcontinued ⟨{ generator := saved.bench.generator }, q⟩ none rest last rfl rfl hrest hquiet'⟩

end Run

end StepSearch
