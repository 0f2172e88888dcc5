import StepSearch.Proofs.Totality
import StepSearch.Random.Keystream

/-!
# Rounds

A round has four ways to end: the report is refused, there is no next generation, the next
generation cannot be saved, or the round is completed. What each of them means for the population,
the generator, the output and the files is said once, in `RoundOutcome`; everything about runs is
derived from it by induction on the number of rounds.
-/

namespace StepSearch

theorem Sink.write_accepted {s t : Sink} {text : String} (h : s.write text = (true, t)) :
    t.written = s.written ++ text.toUTF8 := by
  unfold write at h
  cases hcapacity : s.capacity with
  | none =>
    simp only [hcapacity] at h
    cases h
    rfl
  | some capacity =>
    simp only [hcapacity] at h
    split at h
    · cases h
      rfl
    · cases h

namespace Run

variable {σ α : Type}

/-! ### The parts of a round -/

theorem outcome_onBench (action : Session σ α) (s : State σ) :
    outcome (onBench action) s =
      ((outcome action s.bench).1, { s with bench := (outcome action s.bench).2 }) := rfl

theorem outcome_report (round : Nat) (s : State σ) :
    outcome (report round) s =
      (if (s.bench.output.write (reportText round s.population)).1 then .ok ()
        else .error (.error (.report Sink.refusal)),
      { s with bench := { s.bench with
        output := (s.bench.output.write (reportText round s.population)).2 } }) := rfl

/-- A report touches nothing but the output. -/
theorem report_eq {round : Nat} {s t : State σ} {result : Except Failure Unit}
    (h : outcome (report round) s = (result, t)) :
    t.population = s.population ∧ t.bench.generator = s.bench.generator ∧
      t.bench.files = s.bench.files := by
  rw [outcome_report] at h
  cases h
  exact ⟨rfl, rfl, rfl⟩

theorem outcome_install (round : Nat) (next : Population) (s : State σ) :
    ∃ journal, outcome (install round next) s =
      (.ok (), { bench := { s.bench with journal }, population := next }) := by
  unfold install
  cases hbest : next.best? with
  | none => exact ⟨s.bench.journal, rfl⟩
  | some best => exact ⟨s.bench.journal.push (.roundCompleted round best), rfl⟩

theorem outcome_save (path : String) (chromosomes : List Chromosome) (bench : Workbench σ) :
    outcome (Session.save path chromosomes) bench =
      ((outcome (FileStore.writeChromosomes path chromosomes) bench.files).1.mapError Failure.error,
        { bench with
          files := (outcome (FileStore.writeChromosomes path chromosomes) bench.files).2 }) := rfl

theorem outcome_autosave_some (path : String) (s : State σ) :
    ∃ journal, outcome (autosave (some path)) s =
      ((outcome (FileStore.writeChromosomes path s.population.chromosomes) s.bench.files).1.mapError
        Failure.error,
      { s with bench := { s.bench with
        files :=
          (outcome (FileStore.writeChromosomes path s.population.chromosomes) s.bench.files).2
        journal } }) := by
  unfold autosave
  simp only [outcome_bind, outcome_get, outcome_onBench, outcome_save]
  rcases outcome (FileStore.writeChromosomes path s.population.chromosomes) s.bench.files with
    ⟨cause | _, files⟩
  · exact ⟨s.bench.journal, rfl⟩
  · exact ⟨s.bench.journal.push (.populationSaved path), rfl⟩

variable [WordSource σ]

theorem outcome_breeding (algorithm : Algorithm σ) (bounds : Option (Nat × Nat)) (p : Population)
    (bench : Workbench σ) :
    ∃ journal, outcome (do
        let next ← Session.search (algorithm.advance p)
        match bounds with
        | none => return next
        | some (least, greatest) =>
          let distinct ← Session.search (Search.ofDraw (next.randomiseDuplicates least greatest))
          if 0 < next.duplicateCount then
            Session.log (.duplicatesRandomised next.duplicateCount)
          return distinct) bench =
      ((outcome (offspring algorithm bounds p) bench.generator).1,
        { bench with
          generator := (outcome (offspring algorithm bounds p) bench.generator).2
          journal }) := by
  unfold offspring
  simp only [outcome_bind, outcome_search]
  rcases outcome (algorithm.advance p) bench.generator with ⟨failure | next, g⟩
  · exact ⟨bench.journal, rfl⟩
  · cases bounds with
    | none => exact ⟨bench.journal, rfl⟩
    | some range =>
      simp only [outcome_bind, outcome_search]
      rcases outcome (Search.ofDraw (next.randomiseDuplicates range.1 range.2)) g with
        ⟨failure | distinct, g'⟩
      · exact ⟨bench.journal, rfl⟩
      · -- The count of the replacements goes to the journal only.
        by_cases hcount : 0 < next.duplicateCount
        · refine ⟨bench.journal.push (.duplicatesRandomised next.duplicateCount), ?_⟩
          simp only [if_pos hcount]
          rfl
        · refine ⟨bench.journal, ?_⟩
          simp only [if_neg hcount]
          rfl

/-- Apart from the journal, the making of the next generation is `offspring`. -/
theorem outcome_successor (algorithm : Algorithm σ) (bounds : Option (Nat × Nat)) (s : State σ) :
    ∃ journal, outcome (successor algorithm bounds) s =
      ((outcome (offspring algorithm bounds s.population) s.bench.generator).1,
        { s with bench := { s.bench with
          generator := (outcome (offspring algorithm bounds s.population) s.bench.generator).2
          journal } }) := by
  unfold successor
  simp only [outcome_bind, outcome_get, outcome_onBench]
  cases algorithm.plan s.population with
  | none =>
    obtain ⟨journal, h⟩ := outcome_breeding algorithm bounds s.population s.bench
    exact ⟨journal, congrArg (fun o => (o.1, { s with bench := o.2 })) h⟩
  | some plan =>
    obtain ⟨journal, h⟩ := outcome_breeding algorithm bounds s.population
      { s.bench with journal := s.bench.journal.push (.roundPlanned plan) }
    exact ⟨journal, congrArg (fun o => (o.1, { s with bench := o.2 })) h⟩

/-- The next generation is made beside the population and the files. -/
theorem successor_eq {algorithm : Algorithm σ} {bounds : Option (Nat × Nat)} {s t : State σ}
    {result : Except Failure Population}
    (h : outcome (successor algorithm bounds) s = (result, t)) :
    outcome (offspring algorithm bounds s.population) s.bench.generator =
        (result, t.bench.generator) ∧
      t.population = s.population ∧ t.bench.files = s.bench.files := by
  obtain ⟨journal, hsuccessor⟩ := outcome_successor algorithm bounds s
  rw [hsuccessor] at h
  cases h
  exact ⟨rfl, rfl, rfl⟩

/-! ### One round -/

/-- What an autosave that succeeds does to the files. -/
def Saved (path : Option String) (p : Population) (before after : FileStore) : Prop :=
  match path with
  | none => after = before
  | some file => outcome (FileStore.writeChromosomes file p.chromosomes) before = (.ok (), after)

/-- How a round that starts in the state `s` may end, and in which states. The journal is left out:
nothing else depends on it. -/
inductive RoundOutcome (algorithm : Algorithm σ) (bounds : Option (Nat × Nat))
    (path : Option String) (progress : Progress) (s : State σ) :
    Except Failure Progress → State σ → Prop where
  | unreported {t : State σ}
      (output : s.bench.output.write (reportText (progress.rounds + 1) s.population) =
        (false, t.bench.output))
      (population : t.population = s.population)
      (generator : t.bench.generator = s.bench.generator)
      (files : t.bench.files = s.bench.files) :
      RoundOutcome algorithm bounds path progress s (.error (.error (.report Sink.refusal))) t
  | childless {failure : Failure} {t : State σ}
      (output : s.bench.output.write (reportText (progress.rounds + 1) s.population) =
        (true, t.bench.output))
      (offspring : outcome (offspring algorithm bounds s.population) s.bench.generator =
        (.error failure, t.bench.generator))
      (population : t.population = s.population)
      (files : t.bench.files = s.bench.files) :
      RoundOutcome algorithm bounds path progress s (.error failure) t
  | unsaved {file : String} {cause : SearchError} {t : State σ}
      (output : s.bench.output.write (reportText (progress.rounds + 1) s.population) =
        (true, t.bench.output))
      (offspring : outcome (offspring algorithm bounds s.population) s.bench.generator =
        (.ok t.population, t.bench.generator))
      (path_eq : path = some file)
      (files : outcome (FileStore.writeChromosomes file t.population.chromosomes) s.bench.files =
        (.error cause, t.bench.files)) :
      RoundOutcome algorithm bounds path progress s (.error (.error cause)) t
  | completed {t : State σ}
      (output : s.bench.output.write (reportText (progress.rounds + 1) s.population) =
        (true, t.bench.output))
      (offspring : outcome (offspring algorithm bounds s.population) s.bench.generator =
        (.ok t.population, t.bench.generator))
      (files : Saved path t.population s.bench.files t.bench.files) :
      RoundOutcome algorithm bounds path progress s (.ok (progress.next t.population)) t

theorem round_outcome (algorithm : Algorithm σ) (bounds : Option (Nat × Nat))
    (path : Option String) (progress : Progress) (s : State σ) :
    RoundOutcome algorithm bounds path progress s
      (outcome (round algorithm bounds path progress) s).1
      (outcome (round algorithm bounds path progress) s).2 := by
  unfold round
  rw [outcome_bind, outcome_report]
  rcases hwrite : s.bench.output.write (reportText (progress.rounds + 1) s.population) with
    ⟨_ | _, output⟩
  · exact .unreported hwrite rfl rfl rfl
  · obtain ⟨journal, hsuccessor⟩ := outcome_successor algorithm bounds
      { s with bench := { s.bench with output } }
    simp only [if_true]
    rw [outcome_bind, hsuccessor]
    rcases hoffspring : outcome (offspring algorithm bounds s.population) s.bench.generator with
      ⟨failure | next, g⟩
    · exact .childless hwrite hoffspring rfl rfl
    · obtain ⟨journal', hinstall⟩ := outcome_install (progress.rounds + 1) next
        { s with bench := { s.bench with output, generator := g, journal } }
      simp only
      rw [outcome_bind, hinstall]
      cases path with
      | none =>
        exact .completed (t := ⟨{ s.bench with output, generator := g, journal := journal' }, next⟩)
          hwrite hoffspring rfl
      | some file =>
        obtain ⟨journal'', hautosave⟩ := outcome_autosave_some file
          { bench := { s.bench with output, generator := g, journal := journal' }
            population := next }
        simp only
        rw [outcome_bind, hautosave]
        rcases hfiles : outcome (FileStore.writeChromosomes file next.chromosomes)
          s.bench.files with ⟨cause | _, files⟩
        · exact .unsaved hwrite hoffspring rfl hfiles
        · exact .completed
            (t := ⟨{ s.bench with output, generator := g, files, journal := journal'' }, next⟩)
            hwrite hoffspring hfiles

theorem round_ok {algorithm : Algorithm σ} {bounds : Option (Nat × Nat)} {path : Option String}
    {progress progress' : Progress} {s t : State σ}
    (h : outcome (round algorithm bounds path progress) s = (.ok progress', t)) :
    outcome (offspring algorithm bounds s.population) s.bench.generator =
      (.ok t.population, t.bench.generator) ∧
    progress' = progress.next t.population ∧
    Saved path t.population s.bench.files t.bench.files := by
  have hround := round_outcome algorithm bounds path progress s
  simp only [h] at hround
  cases hround with
  | completed _ hoffspring hfiles => exact ⟨hoffspring, rfl, hfiles⟩

/-- However a round ends, the population is the one before it or the next generation. -/
theorem round_population {algorithm : Algorithm σ} {bounds : Option (Nat × Nat)}
    {path : Option String} {progress : Progress} {s t : State σ} {result : Except Failure Progress}
    (h : outcome (round algorithm bounds path progress) s = (result, t)) :
    t.population = s.population ∨
      outcome (offspring algorithm bounds s.population) s.bench.generator =
        (.ok t.population, t.bench.generator) := by
  have hround := round_outcome algorithm bounds path progress s
  simp only [h] at hround
  cases hround with
  | unreported _ hpopulation => exact .inl hpopulation
  | childless _ _ hpopulation => exact .inl hpopulation
  | unsaved _ hoffspring => exact .inr hoffspring
  | completed _ hoffspring => exact .inr hoffspring

/-- A round that is not disturbed is completed if there is a next generation. -/
theorem round_completed {algorithm : Algorithm σ} {bounds : Option (Nat × Nat)}
    {path : Option String} (progress : Progress) {s : State σ} {q : Population} {g : σ}
    (hout : (s.bench.output.write (reportText (progress.rounds + 1) s.population)).1 = true)
    (hq : outcome (offspring algorithm bounds s.population) s.bench.generator = (.ok q, g))
    (hfiles : ∀ file, path = some file →
      (outcome (FileStore.writeChromosomes file q.chromosomes) s.bench.files).1 = .ok ()) :
    ∃ t, outcome (round algorithm bounds path progress) s = (.ok (progress.next q), t) ∧
      t.population = q ∧
      t.bench.output =
        (s.bench.output.write (reportText (progress.rounds + 1) s.population)).2 := by
  have hround := round_outcome algorithm bounds path progress s
  rcases hresult : outcome (round algorithm bounds path progress) s with ⟨result, t⟩
  simp only [hresult] at hround
  cases hround with
  | unreported houtput =>
    rw [houtput] at hout
    cases hout
  | childless _ hoffspring =>
    rw [hq] at hoffspring
    cases hoffspring
  | unsaved _ hoffspring hpath hwrite =>
    rw [hq] at hoffspring
    obtain ⟨hok, -⟩ := Prod.mk.inj hoffspring
    cases Except.ok.inj hok
    have hwritten := hfiles _ hpath
    rw [hwrite] at hwritten
    cases hwritten
  | completed houtput hoffspring =>
    rw [hq] at hoffspring
    obtain ⟨hok, -⟩ := Prod.mk.inj hoffspring
    cases Except.ok.inj hok
    exact ⟨t, rfl, rfl, by rw [houtput]⟩

/-! ### Several rounds -/

variable {algorithm : Algorithm σ} {bounds : Option (Nat × Nat)} {path : Option String}

theorem rounds_succ (n : Nat) (progress : Progress) :
    rounds algorithm bounds path (n + 1) progress =
      round algorithm bounds path progress >>= rounds algorithm bounds path n := rfl

theorem rounds_one {progress progress' : Progress} {s t : State σ}
    (h : outcome (round algorithm bounds path progress) s = (.ok progress', t)) :
    outcome (rounds algorithm bounds path 1 progress) s = (.ok progress', t) := by
  rw [rounds_succ, bind_of_ok h]
  rfl

/-- Rounds may be counted in two parts. -/
theorem rounds_add (m n : Nat) (progress : Progress) :
    rounds algorithm bounds path (m + n) progress =
      rounds algorithm bounds path m progress >>= rounds algorithm bounds path n := by
  induction m generalizing progress with
  | zero => rw [Nat.zero_add, rounds, pure_bind]
  | succ m ih =>
    rw [Nat.succ_add, rounds_succ, rounds_succ, bind_assoc]
    exact congrArg _ (funext ih)

theorem rounds_add_ok {m n : Nat} {progress progress' : Progress} {s t : State σ}
    (h : outcome (rounds algorithm bounds path (m + n) progress) s = (.ok progress', t)) :
    ∃ middle u, outcome (rounds algorithm bounds path m progress) s = (.ok middle, u) ∧
      outcome (rounds algorithm bounds path n middle) u = (.ok progress', t) := by
  rw [rounds_add] at h
  exact bind_ok h

theorem rounds_last_ok {n : Nat} {progress progress' : Progress} {s t : State σ}
    (h : outcome (rounds algorithm bounds path (n + 1) progress) s = (.ok progress', t)) :
    ∃ middle u, outcome (rounds algorithm bounds path n progress) s = (.ok middle, u) ∧
      outcome (round algorithm bounds path middle) u = (.ok progress', t) := by
  obtain ⟨middle, u, hrounds, hlast⟩ := rounds_add_ok h
  obtain ⟨progress'', v, hround, hdone⟩ := bind_ok hlast
  obtain ⟨rfl, rfl⟩ := pure_ok hdone
  exact ⟨middle, u, hrounds, hround⟩

/-- What every generation hands on to the next one holds at the end of a run. -/
theorem rounds_induction (Holds : Progress → Population → Prop)
    (step : ∀ progress p q g g', Holds progress p →
      outcome (offspring algorithm bounds p) g = (.ok q, g') → Holds (progress.next q) q)
    {n : Nat} {progress progress' : Progress} {s t : State σ}
    (h : outcome (rounds algorithm bounds path n progress) s = (.ok progress', t))
    (hs : Holds progress s.population) : Holds progress' t.population := by
  induction n generalizing progress s with
  | zero =>
    obtain ⟨rfl, rfl⟩ := pure_ok h
    exact hs
  | succ n ih =>
    obtain ⟨middle, u, hround, hrest⟩ := bind_ok h
    obtain ⟨hoffspring, rfl, -⟩ := round_ok hround
    exact ih hrest (step _ _ _ _ _ hs hoffspring)

/-- What holds of the first population and of every offspring of a population of which it holds,
holds of the population at the end of a run, also if the run fails. -/
theorem rounds_invariant (Holds : Population → Prop)
    (step : ∀ p q g g', Holds p → outcome (offspring algorithm bounds p) g = (.ok q, g') → Holds q)
    {n : Nat} {progress : Progress} {s t : State σ} {result : Except Failure Progress}
    (h : outcome (rounds algorithm bounds path n progress) s = (result, t))
    (hs : Holds s.population) : Holds t.population := by
  induction n generalizing progress s with
  | zero =>
    cases h
    exact hs
  | succ n ih =>
    rw [rounds_succ, outcome_bind] at h
    rcases hround : outcome (round algorithm bounds path progress) s with ⟨first, u⟩
    have hu : Holds u.population := by
      rcases round_population hround with hsame | hoffspring
      · rw [hsame]
        exact hs
      · exact step _ _ _ _ hs hoffspring
    rw [hround] at h
    cases first with
    | error failure =>
      cases h
      exact hu
    | ok middle => exact ih h hu

theorem rounds_count {n : Nat} {progress progress' : Progress} {s t : State σ}
    (h : outcome (rounds algorithm bounds path n progress) s = (.ok progress', t)) :
    progress'.rounds = progress.rounds + n := by
  induction n generalizing progress s with
  | zero =>
    obtain ⟨rfl, rfl⟩ := pure_ok h
    rfl
  | succ n ih =>
    obtain ⟨middle, u, hround, hrest⟩ := bind_ok h
    obtain ⟨-, rfl, -⟩ := round_ok hround
    rw [ih hrest]
    show progress.rounds + 1 + n = progress.rounds + (n + 1)
    omega

/-- The population after `k` rounds, if so many are completed. -/
def generation? (algorithm : Algorithm σ) (bounds : Option (Nat × Nat)) (path : Option String)
    (s : State σ) (k : Nat) : Option Population :=
  match outcome (rounds algorithm bounds path k {}) s with
  | (.ok _, t) => some t.population
  | (.error _, _) => none

theorem generation?_zero (s : State σ) :
    generation? algorithm bounds path s 0 = some s.population := rfl

theorem generation?_of_ok {k : Nat} {progress : Progress} {s t : State σ}
    (h : outcome (rounds algorithm bounds path k {}) s = (.ok progress, t)) :
    generation? algorithm bounds path s k = some t.population := by
  unfold generation?
  rw [h]

theorem exists_of_generation? {k : Nat} {s : State σ} {p : Population}
    (h : generation? algorithm bounds path s k = some p) :
    ∃ progress t, outcome (rounds algorithm bounds path k {}) s = (.ok progress, t) ∧
      t.population = p := by
  unfold generation? at h
  rcases hk : outcome (rounds algorithm bounds path k {}) s with ⟨failure | progress, t⟩
  · rw [hk] at h
    cases h
  · rw [hk] at h
    cases h
    exact ⟨progress, t, rfl, rfl⟩

theorem generation?_induction (Holds : Population → Prop)
    (step : ∀ p q g g', Holds p → outcome (offspring algorithm bounds p) g = (.ok q, g') → Holds q)
    {k : Nat} {s : State σ} {p : Population}
    (h : generation? algorithm bounds path s k = some p) (hs : Holds s.population) : Holds p := by
  obtain ⟨progress, t, hk, rfl⟩ := exists_of_generation? h
  exact rounds_induction (fun _ => Holds) (fun _ => step) hk hs

/-- Every generation of a run that succeeds comes from the one before. -/
theorem generation?_succ {n k : Nat} {progress : Progress} {s t : State σ}
    (h : outcome (rounds algorithm bounds path n {}) s = (.ok progress, t)) (hk : k < n) :
    ∃ p q g g', generation? algorithm bounds path s k = some p ∧
      generation? algorithm bounds path s (k + 1) = some q ∧
      outcome (offspring algorithm bounds p) g = (.ok q, g') := by
  obtain ⟨rest, rfl⟩ : ∃ rest, n = k + 1 + rest := ⟨n - (k + 1), by omega⟩
  obtain ⟨middle, u, hsucc, -⟩ := rounds_add_ok h
  obtain ⟨first, v, hk, hround⟩ := rounds_last_ok hsucc
  obtain ⟨hoffspring, -, -⟩ := round_ok hround
  exact ⟨_, _, _, _, generation?_of_ok hk, generation?_of_ok hsucc, hoffspring⟩

theorem generation?_parent {k : Nat} {s : State σ} {q : Population}
    (h : generation? algorithm bounds path s (k + 1) = some q) :
    ∃ p g g', generation? algorithm bounds path s k = some p ∧
      outcome (offspring algorithm bounds p) g = (.ok q, g') := by
  obtain ⟨progress, t, hsucc, -⟩ := exists_of_generation? h
  obtain ⟨p, q', g, g', hp, hq, hoffspring⟩ := generation?_succ hsucc (Nat.lt_succ_self k)
  obtain rfl : q' = q := Option.some.inj (hq.symm.trans h)
  exact ⟨p, g, g', hp, hoffspring⟩

/-- However the rounds end, the population is that of a state between two of them, or the offspring of
that one, which could not be saved. -/
theorem rounds_population {n : Nat} {s t : State σ} {result : Except Failure Progress}
    (h : outcome (rounds algorithm bounds path n {}) s = (result, t)) :
    ∃ k progress u, k ≤ n ∧ outcome (rounds algorithm bounds path k {}) s = (.ok progress, u) ∧
      (t.population = u.population ∨ k < n ∧
        outcome (offspring algorithm bounds u.population) u.bench.generator =
          (.ok t.population, t.bench.generator)) := by
  induction n generalizing result t with
  | zero =>
    cases h
    exact ⟨0, {}, s, Nat.le_refl 0, rfl, .inl rfl⟩
  | succ n ih =>
    rw [rounds_add n 1, outcome_bind] at h
    rcases hn : outcome (rounds algorithm bounds path n {}) s with ⟨failure | middle, u⟩
    · rw [hn] at h
      cases h
      obtain ⟨k, progress, u, hk, hu, hlast⟩ := ih hn
      refine ⟨k, progress, u, Nat.le_succ_of_le hk, hu, hlast.imp_right ?_⟩
      exact fun ⟨hless, hoffspring⟩ => ⟨Nat.lt_succ_of_lt hless, hoffspring⟩
    · rw [hn] at h
      refine ⟨n, middle, u, Nat.le_succ n, hn, ?_⟩
      rcases hround : outcome (round algorithm bounds path middle) u with ⟨last, v⟩
      obtain rfl : v = t := by
        simp only [rounds_succ] at h
        rw [outcome_bind, hround] at h
        cases last with
        | error failure => exact (Prod.mk.inj h).2
        | ok progress => exact (Prod.mk.inj h).2
      refine (round_population hround).imp_right fun hoffspring => ?_
      exact ⟨Nat.lt_succ_self n, hoffspring⟩

/-! ### Whole runs -/

theorem execute_of_fault {options : RunOptions} {fault : ConfigurationFault}
    (h : options.duplicateBounds = .error fault) (allotment : Nat) (s : State σ) :
    outcome (execute algorithm options allotment) s =
      (.error (.error (.configuration fault)), s) := by
  unfold execute
  rw [outcome_bind, outcome_onBench, outcome_require, h]
  rfl

/-- A run with sensible bounds is its rounds, apart from the journal. It has a summary if there was
to be a last round. -/
theorem execute_eq_rounds (algorithm : Algorithm σ) {options : RunOptions}
    (hbounds : options.duplicateBounds = .ok bounds) (allotment : Nat) (s : State σ)
    {result : Except Failure Progress} {t : State σ}
    (hrounds : outcome (rounds algorithm bounds options.autosave
      (options.maxRounds.getD allotment) {}) s = (result, t)) :
    ∃ journal, outcome (execute algorithm options allotment) s =
      (result.map fun progress => options.maxRounds.map fun _ => progress,
        { t with bench := { t.bench with journal } }) := by
  unfold execute
  rw [outcome_bind, outcome_onBench, outcome_require, hbounds]
  simp only [Except.mapError_ok]
  cases hmax : options.maxRounds with
  | none =>
    rw [hmax, Option.getD_none] at hrounds
    simp only
    rw [outcome_bind, hrounds]
    cases result with
    | error failure => exact ⟨t.bench.journal, rfl⟩
    | ok progress => exact ⟨t.bench.journal, rfl⟩
  | some n =>
    rw [hmax, Option.getD_some] at hrounds
    simp only
    rw [outcome_bind, hrounds]
    cases result with
    | error failure => exact ⟨t.bench.journal, rfl⟩
    | ok progress => exact ⟨t.bench.journal.push (.runFinished progress.rounds), rfl⟩

theorem execute_population {options : RunOptions}
    (hbounds : options.duplicateBounds = .ok bounds) {allotment : Nat} {s t : State σ}
    {result : Except Failure (Option Progress)}
    (h : outcome (execute algorithm options allotment) s = (result, t)) :
    ∃ k progress u, k ≤ options.maxRounds.getD allotment ∧
      outcome (rounds algorithm bounds options.autosave k {}) s = (.ok progress, u) ∧
      (t.population = u.population ∨ k < options.maxRounds.getD allotment ∧
        outcome (offspring algorithm bounds u.population) u.bench.generator =
          (.ok t.population, t.bench.generator)) := by
  rcases hrounds : outcome (rounds algorithm bounds options.autosave
    (options.maxRounds.getD allotment) {}) s with ⟨last, u⟩
  have hlast := rounds_population hrounds
  obtain ⟨journal, hexecute⟩ := execute_eq_rounds algorithm hbounds allotment s hrounds
  rw [hexecute] at h
  cases h
  exact hlast

/-- What every offspring takes over from its parents holds at the end of a run, however it ends. -/
theorem execute_invariant (Holds : Population → Prop) {options : RunOptions}
    (hbounds : options.duplicateBounds = .ok bounds)
    (step : ∀ p q g g', Holds p → outcome (offspring algorithm bounds p) g = (.ok q, g') → Holds q)
    {allotment : Nat} {s t : State σ} {result : Except Failure (Option Progress)}
    (h : outcome (execute algorithm options allotment) s = (result, t))
    (hs : Holds s.population) : Holds t.population := by
  rcases hrounds : outcome (rounds algorithm bounds options.autosave
    (options.maxRounds.getD allotment) {}) s with ⟨last, u⟩
  have hlast := rounds_invariant Holds step hrounds hs
  obtain ⟨journal, hexecute⟩ := execute_eq_rounds algorithm hbounds allotment s hrounds
  rw [hexecute] at h
  cases h
  exact hlast

/-- A run that ends by itself and without a failure consists of as many rounds as are asked for. -/
theorem execute_ok {options : RunOptions} {allotment : Nat} {s t : State σ} {progress : Progress}
    (h : outcome (execute algorithm options allotment) s = (.ok (some progress), t)) :
    ∃ bounds n u, options.duplicateBounds = .ok bounds ∧ options.maxRounds = some n ∧
      outcome (rounds algorithm bounds options.autosave n {}) s = (.ok progress, u) ∧
      t.population = u.population ∧ t.bench.generator = u.bench.generator ∧
      t.bench.files = u.bench.files := by
  cases hbounds : options.duplicateBounds with
  | error fault =>
    rw [execute_of_fault hbounds] at h
    cases h
  | ok bounds =>
    rcases hrounds : outcome (rounds algorithm bounds options.autosave
      (options.maxRounds.getD allotment) {}) s with ⟨failure | last, u⟩
    · obtain ⟨journal, hexecute⟩ := execute_eq_rounds algorithm hbounds allotment s hrounds
      rw [hexecute] at h
      cases h
    · obtain ⟨journal, hexecute⟩ := execute_eq_rounds algorithm hbounds allotment s hrounds
      rw [hexecute] at h
      cases hmax : options.maxRounds with
      | none =>
        rw [hmax] at h
        cases h
      | some n =>
        rw [hmax] at h hrounds
        cases h
        exact ⟨bounds, n, u, rfl, rfl, hrounds, rfl, rfl, rfl⟩

/-! ### A small search -/

/-- Ten words, over and over, for four individuals of which two are alike. -/
def smallStart : State Script where
  bench := { generator := { words := #[5, 4000000000, 77, 900000000, 12, 3000000000, 1, 0, 60, 8] } }
  population := .ofChromosomes (.chromosomeLength 0)
    [⟨[.unusedPruner]⟩, ⟨[.unusedPruner]⟩, ⟨[.blockFlattener]⟩, ⟨[.fullInliner, .fullInliner]⟩]

/-- The usual options for chromosomes of at most four steps. -/
def smallStrategy : Strategy :=
  .gewep ⟨.standard 4, Except.eq_ok_of_isOk (by decide +kernel)⟩

theorem small_offspring (strategy : Strategy) {p : Population} (hp : p.individuals ≠ [])
    (g : Script) :
    ∃ q g', outcome (offspring strategy.toAlgorithm (some (1, 2)) p) g = (.ok q, g') := by
  have hbounds : ∀ least greatest, some (1, 2) = some (least, greatest) → least ≤ greatest := by
    rintro _ _ ⟨⟩
    decide
  exact offspring_total strategy hbounds hp g

theorem smallStart_offspring (strategy : Strategy := smallStrategy) : ∃ q g,
    outcome (offspring strategy.toAlgorithm (some (1, 2)) smallStart.population)
      smallStart.bench.generator = (.ok q, g) :=
  small_offspring strategy (List.cons_ne_nil _ _) smallStart.bench.generator

/-- One round, in which repeated chromosomes are replaced by shorter ones. -/
def smallOptions (path : Option String) : RunOptions where
  maxRounds := some 1
  autosave := path
  randomiseDuplicates := true
  leastLength := some 1
  greatestLength := some 2

theorem smallStart_execute (path : Option String)
    (hfiles : ∀ file, path = some file → ∀ chromosomes,
      (outcome (FileStore.writeChromosomes file chromosomes) {}).1 = .ok ())
    (strategy : Strategy := smallStrategy) :
    ∃ summary final, outcome (execute strategy.toAlgorithm (smallOptions path) 0) smallStart =
      (.ok (some summary), final) := by
  obtain ⟨q, g, hq⟩ := smallStart_offspring strategy
  obtain ⟨t, hround, -⟩ := round_completed {} rfl hq
    fun file hpath => hfiles file hpath q.chromosomes
  have hbounds : (smallOptions path).duplicateBounds = .ok (some (1, 2)) := rfl
  obtain ⟨journal, hexecute⟩ := execute_eq_rounds _ hbounds 0 smallStart (rounds_one hround)
  exact ⟨_, _, hexecute⟩

end Run

end StepSearch
