import StepSearch.Proofs.AtomicWrites
import StepSearch.Proofs.Rounds

/-!
# Runs that fail

A run fails before its first round, because the bounds for replacements make no sense, or in one of
three parts of a round. The population is then the last one that was completed, and the population
file has the last one that was saved; nothing is ever half done.
-/

namespace StepSearch

/-! ### Bounds for replacements -/

/-- Whether repeated chromosomes are to be replaced, and a bound for that is missing or the bounds are
crossed. -/
def RunOptions.LacksBounds (o : RunOptions) : Prop :=
  o.randomiseDuplicates = true ∧
    (o.leastLength = none ∨ o.greatestLength = none ∨
      ∃ least greatest, o.leastLength = some least ∧ o.greatestLength = some greatest ∧
        greatest < least)

theorem RunOptions.duplicateBounds_error_iff (o : RunOptions) :
    (∃ fault, o.duplicateBounds = .error fault) ↔ o.LacksBounds := by
  unfold duplicateBounds LacksBounds
  cases o.randomiseDuplicates with
  | false => simp
  | true =>
    cases o.leastLength with
    | none => simp
    | some least =>
      cases o.greatestLength with
      | none => simp
      | some greatest =>
        by_cases hle : least ≤ greatest
        · simp [hle]
        · simp [hle, Nat.lt_of_not_le hle]

namespace Run

variable {σ : Type} [WordSource σ] {algorithm : Algorithm σ} {bounds : Option (Nat × Nat)}

/-! ### Generations -/

/-- The generation after so many rounds, made from a population without anything around it. -/
def lineage (algorithm : Algorithm σ) (bounds : Option (Nat × Nat)) :
    Nat → Population → Search σ Population
  | 0, p => return p
  | k + 1, p => do
    let q ← lineage algorithm bounds k p
    offspring algorithm bounds q

/-- Whether a population is the `k`-th generation after that of a state. -/
def IsGeneration (algorithm : Algorithm σ) (bounds : Option (Nat × Nat)) (start : State σ) (k : Nat)
    (p : Population) : Prop :=
  ∃ g, outcome (lineage algorithm bounds k start.population) start.bench.generator = (.ok p, g)

theorem lineage_succ {k : Nat} {p q r : Population} {g m g' : σ}
    (hlineage : outcome (lineage algorithm bounds k p) g = (.ok q, m))
    (hoffspring : outcome (offspring algorithm bounds q) m = (.ok r, g')) :
    outcome (lineage algorithm bounds (k + 1) p) g = (.ok r, g') := by
  rw [lineage, bind_of_ok hlineage, hoffspring]

theorem lineage_of_rounds {path : Option String} {k : Nat} {progress progress' : Progress}
    {s t : State σ} (h : outcome (rounds algorithm bounds path k progress) s = (.ok progress', t)) :
    outcome (lineage algorithm bounds k s.population) s.bench.generator =
      (.ok t.population, t.bench.generator) := by
  induction k generalizing progress' t with
  | zero =>
    obtain ⟨-, rfl⟩ := pure_ok h
    rfl
  | succ k ih =>
    obtain ⟨middle, u, hfirst, hround⟩ := rounds_last_ok h
    obtain ⟨hoffspring, -, -⟩ := round_ok hround
    exact lineage_succ (ih hfirst) hoffspring

theorem read_of_rounds {path : String} {k : Nat} {progress progress' : Progress} {s t : State σ}
    (h : outcome (rounds algorithm bounds (some path) k progress) s = (.ok progress', t)) :
    t.bench.files.read path = if k = 0 then s.bench.files.read path
      else .ok (FileStore.chromosomeText t.population.chromosomes).toUTF8 := by
  cases k with
  | zero =>
    obtain ⟨-, rfl⟩ := pure_ok h
    rfl
  | succ k =>
    obtain ⟨middle, u, -, hround⟩ := rounds_last_ok h
    obtain ⟨-, -, hsaved⟩ := round_ok hround
    rw [if_neg (Nat.succ_ne_zero k)]
    exact FileStore.read_of_writeChromosomes hsaved

/-! ### Rounds that fail -/

/-- The parts of a round that may fail. -/
inductive Stage where
  | report
  | advance
  | autosave
deriving DecidableEq, Repr

/-- Whether round `n`, started in the state `s`, fails in the given part, and what it leaves. -/
inductive FailsIn (algorithm : Algorithm σ) (bounds : Option (Nat × Nat)) (path : Option String)
    (n : Nat) (s : State σ) (failure : Failure) (t : State σ) : Stage → Prop where
  | report (failed : outcome (report n) s = (.error failure, t)) :
      FailsIn algorithm bounds path n s failure t .report
  | advance {u : State σ} (reported : outcome (report n) s = (.ok (), u))
      (failed : outcome (successor algorithm bounds) u = (.error failure, t)) :
      FailsIn algorithm bounds path n s failure t .advance
  | autosave {u v w : State σ} {next : Population} (reported : outcome (report n) s = (.ok (), u))
      (advanced : outcome (successor algorithm bounds) u = (.ok next, v))
      (installed : outcome (install n next) v = (.ok (), w))
      (failed : outcome (autosave path) w = (.error failure, t)) :
      FailsIn algorithm bounds path n s failure t .autosave

theorem round_error_iff {path : Option String} {progress : Progress} {s t : State σ}
    {failure : Failure} :
    outcome (round algorithm bounds path progress) s = (.error failure, t) ↔
      ∃ stage, FailsIn algorithm bounds path (progress.rounds + 1) s failure t stage := by
  unfold round
  constructor
  · intro h
    rcases bind_error h with hreport | ⟨_, u, hreport, h⟩
    · exact ⟨_, .report hreport⟩
    rcases bind_error h with hadvance | ⟨next, v, hadvance, h⟩
    · exact ⟨_, .advance hreport hadvance⟩
    rcases bind_error h with hinstall | ⟨_, w, hinstall, h⟩
    · obtain ⟨journal, hinstalled⟩ := outcome_install (progress.rounds + 1) next v
      rw [hinstalled] at hinstall
      cases hinstall
    rcases bind_error h with hsave | ⟨_, x, hsave, h⟩
    · exact ⟨_, .autosave hreport hadvance hinstall hsave⟩
    · cases h
  · intro h
    obtain ⟨stage, hfails⟩ := h
    cases hfails with
    | report hreport => exact bind_of_error hreport _
    | advance hreport hadvance =>
      rw [bind_of_ok hreport]
      exact bind_of_error hadvance _
    | autosave hreport hadvance hinstall hsave =>
      rw [bind_of_ok hreport, bind_of_ok hadvance, bind_of_ok hinstall]
      exact bind_of_error hsave _

namespace FailsIn

variable {path : Option String} {n : Nat} {s t : State σ} {failure : Failure} {stage : Stage}

/-- Until the next generation is complete, the population and the files are those of the round before. -/
theorem kept (h : FailsIn algorithm bounds path n s failure t stage) (hstage : stage ≠ .autosave) :
    t.population = s.population ∧ t.bench.files = s.bench.files := by
  cases h with
  | report hreport =>
    obtain ⟨hpopulation, -, hfiles⟩ := report_eq hreport
    exact ⟨hpopulation, hfiles⟩
  | advance hreport hadvance =>
    obtain ⟨hpopulation, -, hfiles⟩ := report_eq hreport
    obtain ⟨-, hpopulation', hfiles'⟩ := successor_eq hadvance
    exact ⟨hpopulation'.trans hpopulation, hfiles'.trans hfiles⟩
  | autosave _ _ _ _ => exact absurd rfl hstage

/-- Once it is complete it takes the place of the population, whether or not it can be saved. -/
theorem replaced (h : FailsIn algorithm bounds path n s failure t .autosave) :
    outcome (offspring algorithm bounds s.population) s.bench.generator =
        (.ok t.population, t.bench.generator) ∧
      ∃ file cause, path = some file ∧
        outcome (FileStore.writeChromosomes file t.population.chromosomes) s.bench.files =
          (.error cause, t.bench.files) := by
  cases h with
  | @autosave u v w next hreport hadvance hinstall hsave =>
    obtain ⟨hpopulation, hgenerator, hfiles⟩ := report_eq hreport
    obtain ⟨hoffspring, -, hfiles'⟩ := successor_eq hadvance
    obtain ⟨journal, hinstalled⟩ := outcome_install n next v
    rw [hinstalled] at hinstall
    cases hinstall
    rw [hpopulation, hgenerator] at hoffspring
    cases path with
    | none => cases hsave
    | some file =>
      obtain ⟨journal', hsaved⟩ := outcome_autosave_some file
        { bench := { v.bench with journal }, population := next }
      rw [hsaved] at hsave
      rcases hwrite : outcome (FileStore.writeChromosomes file next.chromosomes) v.bench.files with
        ⟨cause | _, files⟩
      · simp only [hwrite] at hsave
        cases hsave
        rw [hfiles', hfiles] at hwrite
        exact ⟨hoffspring, file, cause, rfl, hwrite⟩
      · simp only [hwrite] at hsave
        cases hsave

theorem read_eq {file : String} (h : FailsIn algorithm bounds (some file) n s failure t stage) :
    t.bench.files.read file = s.bench.files.read file := by
  by_cases hstage : stage = .autosave
  · subst hstage
    obtain ⟨-, file', cause, hfile, hwrite⟩ := h.replaced
    cases hfile
    exact FileStore.read_of_writeChromosomes_error hwrite
  · obtain ⟨-, hfiles⟩ := h.kept hstage
    rw [hfiles]

end FailsIn

/-! ### Runs that fail in a round -/

theorem rounds_error_iff {path : Option String} {n : Nat} {progress : Progress} {s t : State σ}
    {failure : Failure} :
    outcome (rounds algorithm bounds path n progress) s = (.error failure, t) ↔
      ∃ k middle u, k < n ∧ outcome (rounds algorithm bounds path k progress) s = (.ok middle, u) ∧
        outcome (round algorithm bounds path middle) u = (.error failure, t) := by
  constructor
  · intro h
    induction n generalizing progress s with
    | zero => cases h
    | succ n ih =>
      rcases bind_error h with hround | ⟨next, v, hround, hrest⟩
      · exact ⟨0, progress, s, Nat.succ_pos n, rfl, hround⟩
      · obtain ⟨k, middle, u, hk, hrounds, hfails⟩ := ih hrest
        refine ⟨k + 1, middle, u, Nat.succ_lt_succ hk, ?_, hfails⟩
        rw [rounds_succ, bind_of_ok hround, hrounds]
  · intro h
    obtain ⟨k, middle, u, hk, hrounds, hround⟩ := h
    obtain ⟨rest, rfl⟩ : ∃ rest, n = k + (rest + 1) := ⟨n - k - 1, by omega⟩
    rw [rounds_add, bind_of_ok hrounds, rounds_succ]
    exact bind_of_error hround _

theorem execute_error_iff {options : RunOptions} {allotment : Nat} {s t : State σ}
    {failure : Failure} (hbounds : options.duplicateBounds = .ok bounds) :
    outcome (execute algorithm options allotment) s = (.error failure, t) ↔
      outcome (rounds algorithm bounds options.autosave (options.maxRounds.getD allotment) {}) s =
        (.error failure, t) := by
  unfold execute
  rw [outcome_bind, outcome_onBench, outcome_require, hbounds]
  simp only [Except.mapError_ok]
  -- With a last round or without one, what comes after the rounds cannot fail.
  cases options.maxRounds with
  | none => exact bind_error_iff fun _ _ => ⟨_, _, rfl⟩
  | some n => exact bind_error_iff fun _ _ => ⟨_, _, rfl⟩

/-- Whether a run completes `k` rounds and fails in the given part of the next one. -/
def FailsAfter (algorithm : Algorithm σ) (bounds : Option (Nat × Nat)) (path : Option String)
    (start : State σ) (k : Nat) (stage : Stage) (failure : Failure) (final : State σ) : Prop :=
  ∃ progress before, outcome (rounds algorithm bounds path k {}) start = (.ok progress, before) ∧
    FailsIn algorithm bounds path (k + 1) before failure final stage

theorem execute_fails_iff {options : RunOptions} {allotment : Nat} {start final : State σ}
    {failure : Failure} (hbounds : options.duplicateBounds = .ok bounds) :
    outcome (execute algorithm options allotment) start = (.error failure, final) ↔
      ∃ k stage, k < options.maxRounds.getD allotment ∧
        FailsAfter algorithm bounds options.autosave start k stage failure final := by
  rw [execute_error_iff hbounds, rounds_error_iff]
  constructor
  · intro h
    obtain ⟨k, progress, before, hk, hrounds, hround⟩ := h
    obtain ⟨stage, hfails⟩ := round_error_iff.mp hround
    have hcount : progress.rounds = k := by simpa using rounds_count hrounds
    rw [hcount] at hfails
    exact ⟨k, stage, hk, progress, before, hrounds, hfails⟩
  · intro h
    obtain ⟨k, stage, hk, progress, before, hrounds, hfails⟩ := h
    have hcount : progress.rounds = k := by simpa using rounds_count hrounds
    rw [← hcount] at hfails
    exact ⟨k, progress, before, hk, hrounds, round_error_iff.mpr ⟨stage, hfails⟩⟩

/-- A round that has made the next generation fails if the temporary file for it is refused. -/
theorem failsAfter_of_unwritten {path : String} {k : Nat} {progress : Progress}
    {start before : State σ} {next : Population} {g : σ} {fault : FileFault}
    (hrounds : outcome (rounds algorithm bounds (some path) k {}) start = (.ok progress, before))
    (hreport : (before.bench.output.write (reportText (k + 1) before.population)).1 = true)
    (hnext : outcome (offspring algorithm bounds before.population) before.bench.generator =
      (.ok next, g))
    (hwrite : before.bench.files.write (FileStore.temporary path)
      (FileStore.chromosomeText next.chromosomes).toUTF8 = .error fault) :
    ∃ final, FailsAfter algorithm bounds (some path) start k .autosave
      (.error (.fileAccess (FileStore.temporary path) fault)) final := by
  obtain ⟨u, hreported⟩ : ∃ u, outcome (report (k + 1)) before = (.ok (), u) := by
    rw [outcome_report, if_pos hreport]
    exact ⟨_, rfl⟩
  obtain ⟨hpopulation, hgenerator, hfiles⟩ := report_eq hreported
  rw [← hpopulation, ← hgenerator] at hnext
  rw [← hfiles] at hwrite
  obtain ⟨journal, hadvanced⟩ := outcome_successor algorithm bounds u
  rw [hnext] at hadvanced
  obtain ⟨journal', hinstalled⟩ := outcome_install (k + 1) next
    { u with bench := { u.bench with generator := g, journal } }
  obtain ⟨journal'', hsaved⟩ := outcome_autosave_some path
    { bench := { u.bench with generator := g, journal := journal' }, population := next }
  rw [FileStore.writeChromosomes_unwritten hwrite] at hsaved
  exact ⟨_, progress, before, hrounds, .autosave hreported hadvanced hinstalled hsaved⟩

/-- Where the files take up all the room after `k` rounds, the next generation cannot be saved. -/
theorem failsAfter_of_full {path : String} {k : Nat} {progress : Progress} {start before : State σ}
    {next : Population} {g : σ} {l : Location}
    (hrounds : outcome (rounds algorithm bounds (some path) k {}) start = (.ok progress, before))
    (hreport : (before.bench.output.write (reportText (k + 1) before.population)).1 = true)
    (hnext : outcome (offspring algorithm bounds before.population) before.bench.generator =
      (.ok next, g))
    (hsomebody : next.individuals ≠ [])
    (hplace : before.bench.files.locate (FileStore.temporary path) = .ok l)
    (hnew : before.bench.files.get? l = none)
    (hfull : before.bench.files.capacity = some before.bench.files.used) :
    ∃ final, FailsAfter algorithm bounds (some path) start k .autosave
      (.error (.fileAccess (FileStore.temporary path) .noSpace)) final := by
  have hchromosomes : next.chromosomes ≠ [] := mt List.map_eq_nil_iff.mp hsomebody
  have hrefused :=
    FileStore.write_of_full hplace hnew hfull (FileStore.chromosomeText_size_pos hchromosomes)
  exact failsAfter_of_unwritten hrounds hreport hnext hrefused

/-- A run whose bounds make no sense does nothing at all, however many rounds it is to have. Any other
run fails exactly if it has completed some number `k` of rounds and a part of the next one fails. If
that is the report or the making of the next generation, the population is generation `k`; if the
next generation cannot be saved, the population is that one. In either case the population file is as
it was after `k` rounds. -/
theorem failed_run_is_atomic (algorithm : Algorithm σ) (options : RunOptions) (allotment : Nat)
    (start : State σ) :
    (options.LacksBounds → ∃ fault, outcome (execute algorithm options allotment) start =
      (.error (.error (.configuration fault)), start)) ∧
    (¬ options.LacksBounds → ∃ bounds, options.duplicateBounds = .ok bounds ∧ ∀ failure final,
      (outcome (execute algorithm options allotment) start = (.error failure, final) ↔
        ∃ k stage, k < options.maxRounds.getD allotment ∧
          FailsAfter algorithm bounds options.autosave start k stage failure final) ∧
      ∀ k stage, FailsAfter algorithm bounds options.autosave start k stage failure final →
        ∃ p, IsGeneration algorithm bounds start k p ∧
          (stage ≠ .autosave → final.population = p) ∧
          (stage = .autosave → IsGeneration algorithm bounds start (k + 1) final.population) ∧
          ∀ path, options.autosave = some path → final.bench.files.read path =
            if k = 0 then start.bench.files.read path
            else .ok (FileStore.chromosomeText p.chromosomes).toUTF8) := by
  refine ⟨fun hlacks => ?_, fun hbounded => ?_⟩
  · obtain ⟨fault, hfault⟩ := options.duplicateBounds_error_iff.mpr hlacks
    exact ⟨fault, execute_of_fault hfault allotment start⟩
  cases hbounds : options.duplicateBounds with
  | error fault => exact absurd (options.duplicateBounds_error_iff.mp ⟨fault, hbounds⟩) hbounded
  | ok bounds =>
    refine ⟨bounds, rfl, fun failure final => ⟨execute_fails_iff hbounds, fun k stage h => ?_⟩⟩
    obtain ⟨progress, before, hrounds, hfails⟩ := h
    -- What the failing round starts from is the generation that is kept and was saved.
    have hlineage := lineage_of_rounds hrounds
    refine ⟨before.population, ⟨_, hlineage⟩, fun hstage => (hfails.kept hstage).1, ?_, ?_⟩
    · rintro rfl
      obtain ⟨hoffspring, -⟩ := hfails.replaced
      exact ⟨_, lineage_succ hlineage hoffspring⟩
    · intro path hpath
      rw [hpath] at hrounds hfails
      rw [hfails.read_eq, read_of_rounds hrounds]

/-! ### A small search without room for its second report -/

theorem reportText_size_pos (round : Nat) (p : Population) : 0 < (reportText round p).toUTF8.size := by
  have hline : "\n".utf8ByteSize = 1 := by decide
  show 0 < (reportText round p).utf8ByteSize
  unfold reportText
  simp only [toString, String.utf8ByteSize_append]
  omega

/-- The small search with an output that takes its first report and no byte more. -/
def crampedStart : State Script :=
  { smallStart with
    bench := { smallStart.bench with
      output := { capacity := some (reportText 1 smallStart.population).toUTF8.size } } }

theorem crampedStart_write : crampedStart.bench.output.write (reportText 1 crampedStart.population) =
    (true, { crampedStart.bench.output with
      written := (reportText 1 smallStart.population).toUTF8 }) := by
  simp [Sink.write, crampedStart]

theorem crampedStart_fails : ∃ failure final,
    FailsAfter smallStrategy.toAlgorithm (some (1, 2)) (some "p") crampedStart 1 .report failure
      final := by
  obtain ⟨q, g, hq⟩ := smallStart_offspring
  have haccepted : (crampedStart.bench.output.write
      (reportText (({} : Progress).rounds + 1) crampedStart.population)).1 = true :=
    congrArg Prod.fst crampedStart_write
  have hsaving : ∀ file, some "p" = some file →
      (outcome (FileStore.writeChromosomes file q.chromosomes) {}).1 = .ok () := by
    rintro _ ⟨⟩
    rfl
  obtain ⟨t, hround, -, houtput⟩ := round_completed {} haccepted hq hsaving
  have hfull : t.bench.output = { crampedStart.bench.output with
      written := (reportText 1 smallStart.population).toUTF8 } :=
    houtput.trans (congrArg Prod.snd crampedStart_write)
  have hrefused : (t.bench.output.write (reportText 2 t.population)).1 = false := by
    have hpos := reportText_size_pos 2 t.population
    simp only [hfull, Sink.write, crampedStart, Nat.sub_self, if_neg (Nat.not_le.mpr hpos)]
  have hreport := outcome_report 2 t
  rw [hrefused] at hreport
  exact ⟨_, _, _, t, rounds_one hround, .report hreport⟩

/-! ### A small search without room for its second file -/

/-- The small search with files that may have so many bytes together. -/
def crowdedStart (room : Nat) : State Script :=
  { smallStart with bench := { smallStart.bench with files := { capacity := some room } } }

/-- A store that is full of one population file. -/
def fullStore (content : ByteArray) : FileStore where
  entries := [(["p"], .file content)]
  capacity := some content.size

theorem fullStore_of_writeChromosomes (chromosomes : List Chromosome) :
    outcome (FileStore.writeChromosomes "p" chromosomes)
      { capacity := some (FileStore.chromosomeText chromosomes).toUTF8.size } =
      (.ok (), fullStore (FileStore.chromosomeText chromosomes).toUTF8) := by
  generalize hcontent : (FileStore.chromosomeText chromosomes).toUTF8 = content
  have hroom : (({ capacity := some content.size } : FileStore).insert ["p.tmp"]
      (.file content)).hasRoom = true := by
    simp [FileStore.hasRoom, FileStore.insert, FileStore.used, Entry.size]
  have hlocated : ({ capacity := some content.size } : FileStore).locate
      (FileStore.temporary "p") = .ok ["p.tmp"] := rfl
  have hwrite := FileStore.write_of_room hlocated (by simp [FileStore.get?]) hroom
  unfold FileStore.writeChromosomes
  rw [hcontent]
  refine (bind_of_ok rfl _).trans ?_
  simp only [hwrite]
  rfl

/-- The population that was saved first takes all the room, so that the next one cannot be saved. -/
theorem crowdedStart_fails : ∃ room failure final,
    FailsAfter smallStrategy.toAlgorithm (some (1, 2)) (some "p") (crowdedStart room) 1 .autosave
      failure final := by
  obtain ⟨q, g, hq⟩ := smallStart_offspring
  obtain ⟨room, hroom⟩ : ∃ room, room = (FileStore.chromosomeText q.chromosomes).toUTF8.size :=
    ⟨_, rfl⟩
  have hsave := fullStore_of_writeChromosomes q.chromosomes
  rw [← hroom] at hsave
  have haccepted : ((crowdedStart room).bench.output.write
      (reportText (({} : Progress).rounds + 1) (crowdedStart room).population)).1 = true := rfl
  have hsaving : ∀ file, some "p" = some file →
      (outcome (FileStore.writeChromosomes file q.chromosomes)
        (crowdedStart room).bench.files).1 = .ok () := by
    rintro _ ⟨⟩
    exact congrArg Prod.fst hsave
  obtain ⟨t, hround, rfl, houtput⟩ := round_completed {} haccepted hq hsaving
  have hreport : (t.bench.output.write (reportText 2 t.population)).1 = true := by
    rw [houtput]
    rfl
  -- The second round makes a generation as well, but for its file there is no room.
  obtain ⟨next, g', hnext⟩ :=
    small_offspring smallStrategy (offspring_ok hq).ne_nil t.bench.generator
  obtain ⟨-, -, hsaved⟩ := round_ok hround
  have hfiles := (Prod.mk.inj (hsave.symm.trans hsaved)).2
  have hplace : t.bench.files.locate (FileStore.temporary "p") = .ok ["p.tmp"] := by
    rw [← hfiles]
    rfl
  have hnew : t.bench.files.get? ["p.tmp"] = none := by
    rw [← hfiles]
    rfl
  have hfull : t.bench.files.capacity = some t.bench.files.used := by
    rw [← hfiles]
    rfl
  obtain ⟨final, hfails⟩ := failsAfter_of_full (rounds_one hround) hreport hnext
    (offspring_ok hnext).ne_nil hplace hnew hfull
  exact ⟨_, _, final, hfails⟩

/-! ### What is left of these searches -/

/-- The small search for two rounds, saved in a file. -/
def crampedOptions : RunOptions :=
  { smallOptions (some "p") with maxRounds := some 2 }

theorem cramped_search_is_atomic :
    ¬ crampedOptions.LacksBounds ∧
    (∃ failure final p,
      outcome (execute smallStrategy.toAlgorithm crampedOptions 0) crampedStart =
        (.error failure, final) ∧
      IsGeneration smallStrategy.toAlgorithm (some (1, 2)) crampedStart 1 p ∧
      final.population = p ∧
      final.bench.files.read "p" = .ok (FileStore.chromosomeText p.chromosomes).toUTF8) ∧
    ∃ room failure final p,
      outcome (execute smallStrategy.toAlgorithm crampedOptions 0) (crowdedStart room) =
        (.error failure, final) ∧
      IsGeneration smallStrategy.toAlgorithm (some (1, 2)) (crowdedStart room) 1 p ∧
      IsGeneration smallStrategy.toAlgorithm (some (1, 2)) (crowdedStart room) 2 final.population ∧
      final.bench.files.read "p" = .ok (FileStore.chromosomeText p.chromosomes).toUTF8 := by
  have hbounded : ¬ crampedOptions.LacksBounds := by
    rw [← RunOptions.duplicateBounds_error_iff]
    rintro ⟨fault, hfault⟩
    cases hfault
  refine ⟨hbounded, ?_, ?_⟩
  · obtain ⟨failure, final, hfails⟩ := crampedStart_fails
    obtain ⟨-, hatomic⟩ :=
      failed_run_is_atomic smallStrategy.toAlgorithm crampedOptions 0 crampedStart
    obtain ⟨bounds, hbounds, hatomic⟩ := hatomic hbounded
    cases hbounds
    obtain ⟨hruns, hkeeps⟩ := hatomic failure final
    obtain ⟨p, hgeneration, hpopulation, -, hread⟩ := hkeeps 1 .report hfails
    exact ⟨failure, final, p, hruns.mpr ⟨1, .report, Nat.one_lt_two, hfails⟩, hgeneration,
      hpopulation (by decide), hread "p" rfl⟩
  · obtain ⟨room, failure, final, hfails⟩ := crowdedStart_fails
    obtain ⟨-, hatomic⟩ :=
      failed_run_is_atomic smallStrategy.toAlgorithm crampedOptions 0 (crowdedStart room)
    obtain ⟨bounds, hbounds, hatomic⟩ := hatomic hbounded
    cases hbounds
    obtain ⟨hruns, hkeeps⟩ := hatomic failure final
    obtain ⟨p, hgeneration, -, hnext, hread⟩ := hkeeps 1 .autosave hfails
    exact ⟨room, failure, final, p, hruns.mpr ⟨1, .autosave, Nat.one_lt_two, hfails⟩, hgeneration,
      hnext rfl, hread "p" rfl⟩

end Run

end StepSearch
