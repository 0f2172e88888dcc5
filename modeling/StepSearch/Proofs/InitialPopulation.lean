import Mathlib.Algebra.GroupWithZero.Nat
import Mathlib.Data.List.Forall2
import StepSearch.Proofs.ChromosomeText
import StepSearch.Proofs.Lengths
import StepSearch.Proofs.LineEnds

/-!
# The initial population

What is wrong with the sources of an initial population is looked for in a fixed order: the bounds of
the lengths, the chromosomes that are given one by one, then the files, each as a whole before its
lines. The first fault is reported. Where there is none, the population has the chromosomes that are
given, the random ones and those of the files behind each other.
-/

namespace StepSearch

/-! ### Lists that are read element by element -/

section Lists

variable {ε α β : Type} {f : α → Except ε β}

theorem Except.mapM_ok_iff {values : List α} {results : List β} :
    values.mapM f = .ok results ↔ List.Forall₂ (fun a b => f a = .ok b) values results := by
  constructor
  · intro h
    induction values generalizing results with
    | nil =>
      cases h
      exact .nil
    | cons a values ih =>
      rw [List.mapM_cons] at h
      obtain ⟨b, hb, h⟩ := Except.bind_ok h
      obtain ⟨rest, hrest, h⟩ := Except.bind_ok h
      cases h
      exact .cons hb (ih hrest)
  · intro h
    induction h with
    | nil => rfl
    | cons hb _ ih =>
      rw [List.mapM_cons, hb, ih]
      rfl

/-- The error is that of the first element that has one. -/
theorem Except.mapM_error_iff {values : List α} {e : ε} :
    values.mapM f = .error e ↔ ∃ before a after, values = before ++ a :: after ∧
      (∀ b ∈ before, ∃ result, f b = .ok result) ∧ f a = .error e := by
  constructor
  · intro h
    induction values with
    | nil => cases h
    | cons a values ih =>
      rw [List.mapM_cons] at h
      rcases Except.bind_error h with ha | ⟨b, hb, h⟩
      · exact ⟨[], a, values, rfl, by simp, ha⟩
      rcases Except.bind_error h with hrest | ⟨rest, -, h⟩
      · obtain ⟨before, c, after, rfl, hbefore, hc⟩ := ih hrest
        exact ⟨a :: before, c, after, rfl, List.forall_mem_cons.mpr ⟨⟨b, hb⟩, hbefore⟩, hc⟩
      · cases h
  · rintro ⟨before, a, after, rfl, hbefore, ha⟩
    induction before with
    | nil =>
      rw [List.nil_append, List.mapM_cons, ha]
      rfl
    | cons b before ih =>
      obtain ⟨⟨result, hresult⟩, hrest⟩ := List.forall_mem_cons.mp hbefore
      rw [List.cons_append, List.mapM_cons, hresult, ih hrest]
      rfl

theorem Except.exists_mapM_ok_iff {values : List α} :
    (∃ results, values.mapM f = .ok results) ↔ ∀ a ∈ values, ∃ b, f a = .ok b := by
  constructor
  · rintro ⟨results, h⟩
    have hall := Except.mapM_ok_iff.mp h
    clear h
    induction hall with
    | nil => simp
    | cons hb _ ih => exact List.forall_mem_cons.mpr ⟨⟨_, hb⟩, ih⟩
  · intro h
    cases hvalues : values.mapM f with
    | ok results => exact ⟨results, rfl⟩
    | error e =>
      obtain ⟨before, a, after, rfl, -, ha⟩ := Except.mapM_error_iff.mp hvalues
      obtain ⟨b, hb⟩ := h a (by simp)
      rw [hb] at ha
      cases ha

end Lists

/-! ### Texts that are no chromosomes -/

namespace Chromosome

/-- Whether `cause` tells the first of the texts that is no chromosome, and the first character in it
that stands for no step. -/
def FirstIllegible (texts : List String) (cause : UnknownStep) : Prop :=
  ∃ before after, texts = before ++ cause.text :: after ∧ (∀ text ∈ before, Legible text) ∧
    FirstUnknown cause.text cause.abbreviation

variable {texts : List String}

theorem parseAll_error_iff {cause : UnknownStep} :
    parseAll texts = .error cause ↔ FirstIllegible texts cause := by
  unfold parseAll FirstIllegible
  rw [Except.mapM_error_iff]
  simp only [← legible_iff, parse_error_iff]
  constructor
  · rintro ⟨before, text, after, htexts, hbefore, rfl, hunknown⟩
    exact ⟨before, after, htexts, hbefore, hunknown⟩
  · rintro ⟨before, after, htexts, hbefore, hunknown⟩
    exact ⟨before, cause.text, after, htexts, hbefore, rfl, hunknown⟩

theorem forall_legible_iff :
    (∀ text ∈ texts, Legible text) ↔ ∃ chromosomes, parseAll texts = .ok chromosomes := by
  unfold parseAll
  rw [Except.exists_mapM_ok_iff]
  simp only [legible_iff]

theorem exists_illegible_of_first {cause : UnknownStep} (h : FirstIllegible texts cause) :
    ∃ text ∈ texts, ¬ Legible text := by
  obtain ⟨before, after, rfl, -, hunknown⟩ := h
  exact ⟨cause.text, by simp, exists_firstUnknown_iff.mp ⟨_, hunknown⟩⟩

end Chromosome

/-! ### Files that cannot be used -/

namespace FileStore

/-- Whether the file can be read and each of its lines is a chromosome. -/
def LegibleFile (s : FileStore) (path : String) : Prop :=
  ∃ text, s.readText path = .ok text ∧ ∀ line ∈ Text.lines text, Chromosome.Legible line

/-- What is wrong with a population file first: it cannot be read, or a line is no chromosome. -/
inductive FirstFault (s : FileStore) (path : String) : SearchError → Prop where
  | unreadable {fault : FileFault} (read : s.readText path = .error fault) :
      FirstFault s path (.fileAccess path fault)
  | illegible {text : String} {cause : UnknownStep} (read : s.readText path = .ok text)
      (line : Chromosome.FirstIllegible (Text.lines text) cause) :
      FirstFault s path (.invalidChromosome cause)

variable {s : FileStore} {path : String}

theorem readChromosomes_of_unreadable {fault : FileFault} (h : s.readText path = .error fault) :
    s.readChromosomes path = .error (.fileAccess path fault) := by
  rw [readChromosomes, readLines, h]
  rfl

theorem readChromosomes_of_readText {text : String} (h : s.readText path = .ok text) :
    s.readChromosomes path =
      (Chromosome.parseAll (Text.lines text)).mapError .invalidChromosome := by
  rw [readChromosomes, readLines, h]
  rfl

theorem readChromosomes_error_iff {cause : SearchError} :
    s.readChromosomes path = .error cause ↔ s.FirstFault path cause := by
  constructor
  · intro h
    cases hread : s.readText path with
    | error fault =>
      rw [readChromosomes_of_unreadable hread] at h
      cases h
      exact .unreadable hread
    | ok text =>
      rw [readChromosomes_of_readText hread] at h
      obtain ⟨unknown, hparse, rfl⟩ := Except.mapError_error h
      exact .illegible hread (Chromosome.parseAll_error_iff.mp hparse)
  · intro h
    cases h with
    | unreadable hread => exact readChromosomes_of_unreadable hread
    | illegible hread hline =>
      rw [readChromosomes_of_readText hread, Chromosome.parseAll_error_iff.mpr hline]
      rfl

theorem legibleFile_iff :
    s.LegibleFile path ↔ ∃ chromosomes, s.readChromosomes path = .ok chromosomes := by
  constructor
  · rintro ⟨text, hread, hlines⟩
    obtain ⟨chromosomes, hparse⟩ := Chromosome.forall_legible_iff.mp hlines
    refine ⟨chromosomes, ?_⟩
    rw [readChromosomes_of_readText hread, hparse, Except.mapError_ok]
  · rintro ⟨chromosomes, h⟩
    obtain ⟨text, hread, -⟩ := readChromosomes_ok h
    rw [readChromosomes_of_readText hread] at h
    exact ⟨text, hread, Chromosome.forall_legible_iff.mpr ⟨chromosomes, Except.mapError_eq_ok h⟩⟩

theorem not_legibleFile_of_firstFault {cause : SearchError} (h : s.FirstFault path cause) :
    ¬ s.LegibleFile path := by
  intro hlegible
  obtain ⟨chromosomes, hread⟩ := legibleFile_iff.mp hlegible
  rw [readChromosomes_error_iff.mpr h] at hread
  cases hread

end FileStore

/-! ### The sources together -/

theorem Population.draw_eq {σ : Type} [WordSource σ] (metric : Metric) (size least greatest : Nat) :
    (Population.draw metric size least greatest : Draw σ Population) =
      Population.ofChromosomes metric <$> Draw.times size (Chromosome.draw least greatest) := by
  have hdraw : (Individual.draw metric least greatest : Draw σ Individual) =
      Individual.ofChromosome metric <$> Chromosome.draw least greatest := by
    unfold Individual.draw
    rw [map_eq_pure_bind]
  unfold Population.draw
  rw [hdraw, Draw.times_map, bind_map_left, map_eq_pure_bind]
  rfl

namespace PopulationSources

/-- What is wrong with the sources first. -/
inductive FirstFault (s : PopulationSources) (files : FileStore) : SearchError → Prop where
  | bounds (crossed : s.greatestLength < s.leastLength) :
      FirstFault s files (.configuration (.lengthBounds s.leastLength s.greatestLength))
  | chromosome (ordered : s.leastLength ≤ s.greatestLength) {cause : UnknownStep}
      (illegible : Chromosome.FirstIllegible s.chromosomes cause) :
      FirstFault s files (.invalidChromosome cause)
  | file (ordered : s.leastLength ≤ s.greatestLength)
      (legible : ∀ text ∈ s.chromosomes, Chromosome.Legible text)
      {before after : List String} {path : String} (split : s.files = before ++ path :: after)
      (usable : ∀ earlier ∈ before, files.LegibleFile earlier) {cause : SearchError}
      (fault : files.FirstFault path cause) : FirstFault s files cause

theorem join_of_metric {p q : Population} (h : q.metric = p.metric) :
    join p q = .ok ⟨p.metric, p.individuals ++ q.individuals⟩ := by
  have hshared : p.SharesMetric q := congrArg Metric.key h.symm
  rw [join, Population.union, if_pos hshared, Except.mapError_ok]

theorem join_ofChromosomes (metric : Metric) (before after : List Chromosome) :
    join (.ofChromosomes metric before) (.ofChromosomes metric after) =
      .ok (.ofChromosomes metric (before ++ after)) := by
  have hmetric : (Population.ofChromosomes metric after).metric =
      (Population.ofChromosomes metric before).metric := rfl
  rw [join_of_metric hmetric]
  simp only [Population.ofChromosomes, List.map_append]

/-- The files are read one after the other, and what is in them comes behind the others. -/
theorem foldlM_addFile (files : FileStore) (p : Population) (paths : List String) :
    paths.foldlM (addFile files) p = (paths.mapM files.readChromosomes).map fun found =>
      ⟨p.metric, p.individuals ++ found.flatten.map (Individual.ofChromosome p.metric)⟩ := by
  induction paths generalizing p with
  | nil =>
    show Except.ok p = .ok ⟨p.metric, p.individuals ++ []⟩
    rw [List.append_nil]
  | cons path paths ih =>
    rw [List.foldlM_cons, List.mapM_cons]
    cases hread : files.readChromosomes path with
    | error cause =>
      rw [addFile, ofFile, hread]
      rfl
    | ok chromosomes =>
      have hadd : addFile files p path =
          .ok ⟨p.metric, p.individuals ++ chromosomes.map (Individual.ofChromosome p.metric)⟩ := by
        rw [addFile, ofFile, hread]
        exact join_of_metric rfl
      rw [hadd]
      show paths.foldlM (addFile files) _ = _
      rw [ih]
      cases paths.mapM files.readChromosomes with
      | error cause => rfl
      | ok found =>
        refine congrArg Except.ok ?_
        simp only [List.flatten_cons, List.map_append, List.append_assoc]

variable {σ : Type} [WordSource σ] {s : PopulationSources} {files : FileStore}

/-- Reading the files fails by the first fault of the first file that cannot be used. -/
theorem mapM_readChromosomes_error_iff {paths : List String} {cause : SearchError} :
    paths.mapM files.readChromosomes = .error cause ↔ ∃ before path after,
      paths = before ++ path :: after ∧ (∀ earlier ∈ before, files.LegibleFile earlier) ∧
      files.FirstFault path cause := by
  rw [Except.mapM_error_iff]
  simp only [← FileStore.legibleFile_iff, FileStore.readChromosomes_error_iff]

theorem forall_legibleFile_iff {paths : List String} :
    (∀ path ∈ paths, files.LegibleFile path) ↔
      ∃ found, paths.mapM files.readChromosomes = .ok found := by
  rw [Except.exists_mapM_ok_iff]
  simp only [FileStore.legibleFile_iff]

/-- Something is wrong first just if something is wrong. -/
theorem exists_firstFault_iff : (∃ cause, s.FirstFault files cause) ↔
    s.greatestLength < s.leastLength ∨ (∃ text ∈ s.chromosomes, ¬ Chromosome.Legible text) ∨
      ∃ path ∈ s.files, ¬ files.LegibleFile path := by
  constructor
  · rintro ⟨cause, h⟩
    cases h with
    | bounds hcrossed => exact .inl hcrossed
    | chromosome _ hillegible => exact .inr (.inl (Chromosome.exists_illegible_of_first hillegible))
    | file _ _ hsplit _ hfault =>
      refine .inr (.inr ⟨_, ?_, FileStore.not_legibleFile_of_firstFault hfault⟩)
      rw [hsplit]
      simp
  · intro h
    by_cases hordered : s.leastLength ≤ s.greatestLength
    swap
    · exact ⟨_, .bounds (Nat.not_le.mp hordered)⟩
    cases hgiven : Chromosome.parseAll s.chromosomes with
    | error unknown => exact ⟨_, .chromosome hordered (Chromosome.parseAll_error_iff.mp hgiven)⟩
    | ok given =>
      have hlegible := Chromosome.forall_legible_iff.mpr ⟨given, hgiven⟩
      cases hfound : s.files.mapM files.readChromosomes with
      | error cause =>
        obtain ⟨before, path, after, hsplit, husable, hfault⟩ :=
          mapM_readChromosomes_error_iff.mp hfound
        exact ⟨cause, .file hordered hlegible hsplit husable hfault⟩
      | ok found =>
        have husable := forall_legibleFile_iff.mpr ⟨found, hfound⟩
        rcases h with hcrossed | ⟨text, htext, hillegible⟩ | ⟨path, hpath, hunusable⟩
        · omega
        · exact absurd (hlegible text htext) hillegible
        · exact absurd (husable path hpath) hunusable

section Building

variable (files) (metric : Metric) (g : σ)

theorem build_of_crossed (h : s.greatestLength < s.leastLength) :
    outcome (s.build metric files) g =
      (.error (.error (.configuration (.lengthBounds s.leastLength s.greatestLength))), g) := by
  have hlengths : checkLengths s.leastLength s.greatestLength =
      .error (.lengthBounds s.leastLength s.greatestLength) := if_pos h
  unfold build
  rw [hlengths]
  exact bind_of_error rfl _

theorem build_of_illegible (hordered : s.leastLength ≤ s.greatestLength) {cause : UnknownStep}
    (h : Chromosome.parseAll s.chromosomes = .error cause) :
    outcome (s.build metric files) g = (.error (.error (.invalidChromosome cause)), g) := by
  have hlengths : checkLengths s.leastLength s.greatestLength = .ok () := if_neg (by omega)
  unfold build
  rw [hlengths, ofTexts, h]
  exact (bind_of_ok rfl _).trans (bind_of_error rfl _)

/-- Once the bounds and the given chromosomes are found to be right, the random chromosomes are drawn;
after that only a file can be at fault. -/
theorem build_of_legible (hordered : s.leastLength ≤ s.greatestLength) {given : List Chromosome}
    (h : Chromosome.parseAll s.chromosomes = .ok given) : ∃ random g',
    outcome (Draw.times s.randomCount (Chromosome.draw s.leastLength s.greatestLength)) g =
      (.ok random, g') ∧
    outcome (s.build metric files) g =
      (((s.files.mapM files.readChromosomes).map fun found =>
        Population.ofChromosomes metric (given ++ random ++ found.flatten)).mapError .error, g') := by
  have hlengths : checkLengths s.leastLength s.greatestLength = .ok () := if_neg (by omega)
  obtain ⟨random, g', hrandom⟩ :=
    Draw.times_total (Chromosome.draw_total hordered) s.randomCount g
  refine ⟨random, g', hrandom, ?_⟩
  have hdraw : outcome (Search.ofDraw
      (Population.draw metric s.randomCount s.leastLength s.greatestLength)) g =
      (.ok (.ofChromosomes metric random), g') := by
    rw [outcome_ofDraw, Population.draw_eq, outcome_map, hrandom]
    rfl
  have hjoined : outcome (Search.ofExcept
      (join (.ofChromosomes metric given) (.ofChromosomes metric random))) g' =
      (.ok (.ofChromosomes metric (given ++ random)), g') := by
    rw [outcome_ofExcept, join_ofChromosomes, Except.mapError_ok]
  unfold build
  rw [hlengths, ofTexts, h]
  refine (bind_of_ok rfl _).trans ((bind_of_ok rfl _).trans ((bind_of_ok hdraw _).trans ?_))
  refine (bind_of_ok hjoined _).trans ?_
  rw [foldlM_addFile, outcome_ofExcept]
  simp only [Population.ofChromosomes, List.map_append]

/-- Without a fault the sources make a population. -/
theorem build_of_faultless (hordered : s.leastLength ≤ s.greatestLength)
    (hlegible : ∀ text ∈ s.chromosomes, Chromosome.Legible text)
    (husable : ∀ path ∈ s.files, files.LegibleFile path) : ∃ given random found g',
    given.map Chromosome.toString = s.chromosomes ∧
    outcome (Draw.times s.randomCount (Chromosome.draw s.leastLength s.greatestLength)) g =
      (.ok random, g') ∧
    List.Forall₂ (fun path chromosomes => files.readChromosomes path = .ok chromosomes)
      s.files found ∧
    outcome (s.build metric files) g =
      (.ok (.ofChromosomes metric (given ++ random ++ found.flatten)), g') := by
  obtain ⟨given, hgiven⟩ := Chromosome.forall_legible_iff.mp hlegible
  obtain ⟨found, hfound⟩ := forall_legibleFile_iff.mp husable
  obtain ⟨random, g', hrandom, hbuild⟩ :=
    build_of_legible files metric g hordered hgiven
  refine ⟨given, random, found, g', Chromosome.map_toString_of_parseAll hgiven, hrandom,
    Except.mapM_ok_iff.mp hfound, ?_⟩
  rw [hbuild, hfound]
  rfl

end Building

variable {metric : Metric} {g : σ}

theorem build_of_firstFault {cause : SearchError} (h : s.FirstFault files cause) :
    (outcome (s.build metric files) g).1 = .error (.error cause) := by
  cases h with
  | bounds hcrossed => rw [build_of_crossed files metric g hcrossed]
  | chromosome hordered hillegible =>
    rw [build_of_illegible files metric g hordered (Chromosome.parseAll_error_iff.mpr hillegible)]
  | file hordered hlegible hsplit husable hfault =>
    obtain ⟨given, hgiven⟩ := Chromosome.forall_legible_iff.mp hlegible
    obtain ⟨random, g', -, hbuild⟩ := build_of_legible files metric g hordered hgiven
    rw [hbuild, mapM_readChromosomes_error_iff.mpr ⟨_, _, _, hsplit, husable, hfault⟩]
    rfl

theorem build_error_iff {failure : Failure} :
    (outcome (s.build metric files) g).1 = .error failure ↔
      ∃ cause, s.FirstFault files cause ∧ failure = .error cause := by
  constructor
  · intro h
    by_cases hfault : ∃ cause, s.FirstFault files cause
    · obtain ⟨cause, hcause⟩ := hfault
      rw [build_of_firstFault hcause] at h
      exact ⟨cause, hcause, (Except.error.inj h).symm⟩
    · rw [exists_firstFault_iff] at hfault
      push Not at hfault
      obtain ⟨hordered, hlegible, husable⟩ := hfault
      obtain ⟨given, random, found, g', -, -, -, hbuild⟩ :=
        build_of_faultless files metric g hordered hlegible husable
      rw [hbuild] at h
      cases h
  · rintro ⟨cause, hcause, rfl⟩
    exact build_of_firstFault hcause

theorem randomCount_of_lt (h : s.randomCounts.sum < Nat.pow 2 64) :
    s.randomCount = s.randomCounts.sum :=
  Nat.mod_eq_of_lt h

/-- The sources of the initial population are put together, or the first fault is reported.

Something is wrong if the bounds of the lengths are crossed, if a given chromosome is illegible or if
a file cannot be used, and of all that is wrong the first is reported: the bounds before the given
chromosomes, these before the files, and each of them in its order. No failure is a breach. What is
wrong with the bounds or with the given chromosomes is found before a word is drawn. Where nothing is
wrong the population has the given chromosomes, as many random ones as the counts add up to, and the
lines of the files, in this order. -/
theorem sources_make_a_population_or_tell_why (s : PopulationSources) (metric : Metric)
    (files : FileStore) (hcounts : s.randomCounts.sum < Nat.pow 2 64) (g : σ) :
    ((∃ failure, (outcome (s.build metric files) g).1 = .error failure) ↔
      s.greatestLength < s.leastLength ∨ (∃ text ∈ s.chromosomes, ¬ Chromosome.Legible text) ∨
        ∃ path ∈ s.files, ¬ files.LegibleFile path) ∧
    (∀ failure, (outcome (s.build metric files) g).1 = .error failure ↔
      ∃ cause, s.FirstFault files cause ∧ failure = .error cause) ∧
    (∀ breach, (outcome (s.build metric files) g).1 ≠ .error (.error (.invariant breach))) ∧
    (s.greatestLength < s.leastLength ∨ (∃ text ∈ s.chromosomes, ¬ Chromosome.Legible text) →
      (outcome (s.build metric files) g).2 = g) ∧
    (s.leastLength ≤ s.greatestLength → (∀ text ∈ s.chromosomes, Chromosome.Legible text) →
      (∀ path ∈ s.files, files.LegibleFile path) → ∃ given random found g',
        given.map Chromosome.toString = s.chromosomes ∧
        outcome (Draw.times s.randomCounts.sum
          (Chromosome.draw s.leastLength s.greatestLength)) g = (.ok random, g') ∧
        random.length = s.randomCounts.sum ∧
        (∀ c ∈ random, s.leastLength ≤ c.length ∧ c.length ≤ s.greatestLength) ∧
        List.Forall₂ (fun path chromosomes => ∃ text, files.readText path = .ok text ∧
          chromosomes.map Chromosome.toString = Text.lines text) s.files found ∧
        outcome (s.build metric files) g =
          (.ok (.ofChromosomes metric (given ++ random ++ found.flatten)), g')) := by
  refine ⟨?fails, fun _ => build_error_iff, ?breach, ?early, ?built⟩
  case fails =>
    rw [← exists_firstFault_iff]
    constructor
    · rintro ⟨failure, hfailure⟩
      obtain ⟨cause, hcause, -⟩ := build_error_iff.mp hfailure
      exact ⟨cause, hcause⟩
    · rintro ⟨cause, hcause⟩
      exact ⟨_, build_of_firstFault hcause⟩
  case breach =>
    intro breach hbreach
    obtain ⟨cause, hcause, heq⟩ := build_error_iff.mp hbreach
    cases heq
    cases hcause with
    | file _ _ _ _ hfault => cases hfault
  case early =>
    intro hfault
    by_cases hordered : s.leastLength ≤ s.greatestLength
    swap
    · rw [build_of_crossed files metric g (Nat.not_le.mp hordered)]
    cases hgiven : Chromosome.parseAll s.chromosomes with
    | error unknown => rw [build_of_illegible files metric g hordered hgiven]
    | ok given =>
      have hlegible := Chromosome.forall_legible_iff.mpr ⟨given, hgiven⟩
      rcases hfault with hcrossed | ⟨text, htext, hillegible⟩
      · omega
      · exact absurd (hlegible text htext) hillegible
  case built =>
    intro hordered hlegible husable
    obtain ⟨given, random, found, g', hgiven, hrandom, hfound, hbuild⟩ :=
      build_of_faultless files metric g hordered hlegible husable
    rw [randomCount_of_lt hcounts] at hrandom
    have hwithin : ∀ c ∈ random, s.leastLength ≤ c.length ∧ c.length ≤ s.greatestLength :=
      Draw.times_forall (fun _ _ _ hc => Chromosome.draw_length hc) hrandom
    have hlines : List.Forall₂ (fun path chromosomes => ∃ text, files.readText path = .ok text ∧
        chromosomes.map Chromosome.toString = Text.lines text) s.files found :=
      hfound.imp fun _ _ hread => FileStore.readChromosomes_ok hread
    exact ⟨given, random, found, g', hgiven, hrandom, Draw.times_length hrandom, hwithin, hlines,
      hbuild⟩

/-- Two given chromosomes, two random steps and the lines of two files. -/
def mixedSources : PopulationSources where
  leastLength := 1
  greatestLength := 1
  chromosomes := ["fu", ""]
  randomCounts := [1, 0, 1]
  files := ["p", "q"]

/-- Two files, the second of which ends with `last`. -/
def twoFiles (last : String) : FileStore :=
  ((FileStore.write {} "p" "La\n\nu".toUTF8).toOption.getD {}).write "q" ("c\n" ++ last).toUTF8
    |>.toOption.getD {}

/-- With a legible last line all nine chromosomes are there; with an illegible one its first unknown
character is told. -/
theorem mixed_sources_make_a_population_or_tell_why :
    (∃ population g', outcome (mixedSources.build (.chromosomeLength 0) (twoFiles "D"))
      (Script.mk #[] 0) = (.ok population, g') ∧ population.individuals.length = 9) ∧
    (outcome (mixedSources.build (.chromosomeLength 0) (twoFiles "D?!")) (Script.mk #[] 0)).1 =
      .error (.error (.invalidChromosome ⟨"D?!", '?'⟩)) := by
  have hcounts : mixedSources.randomCounts.sum < Nat.pow 2 64 := by decide
  have hgiven : ∀ text ∈ mixedSources.chromosomes, Chromosome.Legible text :=
    Chromosome.forall_legible_iff.mpr ⟨_, rfl⟩
  constructor
  · obtain ⟨-, -, -, -, hbuilt⟩ := sources_make_a_population_or_tell_why mixedSources
      (.chromosomeLength 0) (twoFiles "D") hcounts (Script.mk #[] 0)
    have hfiles : ∀ path ∈ mixedSources.files, (twoFiles "D").LegibleFile path :=
      forall_legibleFile_iff.mpr ⟨_, rfl⟩
    obtain ⟨given, random, found, g', hparsed, -, hrandom, -, hlines, hbuild⟩ :=
      hbuilt (by decide) hgiven hfiles
    refine ⟨_, g', hbuild, ?_⟩
    rcases hlines with _ | ⟨⟨text, hp, hfirst⟩, _ | ⟨⟨text', hq, hsecond⟩, _ | _⟩⟩
    obtain rfl : "La\n\nu" = text := Except.ok.inj hp
    obtain rfl : "c\nD" = text' := Except.ok.inj hq
    have hgivenLength := congrArg List.length hparsed
    have hfirstLength := congrArg List.length hfirst
    have hsecondLength := congrArg List.length hsecond
    rw [List.length_map] at hgivenLength hfirstLength hsecondLength
    simp only [Population.ofChromosomes, List.length_map, List.length_append, List.flatten_cons,
      List.flatten_nil, hgivenLength, hrandom, hfirstLength, hsecondLength]
    rfl
  · obtain ⟨-, herror, -⟩ := sources_make_a_population_or_tell_why mixedSources
      (.chromosomeLength 0) (twoFiles "D?!") hcounts (Script.mk #[] 0)
    have hread : (twoFiles "D?!").readText "q" = .ok "c\nD?!" := by rfl
    have hline : Chromosome.FirstIllegible (Text.lines "c\nD?!") ⟨"D?!", '?'⟩ :=
      Chromosome.parseAll_error_iff.mp rfl
    have husable : ∀ earlier ∈ ["p"], (twoFiles "D?!").LegibleFile earlier :=
      forall_legibleFile_iff.mpr ⟨_, rfl⟩
    have hsplit : mixedSources.files = ["p"] ++ "q" :: [] := rfl
    exact (herror _).mpr
      ⟨_, .file (by decide) hgiven hsplit husable (.illegible hread hline), rfl⟩

end PopulationSources

end StepSearch
