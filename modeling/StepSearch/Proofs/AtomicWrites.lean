import StepSearch.FileStore.Chromosomes
import StepSearch.Proofs.FileTrees

/-!
# Population files are replaced as a whole

A population file and its temporary file stand in the same directory under different names, whatever
the path looks like. Until the renaming nothing happens to the population file, so a write that fails
leaves it as it was.
-/

namespace StepSearch.FileStore

/-! ### The place of the temporary file -/

theorem splitNames_append_temporary (cs : List Char) : ∃ names last,
    splitNames cs = names ++ [last] ∧
    splitNames (cs ++ ['.', 't', 'm', 'p']) = names ++ [last ++ ['.', 't', 'm', 'p']] := by
  induction cs with
  | nil => exact ⟨[], [], rfl, by decide⟩
  | cons c cs ih =>
    obtain ⟨names, last, hnames, hnames'⟩ := ih
    by_cases hslash : c = '/'
    · subst hslash
      refine ⟨[] :: names, last, ?_, ?_⟩
      · rw [splitNames, hnames, List.cons_append]
      · rw [List.cons_append, splitNames, hnames', List.cons_append]
    · rw [List.cons_append, splitNames.eq_3 c cs hslash, splitNames.eq_3 c _ hslash, hnames, hnames']
      cases names with
      | nil => exact ⟨[], c :: last, rfl, rfl⟩
      | cons name names => exact ⟨(c :: name) :: names, last, rfl, rfl⟩

/-- The temporary file has the names of the population file on its path, but for the last one. -/
theorem pathNames_temporary (path : String) : ∃ names last,
    pathNames path = names ++ [last] ∧ pathNames (temporary path) = names ++ [last ++ ".tmp"] := by
  obtain ⟨names, last, hnames, hnames'⟩ := splitNames_append_temporary path.toList
  refine ⟨names.map String.ofList, String.ofList last, ?_, ?_⟩
  · rw [pathNames, hnames, List.map_append, List.map_singleton]
  · have htemporary : (temporary path).toList = path.toList ++ ['.', 't', 'm', 'p'] := by
      rw [temporary, String.toList_append]
      rfl
    have hlast : String.ofList (last ++ ['.', 't', 'm', 'p']) = String.ofList last ++ ".tmp" := by
      rw [String.ofList_append]
    rw [pathNames, htemporary, hnames', List.map_append, List.map_singleton, hlast]

theorem walk_temporary_ok {s : FileStore} {place l : Location} {name : String}
    (h : s.walk place [name ++ ".tmp"] = .ok l) :
    s.get? place = some .directory ∧ name.utf8ByteSize ≤ maxNameSize ∧
      l = place ++ [name ++ ".tmp"] := by
  -- The name is too long to be empty or to consist of dots.
  have hlength : ∀ text, name ++ ".tmp" = text → 4 ≤ text.length := by
    intro text htext
    rw [← htext, String.length_append]
    exact Nat.le_add_left 4 _
  have hstay : ¬ (name ++ ".tmp" = "" ∨ name ++ ".tmp" = ".") := by
    intro hname
    rcases hname with hname | hname
    · exact absurd (hlength _ hname) (by decide)
    · exact absurd (hlength _ hname) (by decide)
  have hup : name ++ ".tmp" ≠ ".." := fun hname => absurd (hlength _ hname) (by decide)
  cases hplace : s.get? place with
  | none => simp [walk, hplace] at h
  | some entry =>
    cases entry with
    | file content => simp [walk, hplace] at h
    | directory =>
      simp only [walk, hplace, if_neg hstay, if_neg hup] at h
      by_cases hlong : maxNameSize < (name ++ ".tmp").utf8ByteSize
      · rw [if_pos hlong] at h
        cases h
      · rw [if_neg hlong] at h
        cases h
        rw [String.utf8ByteSize_append] at hlong
        exact ⟨rfl, by omega, rfl⟩

theorem start_temporary (s : FileStore) (path : String) : s.start (temporary path) = s.start path := by
  have hhead : (temporary path).toList.head? = some '/' ↔ path.toList.head? = some '/' := by
    rw [temporary, String.toList_append]
    cases path.toList with
    | nil => decide
    | cons c cs => rfl
  unfold start
  simp only [hhead]

/-- Where there is a place for the temporary file, the population file has another one. -/
theorem locate_temporary {s : FileStore} {path : String} {l : Location}
    (h : s.locate (temporary path) = .ok l) : ∃ l', s.locate path = .ok l' ∧ l' ≠ l := by
  obtain ⟨names, last, hnames, hnames'⟩ := pathNames_temporary path
  obtain ⟨hnul, hsize, hwalk⟩ := locate_ok_iff.mp h
  rw [start_temporary, hnames', walk_append] at hwalk
  obtain ⟨place, hplace, hlast⟩ := Except.bind_ok hwalk
  obtain ⟨hdirectory, hname, rfl⟩ := walk_temporary_ok hlast
  obtain ⟨l', hl', hcases⟩ := walk_name hdirectory hname
  refine ⟨l', locate_ok_iff.mpr ⟨?_, ?_, ?_⟩, ?_⟩
  · rw [temporary, String.toList_append] at hnul
    exact fun hmem => hnul (List.mem_append_left _ hmem)
  · rw [temporary, String.utf8ByteSize_append] at hsize
    omega
  · rw [hnames, walk_append, hplace]
    exact hl'
  · -- The temporary file is deeper than its directory, and has a longer name than a file beside it.
    intro heq
    rcases hcases with rfl | rfl | rfl
    · have hlength := congrArg List.length heq
      simp at hlength
    · have hlength := congrArg List.length heq
      simp at hlength
    · have hlast := List.singleton_inj.mp (List.append_cancel_left heq)
      have hlength := congrArg String.length hlast
      rw [String.length_append] at hlength
      have hfour : ".tmp".length = 4 := by decide
      omega

/-! ### One operation after the other -/

/-- A file store and those before it, the latest first. -/
structure History where
  store : FileStore
  earlier : List FileStore := []

/-- A computation on a history works on its last store and records every store that it installs. -/
instance : MonadStateOf FileStore (StateM History) where
  get h := (h.store, h)
  set t h := ((), ⟨t, h.store :: h.earlier⟩)
  modifyGet f h := ((f h.store).1, ⟨(f h.store).2, h.store :: h.earlier⟩)

/-- The stores that the replacement of a file goes through. -/
inductive Replacement (path : String) (content : ByteArray) (s : FileStore) :
    Except SearchError Unit → History → Prop where
  | unwritten {fault : FileFault} (write : s.write (temporary path) content = .error fault) :
      Replacement path content s (.error (.fileAccess (temporary path) fault)) ⟨s, []⟩
  | unrenamed {written cleaned : FileStore} {fault : FileFault}
      (write : s.write (temporary path) content = .ok written)
      (rename : written.rename (temporary path) path = .error fault)
      (remove : written.remove (temporary path) = .ok cleaned) :
      Replacement path content s (.error (.fileAccess path fault)) ⟨cleaned, [written, s]⟩
  | renamed {written done : FileStore} (write : s.write (temporary path) content = .ok written)
      (rename : written.rename (temporary path) path = .ok done) :
      Replacement path content s (.ok ()) ⟨done, [written, s]⟩

theorem remove_written {s : FileStore} {path : String} {l : Location} (content : ByteArray)
    (hl : s.locate path = .ok l) (hfree : s.get? l ≠ some .directory) :
    (s.insert l (.file content)).remove path = .ok ((s.insert l (.file content)).erase l) := by
  have hplace := (KeepsDirectories.insert hfree (.file content)).locate_ok hl
  have hentry := get?_insert_self s (ne_top_of_not_directory hfree) (.file content)
  unfold remove
  rw [hplace]
  simp only [bind, Except.bind, hentry]

/-- The replacement is the same whether its stores are recorded or not. -/
theorem replaceFile_replacement (path : String) (content : ByteArray) (s : FileStore) :
    ∃ result history, outcome (replaceFile path content) (History.mk s []) = (result, history) ∧
      outcome (replaceFile path content) s = (result, history.store) ∧
      Replacement path content s result history := by
  unfold replaceFile
  cases hwrite : s.write (temporary path) content with
  | error fault =>
    refine ⟨_, _, (bind_of_ok rfl _).trans ?_, (bind_of_ok rfl _).trans ?_, .unwritten hwrite⟩
    all_goals
      simp only [hwrite]
      rfl
  | ok written =>
    cases hrename : written.rename (temporary path) path with
    | ok done =>
      refine ⟨_, _, (bind_of_ok rfl _).trans ?_, (bind_of_ok rfl _).trans ?_,
        .renamed hwrite hrename⟩
      all_goals
        simp only [hwrite]
        refine (bind_of_ok rfl _).trans ?_
        simp only [hrename]
        rfl
    | error fault =>
      obtain ⟨l, hl, hfree, rfl⟩ := write_ok hwrite
      have hremove := remove_written content hl hfree
      refine ⟨_, _, (bind_of_ok rfl _).trans ?_, (bind_of_ok rfl _).trans ?_,
        .unrenamed hwrite hrename hremove⟩
      all_goals
        simp only [hwrite]
        refine (bind_of_ok rfl _).trans ?_
        simp only [hrename, hremove]
        rfl

/-! ### How a write ends -/

/-- The three ways in which the replacement of a population file may end: the temporary file is not
written, it is written but not renamed, or it takes the place of the population file. -/
inductive WriteOutcome (path : String) (content : ByteArray) (s : FileStore) :
    Except SearchError Unit → FileStore → Prop where
  | unwritten {fault : FileFault} (write : s.write (temporary path) content = .error fault) :
      WriteOutcome path content s (.error (.fileAccess (temporary path) fault)) s
  | unrenamed {l : Location} {fault : FileFault} (place : s.locate (temporary path) = .ok l)
      (free : s.get? l ≠ some .directory)
      (rename : (s.insert l (.file content)).rename (temporary path) path = .error fault) :
      WriteOutcome path content s (.error (.fileAccess path fault))
        ((s.insert l (.file content)).erase l)
  | renamed {l l' : Location} (place : s.locate (temporary path) = .ok l)
      (free : s.get? l ≠ some .directory) (target : s.locate path = .ok l')
      (free' : s.get? l' ≠ some .directory) :
      WriteOutcome path content s (.ok ())
        (((s.insert l (.file content)).erase l).insert l' (.file content))

/-- A temporary file comes and goes without a directory being lost. -/
theorem keepsDirectories_written {s : FileStore} {l : Location} (content : ByteArray)
    (hfree : s.get? l ≠ some .directory) :
    KeepsDirectories s ((s.insert l (.file content)).erase l) := by
  have hentry := get?_insert_self s (ne_top_of_not_directory hfree) (.file content)
  have hfile : (s.insert l (.file content)).get? l ≠ some .directory := by
    rw [hentry]
    simp
  exact (KeepsDirectories.insert hfree _).trans (KeepsDirectories.erase hfile)

theorem renamed_written {s t : FileStore} {path : String} {l : Location} {content : ByteArray}
    (hl : s.locate (temporary path) = .ok l) (hfree : s.get? l ≠ some .directory)
    (h : (s.insert l (.file content)).rename (temporary path) path = .ok t) :
    WriteOutcome path content s (.ok ()) t := by
  have hkeeps := KeepsDirectories.insert hfree (.file content)
  obtain ⟨old, new, content', hold, hcontent, hnew, hfree', rfl⟩ := rename_ok h
  obtain rfl : l = old := Except.ok.inj ((hkeeps.locate_ok hl).symm.trans hold)
  obtain ⟨l', hl', hne⟩ := locate_temporary hl
  obtain rfl : l' = new := Except.ok.inj ((hkeeps.locate_ok hl').symm.trans hnew)
  obtain rfl : content = content' := by
    have hentry := get?_insert_self s (ne_top_of_not_directory hfree) (.file content)
    simpa using hentry.symm.trans hcontent
  rw [get?_insert_ne s hne] at hfree'
  exact .renamed hl hfree hl' hfree'

theorem Replacement.ends {path : String} {content : ByteArray} {s : FileStore}
    {result : Except SearchError Unit} {history : History}
    (h : Replacement path content s result history) :
    WriteOutcome path content s result history.store := by
  cases h with
  | unwritten hwrite => exact .unwritten hwrite
  | unrenamed hwrite hrename hremove =>
    obtain ⟨l, hl, hfree, rfl⟩ := write_ok hwrite
    rw [remove_written content hl hfree] at hremove
    cases hremove
    exact .unrenamed hl hfree hrename
  | renamed hwrite hrename =>
    obtain ⟨l, hl, hfree, rfl⟩ := write_ok hwrite
    exact renamed_written hl hfree hrename

theorem writeChromosomes_outcome (path : String) (chromosomes : List Chromosome) (s : FileStore) :
    WriteOutcome path (chromosomeText chromosomes).toUTF8 s
      (outcome (writeChromosomes path chromosomes) s).1
      (outcome (writeChromosomes path chromosomes) s).2 := by
  obtain ⟨result, history, -, hwrite, hreplacement⟩ :=
    replaceFile_replacement path (chromosomeText chromosomes).toUTF8 s
  rw [writeChromosomes, hwrite]
  exact hreplacement.ends

/-! ### Files after a write -/

namespace WriteOutcome

variable {path : String} {content : ByteArray} {s t : FileStore}

theorem done (h : WriteOutcome path content s (.ok ()) t) :
    t.entryAt path = .ok (some (.file content)) ∧ t.entryAt (temporary path) = .ok none ∧
      s.ChangesOnly [path, temporary path] t := by
  cases h with
  | @renamed l l' hl hfree hl' hfree' =>
    obtain ⟨place, hplace, hne⟩ := locate_temporary hl
    obtain rfl : place = l' := Except.ok.inj (hplace.symm.trans hl')
    have hremoved := keepsDirectories_written content hfree
    have hentry : ((s.insert l (.file content)).erase l).get? place = s.get? place := by
      rw [get?_erase_ne _ hne, get?_insert_ne s hne]
    rw [← hentry] at hfree'
    have hkeeps := hremoved.trans (KeepsDirectories.insert hfree' (.file content))
    refine ⟨?_, ?_, ?_⟩
    · rw [hkeeps.entryAt_eq hl', get?_insert_self _ (ne_top_of_not_directory hfree')]
    · rw [hkeeps.entryAt_eq hl, get?_insert_ne _ hne.symm,
        get?_erase_self _ (ne_top_of_not_directory hfree)]
    · have hmem : path ∈ [path, temporary path] := by simp
      have hmem' : temporary path ∈ [path, temporary path] := by simp
      exact (((ChangesOnly.refl s _).insert hmem' hl _).erase hmem' hl).insert hmem hl' _

theorem failed {cause : SearchError}
    (h : WriteOutcome path content s (.error cause) t) :
    t.entryAt path = s.entryAt path ∧ s.ChangesOnly [temporary path] t := by
  cases h with
  | unwritten => exact ⟨rfl, .refl s _⟩
  | unrenamed hl hfree _ =>
    obtain ⟨l', hl', hne⟩ := locate_temporary hl
    have hkeeps := keepsDirectories_written content hfree
    have hmem : temporary path ∈ [temporary path] := List.mem_singleton_self _
    refine ⟨?_, ((ChangesOnly.refl s _).insert hmem hl _).erase hmem hl⟩
    refine hkeeps.entryAt_unchanged hl' ?_
    rw [get?_erase_ne _ hne, get?_insert_ne s hne]

end WriteOutcome

theorem writeChromosomes_error {path : String} {chromosomes : List Chromosome} {s t : FileStore}
    {cause : SearchError} (h : outcome (writeChromosomes path chromosomes) s = (.error cause, t)) :
    ∃ file fault, cause = .fileAccess file fault := by
  have hends := writeChromosomes_outcome path chromosomes s
  simp only [h] at hends
  cases hends with
  | unwritten _ => exact ⟨_, _, rfl⟩
  | unrenamed _ _ _ => exact ⟨_, _, rfl⟩

/-- Where the temporary file is refused nothing else is tried. -/
theorem writeChromosomes_unwritten {path : String} {chromosomes : List Chromosome} {s : FileStore}
    {fault : FileFault}
    (h : s.write (temporary path) (chromosomeText chromosomes).toUTF8 = .error fault) :
    outcome (writeChromosomes path chromosomes) s =
      (.error (.fileAccess (temporary path) fault), s) := by
  obtain ⟨result, history, -, hrun, hreplacement⟩ :=
    replaceFile_replacement path (chromosomeText chromosomes).toUTF8 s
  rw [writeChromosomes, hrun]
  cases hreplacement with
  | unwritten hwrite =>
    cases hwrite.symm.trans h
    rfl
  | unrenamed hwrite => cases hwrite.symm.trans h
  | renamed hwrite => cases hwrite.symm.trans h

/-- Even an empty chromosome has a line. -/
theorem chromosomeText_size_pos {chromosomes : List Chromosome} (h : chromosomes ≠ []) :
    0 < (chromosomeText chromosomes).toUTF8.size := by
  have hline : "\n".utf8ByteSize = 1 := by decide
  obtain rfl | ⟨front, last, rfl⟩ := List.eq_nil_or_concat chromosomes
  · exact absurd rfl h
  · show 0 < (chromosomeText (front.concat last)).utf8ByteSize
    unfold chromosomeText Text.unlines
    rw [List.concat_eq_append, List.map_append, List.foldl_append, List.map_singleton,
      List.foldl_cons, List.foldl_nil, String.utf8ByteSize_append]
    omega

/-- The content that goes to the temporary file is what the renamed file has. -/
theorem read_of_writeChromosomes {path : String} {chromosomes : List Chromosome} {s t : FileStore}
    (h : outcome (writeChromosomes path chromosomes) s = (.ok (), t)) :
    t.read path = .ok (chromosomeText chromosomes).toUTF8 := by
  have hends := writeChromosomes_outcome path chromosomes s
  simp only [h] at hends
  obtain ⟨hentry, -, -⟩ := hends.done
  exact read_of_entryAt hentry

/-- A write that fails leaves the population file as it was. -/
theorem read_of_writeChromosomes_error {path : String} {chromosomes : List Chromosome}
    {s t : FileStore} {cause : SearchError}
    (h : outcome (writeChromosomes path chromosomes) s = (.error cause, t)) :
    t.read path = s.read path := by
  have hends := writeChromosomes_outcome path chromosomes s
  simp only [h] at hends
  obtain ⟨hentry, -⟩ := hends.failed
  rw [read_eq_entryAt, hentry, ← read_eq_entryAt]

end StepSearch.FileStore
