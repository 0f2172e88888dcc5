import StepSearch.Proofs.AtomicWrites

/-!
# Population files

What is written to a population file is read back: a text of lines without line ends inside is split
into the same lines, and a chromosome is told by its abbreviations.
-/

namespace StepSearch

/-! ### Lines -/

namespace Text

/-- Whether a line has no character that could belong to the end of a line. -/
def Unbroken (line : List Char) : Prop :=
  ∀ c ∈ line, c ≠ '\n' ∧ c ≠ '\r'

theorem splitLines_append {line : List Char} (h : Unbroken line) (rest : List Char) :
    splitLines (line ++ '\n' :: rest) = line :: splitLines rest := by
  induction line with
  | nil => rw [List.nil_append, splitLines]
  | cons c line ih =>
    obtain ⟨hc, hline⟩ := List.forall_mem_cons.mp h
    rw [List.cons_append, splitLines, ih hline, consLine]
    · exact fun hfeed => hc.1 hfeed
    · exact fun _ hreturn => absurd hreturn hc.2

theorem toList_foldl_line (text : String) (lines : List String) :
    (lines.foldl (fun text line => text ++ line ++ "\n") text).toList =
      text.toList ++ lines.flatMap fun line => line.toList ++ ['\n'] := by
  induction lines generalizing text with
  | nil => simp
  | cons line lines ih =>
    rw [List.foldl_cons, ih, List.flatMap_cons]
    simp

theorem toList_unlines (texts : List String) :
    (unlines texts).toList = texts.flatMap fun text => text.toList ++ ['\n'] := by
  unfold unlines
  rw [toList_foldl_line, String.toList_empty, List.nil_append]

/-- Lines that are written are read back, empty ones included. -/
theorem lines_unlines {texts : List String} (h : ∀ text ∈ texts, Unbroken text.toList) :
    lines (unlines texts) = texts := by
  have hsplit : splitLines (texts.flatMap fun text => text.toList ++ ['\n']) =
      texts.map String.toList := by
    induction texts with
    | nil => rfl
    | cons text texts ih =>
      obtain ⟨htext, htexts⟩ := List.forall_mem_cons.mp h
      rw [List.flatMap_cons, List.append_assoc, List.singleton_append, splitLines_append htext,
        ih htexts, List.map_cons]
  rw [lines, toList_unlines, hsplit, List.map_map]
  conv => rhs; rw [← List.map_id texts]
  exact List.map_congr_left fun text _ => String.ofList_toList

end Text

/-! ### Chromosomes -/

theorem Step.abbreviation_unbroken (s : Step) : s.abbreviation ≠ '\n' ∧ s.abbreviation ≠ '\r' := by
  cases s <;> decide

/-- Letters that stand for steps are the abbreviations of the steps they are read as. -/
theorem Step.map_abbreviation_filterMap {letters : List Char}
    (h : ∀ letter ∈ letters, ¬ (ofAbbreviation? letter).isNone = true) :
    (letters.filterMap ofAbbreviation?).map abbreviation = letters := by
  induction letters with
  | nil => rfl
  | cons letter letters ih =>
    obtain ⟨hletter, hletters⟩ := List.forall_mem_cons.mp h
    cases hs : ofAbbreviation? letter with
    | none => simp [hs] at hletter
    | some s =>
      have hs' : s.abbreviation = letter := ofAbbreviation?_eq_some_iff.mp hs
      rw [List.filterMap_cons_some hs, List.map_cons, hs', ih hletters]

namespace Chromosome

theorem toString_unbroken (c : Chromosome) : Text.Unbroken c.toString.toList := by
  intro letter hletter
  rw [toString, String.toList_ofList] at hletter
  obtain ⟨s, -, rfl⟩ := List.mem_map.mp hletter
  exact s.abbreviation_unbroken

/-- A chromosome is told by its abbreviations. -/
theorem parse_toString (c : Chromosome) : parse c.toString = .ok c := by
  unfold parse
  have hknown : (c.steps.map Step.abbreviation).find?
      (fun letter => (Step.ofAbbreviation? letter).isNone) = none := by
    rw [List.find?_eq_none]
    intro letter hletter
    obtain ⟨s, -, rfl⟩ := List.mem_map.mp hletter
    simp [Step.ofAbbreviation?_abbreviation]
  have hsteps : (c.steps.map Step.abbreviation).filterMap Step.ofAbbreviation? = c.steps := by
    have hsome : Step.ofAbbreviation? ∘ Step.abbreviation = some :=
      funext Step.ofAbbreviation?_abbreviation
    rw [List.filterMap_map, hsome, List.filterMap_some]
  rw [toString, String.toList_ofList, hknown, hsteps]

theorem parseAll_toString (chromosomes : List Chromosome) :
    parseAll (chromosomes.map toString) = .ok chromosomes := by
  induction chromosomes with
  | nil => rfl
  | cons c chromosomes ih =>
    unfold parseAll at ih ⊢
    rw [List.map_cons, List.mapM_cons, parse_toString, ih]
    rfl

/-- What is read as a chromosome is the text of that chromosome. -/
theorem toString_of_parse {text : String} {c : Chromosome} (h : parse text = .ok c) :
    c.toString = text := by
  unfold parse at h
  cases hfind : text.toList.find? (fun letter => (Step.ofAbbreviation? letter).isNone) with
  | some letter => simp [hfind] at h
  | none =>
    rw [hfind] at h
    obtain rfl := Except.ok.inj h
    have hknown := Step.map_abbreviation_filterMap (List.find?_eq_none.mp hfind)
    rw [toString, hknown, String.ofList_toList]

theorem map_toString_of_parseAll {texts : List String} {chromosomes : List Chromosome}
    (h : parseAll texts = .ok chromosomes) : chromosomes.map toString = texts := by
  unfold parseAll at h
  induction texts generalizing chromosomes with
  | nil =>
    cases h
    rfl
  | cons text texts ih =>
    rw [List.mapM_cons] at h
    obtain ⟨c, hc, h⟩ := Except.bind_ok h
    obtain ⟨rest, hrest, h⟩ := Except.bind_ok h
    cases h
    rw [List.map_cons, toString_of_parse hc, ih hrest]

end Chromosome

/-! ### Files that are read back -/

namespace FileStore

theorem fromUTF8?_toUTF8 (text : String) : String.fromUTF8? text.toUTF8 = some text := by
  unfold String.fromUTF8?
  have hvalid : text.toUTF8.IsValidUTF8 := text.isValidUTF8
  rw [dif_pos hvalid]
  rfl

theorem readText_of_read {s : FileStore} {path text : String} (h : s.read path = .ok text.toUTF8) :
    s.readText path = .ok text := by
  unfold readText
  rw [h]
  simp only [bind, Except.bind, fromUTF8?_toUTF8]

/-- A population file that was written has the same chromosomes in the same order. -/
theorem readChromosomes_of_writeChromosomes {path : String} {chromosomes : List Chromosome}
    {s t : FileStore} (h : outcome (writeChromosomes path chromosomes) s = (.ok (), t)) :
    t.readChromosomes path = .ok chromosomes := by
  have hlines : ∀ text ∈ chromosomes.map Chromosome.toString, Text.Unbroken text.toList := by
    intro text htext
    obtain ⟨c, -, rfl⟩ := List.mem_map.mp htext
    exact c.toString_unbroken
  have htext := readText_of_read (read_of_writeChromosomes h)
  have hread : t.readLines path = .ok (chromosomes.map Chromosome.toString) := by
    unfold readLines
    rw [htext, chromosomeText]
    show Except.ok (Text.lines (Text.unlines (chromosomes.map Chromosome.toString))) = _
    rw [Text.lines_unlines hlines]
  unfold readChromosomes
  rw [hread]
  show (Chromosome.parseAll (chromosomes.map Chromosome.toString)).mapError _ = _
  rw [Chromosome.parseAll_toString]
  rfl

end FileStore

end StepSearch
