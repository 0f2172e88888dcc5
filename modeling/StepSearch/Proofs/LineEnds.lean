import StepSearch.Proofs.PopulationFiles

/-!
# Line ends of population files

A population file may end its lines in two ways and leave out the last end. Reading takes no notice of
that, and writing the chromosomes that were read gives the same text with a line feed behind every
line. Nothing else is lost between reading and writing, empty lines at the end included.
-/

namespace StepSearch

/-! ### One kind of line end -/

namespace Text

/-- The text with a line feed in the place of every pair of a carriage return and a line feed. -/
def unifyEnds : List Char → List Char
  | [] => []
  | '\r' :: '\n' :: cs => '\n' :: unifyEnds cs
  | c :: cs => c :: unifyEnds cs

/-- The text with a line feed behind it, unless it is empty or has one there already. -/
def endLastLine (text : List Char) : List Char :=
  if text = [] ∨ text.getLast? = some '\n' then text else text ++ ['\n']

/-- The text with the same lines in which every line, the last one too, ends with a line feed. -/
def withLineFeeds (text : String) : String :=
  String.ofList (endLastLine (unifyEnds text.toList))

theorem endLastLine_cons {text : List Char} (c : Char) (h : text ≠ []) :
    endLastLine (c :: text) = c :: endLastLine text := by
  have hlast : (c :: text).getLast? = text.getLast? := by
    cases text with
    | nil => exact absurd rfl h
    | cons d text => exact List.getLast?_cons_cons
  unfold endLastLine
  rw [hlast]
  by_cases hend : text.getLast? = some '\n'
  · simp [hend]
  · simp [hend, h]

theorem endLastLine_feed (text : List Char) :
    endLastLine ('\n' :: text) = '\n' :: endLastLine text := by
  cases text with
  | nil => rfl
  | cons c text => exact endLastLine_cons '\n' (List.cons_ne_nil c text)

theorem unifyEnds_eq_nil_iff {text : List Char} : unifyEnds text = [] ↔ text = [] := by
  fun_cases unifyEnds text <;> simp

theorem consLine_ne_nil (c : Char) (lines : List (List Char)) : consLine c lines ≠ [] := by
  cases lines <;> simp [consLine]

theorem splitLines_eq_nil_iff {text : List Char} : splitLines text = [] ↔ text = [] := by
  fun_cases splitLines text <;> simp [consLine_ne_nil]

theorem flatMap_splitLines (text : List Char) :
    (splitLines text).flatMap (fun line => line ++ ['\n']) = endLastLine (unifyEnds text) := by
  fun_induction splitLines text with
  | case1 => rfl
  | case2 cs ih =>
    rw [unifyEnds, endLastLine_feed, ← ih]
    · rfl
    · simp
  | case3 cs ih =>
    rw [unifyEnds, endLastLine_feed, ← ih]
    rfl
  | case4 c cs hfeed hreturn ih =>
    have hunify : unifyEnds (c :: cs) = c :: unifyEnds cs := by
      rw [unifyEnds]
      exact fun rest hc hcs => hreturn rest hc hcs
    rw [hunify]
    cases hlines : splitLines cs with
    | nil =>
      -- The last character of the text, whose line has no end yet.
      have hcs : cs = [] := splitLines_eq_nil_iff.mp hlines
      have hc : c ≠ '\n' := fun h => hfeed h
      subst hcs
      simp [consLine, unifyEnds, endLastLine, hc]
    | cons line lines =>
      have hcs : unifyEnds cs ≠ [] := by
        intro h
        rw [unifyEnds_eq_nil_iff.mp h] at hlines
        cases hlines
      rw [endLastLine_cons c hcs, ← ih, hlines]
      rfl

/-- Writing the lines of a text gives the text back, up to the ends of the lines. -/
theorem unlines_lines (text : String) : unlines (lines text) = withLineFeeds text := by
  have hlist : (unlines (lines text)).toList = endLastLine (unifyEnds text.toList) := by
    rw [toList_unlines, lines, List.flatMap_map, ← flatMap_splitLines]
    simp only [String.toList_ofList]
  rw [withLineFeeds, ← hlist, String.ofList_toList]

end Text

/-! ### Reading, then writing -/

namespace FileStore

theorem readChromosomes_ok {s : FileStore} {path : String} {chromosomes : List Chromosome}
    (h : s.readChromosomes path = .ok chromosomes) :
    ∃ text, s.readText path = .ok text ∧ chromosomes.map Chromosome.toString = Text.lines text := by
  obtain ⟨lines, hlines, hparse⟩ := Except.bind_ok h
  obtain ⟨text, htext, rfl⟩ := Except.map_ok (Except.mapError_eq_ok hlines)
  have hall := Except.mapError_eq_ok hparse
  exact ⟨text, htext, Chromosome.map_toString_of_parseAll hall⟩

/-- Chromosomes that were read from a text have that text as their content, up to the line ends. -/
theorem chromosomeText_of_readChromosomes {s : FileStore} {path text : String}
    {chromosomes : List Chromosome} (hread : s.read path = .ok text.toUTF8)
    (h : s.readChromosomes path = .ok chromosomes) :
    chromosomeText chromosomes = Text.withLineFeeds text := by
  obtain ⟨text', htext', hlines⟩ := readChromosomes_ok h
  have htext := readText_of_read hread
  obtain rfl : text = text' := Except.ok.inj (htext.symm.trans htext')
  rw [chromosomeText, hlines, Text.unlines_lines]

/-- Population files keep their chromosomes.

What was written is read back as it was, in the same order. The other way round, a text that is read
as chromosomes has the same lines as what is written for them: every pair of a carriage return and a
line feed has become a line feed, and a last line without an end has been given one. -/
theorem population_file_round_trip :
    (∀ (s t : FileStore) (path : String) (chromosomes : List Chromosome),
      outcome (writeChromosomes path chromosomes) s = (.ok (), t) →
      t.readChromosomes path = .ok chromosomes) ∧
    ∀ (s : FileStore) (path text : String) (chromosomes : List Chromosome),
      s.read path = .ok text.toUTF8 → s.readChromosomes path = .ok chromosomes →
      ∀ (t u : FileStore) (path' : String),
        outcome (writeChromosomes path' chromosomes) t = (.ok (), u) →
        u.read path' = .ok (Text.withLineFeeds text).toUTF8 := by
  refine ⟨fun s t path chromosomes h => readChromosomes_of_writeChromosomes h, ?_⟩
  intro s path text chromosomes hread hchromosomes t u path' hwrite
  rw [read_of_writeChromosomes hwrite, chromosomeText_of_readChromosomes hread hchromosomes]

/-- Both kinds of line ends, an empty line, and a last line without an end. -/
def mixedStore : FileStore :=
  ((FileStore.write {} "p" "fc\r\n\r\nu\nLa".toUTF8).toOption).getD {}

def mixedChromosomes : List Chromosome :=
  [⟨[.blockFlattener, .commonSubexpressionEliminator]⟩, ⟨[]⟩, ⟨[.unusedPruner]⟩,
    ⟨[.loadResolver, .ssaTransform]⟩]

theorem mixed_line_ends_round_trip : ∃ t,
    mixedStore.readChromosomes "p" = .ok mixedChromosomes ∧
    outcome (writeChromosomes "q" mixedChromosomes) mixedStore = (.ok (), t) ∧
    t.readChromosomes "q" = .ok mixedChromosomes ∧ t.read "q" = .ok "fc\n\nu\nLa\n".toUTF8 := by
  have hread : mixedStore.read "p" = .ok "fc\r\n\r\nu\nLa".toUTF8 := rfl
  have hchromosomes : mixedStore.readChromosomes "p" = .ok mixedChromosomes := by rfl
  rcases hwrite : outcome (writeChromosomes "q" mixedChromosomes) mixedStore with ⟨result, t⟩
  have hresult : result = .ok () := by
    have hfirst : (outcome (writeChromosomes "q" mixedChromosomes) mixedStore).1 = .ok () := rfl
    rw [hwrite] at hfirst
    exact hfirst
  subst hresult
  obtain ⟨hback, hforth⟩ := population_file_round_trip
  have htext : Text.withLineFeeds "fc\r\n\r\nu\nLa" = "fc\n\nu\nLa\n" := by rfl
  refine ⟨t, hchromosomes, rfl, hback mixedStore t "q" mixedChromosomes hwrite, ?_⟩
  rw [hforth mixedStore "p" _ _ hread hchromosomes mixedStore t "q" hwrite, htext]

end FileStore

end StepSearch
