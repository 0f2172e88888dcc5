import Mathlib.Data.Set.Function
import StepSearch.Population.Sources
import StepSearch.Proofs.PopulationFiles

/-!
# The text of chromosomes

Every step has a character of its own, so chromosomes and the texts made of these characters are the
same thing in two forms: each text is read as the one chromosome that is written so. Any other text is
refused, and blamed on its first character that stands for no step.
-/

namespace StepSearch

/-! ### Characters that stand for steps -/

namespace Step

def IsAbbreviation (letter : Char) : Prop :=
  ∃ s : Step, s.abbreviation = letter

theorem isNone_ofAbbreviation?_iff {letter : Char} :
    (ofAbbreviation? letter).isNone = true ↔ ¬ IsAbbreviation letter := by
  unfold IsAbbreviation
  cases h : ofAbbreviation? letter with
  | none =>
    simp only [Option.isNone_none, true_iff]
    rintro ⟨s, hs⟩
    rw [ofAbbreviation?_eq_some_iff.mpr hs] at h
    cases h
  | some s =>
    simp only [Option.isNone_some, Bool.false_eq_true, false_iff, not_not]
    exact ⟨s, ofAbbreviation?_eq_some_iff.mp h⟩

end Step

namespace Chromosome

/-- Whether the text consists of abbreviations of steps. -/
def Legible (text : String) : Prop :=
  ∀ letter ∈ text.toList, Step.IsAbbreviation letter

/-- Whether `letter` is the first character of the text that stands for no step. -/
def FirstUnknown (text : String) (letter : Char) : Prop :=
  ∃ before after, text.toList = before ++ letter :: after ∧
    (∀ known ∈ before, Step.IsAbbreviation known) ∧ ¬ Step.IsAbbreviation letter

theorem find?_eq_none_iff_legible {text : String} :
    text.toList.find? (fun letter => (Step.ofAbbreviation? letter).isNone) = none ↔
      Legible text := by
  rw [List.find?_eq_none]
  refine forall₂_congr fun letter _ => ?_
  rw [Step.isNone_ofAbbreviation?_iff, not_not]

theorem find?_eq_some_iff_firstUnknown {text : String} {letter : Char} :
    text.toList.find? (fun letter => (Step.ofAbbreviation? letter).isNone) = some letter ↔
      FirstUnknown text letter := by
  rw [List.find?_eq_some_iff_append, Step.isNone_ofAbbreviation?_iff]
  simp only [Bool.not_eq_true', Bool.eq_false_iff, ne_eq, Step.isNone_ofAbbreviation?_iff, not_not]
  constructor
  · rintro ⟨hunknown, before, after, htext, hbefore⟩
    exact ⟨before, after, htext, hbefore, hunknown⟩
  · rintro ⟨before, after, htext, hbefore, hunknown⟩
    exact ⟨hunknown, before, after, htext, hbefore⟩

theorem exists_firstUnknown_iff {text : String} :
    (∃ letter, FirstUnknown text letter) ↔ ¬ Legible text := by
  rw [← find?_eq_none_iff_legible, ← ne_eq, Option.ne_none_iff_exists']
  exact exists_congr fun letter => find?_eq_some_iff_firstUnknown.symm

/-! ### Reading -/

theorem parse_error_iff {text : String} {cause : UnknownStep} :
    parse text = .error cause ↔ cause.text = text ∧ FirstUnknown text cause.abbreviation := by
  rw [← find?_eq_some_iff_firstUnknown]
  unfold parse
  cases h : text.toList.find? (fun letter => (Step.ofAbbreviation? letter).isNone) with
  | none => simp
  | some letter =>
    simp only [Except.error.injEq, Option.some.injEq]
    constructor
    · rintro rfl
      exact ⟨rfl, rfl⟩
    · rintro ⟨rfl, rfl⟩
      rfl

theorem parse_ok_iff {text : String} {c : Chromosome} :
    parse text = .ok c ↔ c.toString = text := by
  constructor
  · exact toString_of_parse
  · rintro rfl
    exact parse_toString c

theorem legible_iff {text : String} : Legible text ↔ ∃ c, parse text = .ok c := by
  constructor
  · intro hlegible
    cases h : parse text with
    | ok c => exact ⟨c, rfl⟩
    | error cause =>
      obtain ⟨-, hunknown⟩ := parse_error_iff.mp h
      exact absurd hlegible (exists_firstUnknown_iff.mp ⟨_, hunknown⟩)
  · rintro ⟨c, hc⟩
    by_contra hillegible
    obtain ⟨letter, hletter⟩ := exists_firstUnknown_iff.mpr hillegible
    have herror : parse text = .error ⟨text, letter⟩ := parse_error_iff.mpr ⟨rfl, hletter⟩
    rw [hc] at herror
    cases herror

/-! ### Writing -/

theorem toString_injective : Function.Injective toString := by
  intro a b h
  have ha := parse_toString a
  rw [h, parse_toString b] at ha
  exact (Except.ok.inj ha).symm

theorem length_toString (c : Chromosome) : c.toString.length = c.length := by
  rw [toString, String.length_ofList, List.length_map]
  rfl

theorem toString_append (a b : Chromosome) : (a ++ b).toString = a.toString ++ b.toString := by
  unfold toString
  rw [steps_append, List.map_append, String.ofList_append]

/-- Chromosomes and legible texts are one and the same.

Writing is a bijection from the chromosomes to the texts made of abbreviations, and reading is its
inverse: a text is read as a chromosome exactly if that chromosome is written so, which gives back the
text and as many steps as it has characters. Texts behind each other are the chromosomes behind each
other. A text that is not legible has a first character that stands for no step, and is refused with
the whole text and that character, also where it is given for the initial population. -/
theorem text_is_a_bijection :
    Set.BijOn toString Set.univ {text | Legible text} ∧
    (∀ c, parse c.toString = .ok c) ∧
    (∀ text, (∃ c, parse text = .ok c) ↔ Legible text) ∧
    (∀ text c, parse text = .ok c ↔ c.toString = text ∧ c.length = text.length) ∧
    (∀ text, (∃ letter, FirstUnknown text letter ∧ parse text = .error ⟨text, letter⟩ ∧
      ∀ metric, PopulationSources.ofTexts metric [text] =
        .error (.invalidChromosome ⟨text, letter⟩)) ↔ ¬ Legible text) ∧
    (∀ a b : Chromosome, (a ++ b).toString = a.toString ++ b.toString ∧
      parse (a.toString ++ b.toString) = .ok (a ++ b)) := by
  refine ⟨⟨fun c _ => ?_, toString_injective.injOn, fun text htext => ?_⟩, parse_toString,
    fun text => legible_iff.symm, fun text c => ?_, fun text => ?_,
    fun a b => ⟨toString_append a b, ?_⟩⟩
  · exact legible_iff.mpr ⟨c, parse_toString c⟩
  · obtain ⟨c, hc⟩ := legible_iff.mp htext
    exact ⟨c, Set.mem_univ c, toString_of_parse hc⟩
  · rw [parse_ok_iff]
    constructor
    · rintro rfl
      exact ⟨rfl, (length_toString c).symm⟩
    · exact And.left
  · rw [← exists_firstUnknown_iff]
    refine exists_congr fun letter => ⟨And.left, fun hletter => ?_⟩
    have hparse : parse text = .error ⟨text, letter⟩ := parse_error_iff.mpr ⟨rfl, hletter⟩
    refine ⟨hletter, hparse, fun metric => ?_⟩
    rw [PopulationSources.ofTexts, parseAll, List.mapM_cons, hparse]
    rfl
  · rw [parse_ok_iff, toString_append]

example : parse "fcLT" = .ok ⟨[.blockFlattener, .commonSubexpressionEliminator,
    .loadResolver, .literalRematerialiser]⟩ := by decide

example : parse "fzL?" = .error ⟨"fzL?", 'z'⟩ := by decide

end Chromosome

end StepSearch
