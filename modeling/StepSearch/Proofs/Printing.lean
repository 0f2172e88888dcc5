import StepSearch.Proofs.Grammar
import StepSearch.Proofs.Optimisation

/-!
# Printed programs

A program that was read is printed with one space between its tokens, and reading the print gives the
program back. Optimiser steps do not spoil this: they make no new words, and a word that was read is a
word wherever it is printed.
-/

namespace StepSearch

/-! ### Scanning what is printed -/

namespace Token

/-- Whether a text is a word as the scanner makes them. -/
def IsWord (text : String) : Prop :=
  text.toList ≠ [] ∧ ∀ c ∈ text.toList, isWordChar c = true

theorem brace?_of_wordChar {c : Char} (h : isWordChar c = true) : brace? c = none := by
  simp only [isWordChar, Bool.and_eq_true, Option.isNone_iff_eq_none] at h
  exact h.2

theorem scan_space (offset : Nat) (cs : List Char) :
    scan offset (' ' :: cs) = scan (offset + ' '.utf8Size) cs := by
  have hbrace : brace? ' ' = none := by decide
  have hword : isWordChar ' ' = false := by decide
  rw [scan, hbrace, hword]
  rfl

theorem scan_brace {c : Char} {lexeme : Lexeme} (h : brace? c = some lexeme) (offset : Nat)
    (cs : List Char) :
    scan offset (c :: cs) = ⟨offset, lexeme⟩ :: scan (offset + c.utf8Size) cs := by
  rw [scan, h]

theorem scan_word {text : String} (h : IsWord text) {cs : List Char}
    (hend : ∀ c ∈ cs.head?, isWordChar c = false) (offset : Nat) :
    scan offset (text.toList ++ cs) =
      ⟨offset, .word text⟩ :: scan (offset + byteSize text.toList) cs := by
  obtain ⟨hne, hchars⟩ := h
  cases hword : text.toList with
  | nil => exact absurd hword hne
  | cons c rest =>
    rw [hword] at hchars
    obtain ⟨hc, hrest⟩ := List.forall_mem_cons.mp hchars
    have hstop : cs.takeWhile isWordChar = [] ∧ cs.dropWhile isWordChar = cs := by
      cases cs with
      | nil => exact ⟨rfl, rfl⟩
      | cons d ds =>
        have hd : ¬ isWordChar d = true := by simp [hend d rfl]
        exact ⟨List.takeWhile_cons_of_neg hd, List.dropWhile_cons_of_neg hd⟩
    have htake : (rest ++ cs).takeWhile isWordChar = rest := by
      rw [List.takeWhile_append_of_pos hrest, hstop.1, List.append_nil]
    have hdrop : (rest ++ cs).dropWhile isWordChar = cs := by
      rw [List.dropWhile_append_of_pos hrest, hstop.2]
    have htext : String.ofList (c :: rest) = text := by
      rw [← hword, String.ofList_toList]
    rw [List.cons_append, scan, brace?_of_wordChar hc]
    simp only [hc, if_true, htake, hdrop, htext]

end Token

namespace Lexeme

/-- Whether the text of a token is read as this token. -/
def Readable (lexeme : Lexeme) : Prop :=
  ∀ text, lexeme = .word text → Token.IsWord text

theorem scan_text {lexeme : Lexeme} (h : lexeme.Readable) {cs : List Char}
    (hend : ∀ c ∈ cs.head?, Token.isWordChar c = false) (offset : Nat) :
    Token.scan offset (lexeme.text.toList ++ cs) =
      ⟨offset, lexeme⟩ :: Token.scan (offset + Token.byteSize lexeme.text.toList) cs := by
  cases lexeme with
  | opening => exact Token.scan_brace (by decide) offset cs
  | closing => exact Token.scan_brace (by decide) offset cs
  | word text => exact Token.scan_word (h text rfl) hend offset

theorem scan_intercalate {lexemes : List Lexeme} (h : ∀ lexeme ∈ lexemes, lexeme.Readable)
    (offset : Nat) :
    (Token.scan offset ([' '].intercalate (lexemes.map fun l => l.text.toList))).map Token.lexeme =
      lexemes := by
  -- The offset moves on with every token, but no token depends on it.
  induction lexemes generalizing offset with
  | nil =>
    rw [List.map_nil, List.intercalate_nil, Token.scan]
    rfl
  | cons lexeme lexemes ih =>
    obtain ⟨hfirst, hrest⟩ := List.forall_mem_cons.mp h
    cases lexemes with
    | nil =>
      have hend : ∀ c ∈ ([] : List Char).head?, Token.isWordChar c = false := by simp
      have hscan := scan_text hfirst hend offset
      rw [List.append_nil, Token.scan] at hscan
      rw [List.map_singleton, List.intercalate_singleton, hscan, List.map_singleton]
    | cons next lexemes =>
      have hsplit : [' '].intercalate ((lexeme :: next :: lexemes).map fun l => l.text.toList) =
          lexeme.text.toList ++ ' ' ::
            [' '].intercalate ((next :: lexemes).map fun l => l.text.toList) := by
        simp [List.intercalate_cons_cons]
      have hend : ∀ c ∈ (' ' :: [' '].intercalate
          ((next :: lexemes).map fun l => l.text.toList)).head?, Token.isWordChar c = false := by
        intro c hc
        cases hc
        decide
      rw [hsplit, scan_text hfirst hend, Token.scan_space, List.map_cons, ih hrest]

end Lexeme

/-! ### Words of a program -/

theorem Body.mem_words_iff (b : Body) (text : String) : .word text ∈ b.lexemes ↔ text ∈ b.words := by
  induction b with
  | nil => simp [lexemes, words]
  | word text' rest ih => simp [lexemes, words, ih]
  | block inner rest ihInner ihRest => simp [lexemes, words, ihInner, ihRest]

namespace Program

/-- Whether every word of a program is a word as the scanner makes them. -/
def Readable (p : Program) : Prop :=
  ∀ text ∈ p.body.words, Token.IsWord text

theorem readable_of_load {text : String} {p : Program} (h : load text = .ok p) : p.Readable := by
  intro word hword
  have hlexeme : .word word ∈ p.lexemes := by
    have hbody := (Body.mem_words_iff p.body word).mpr hword
    simp [lexemes, hbody]
  rw [← (load_ok_iff text p).mp h] at hlexeme
  obtain ⟨t, ht, htext⟩ := List.mem_map.mp hlexeme
  exact Token.word_of_mem_scan ht htext

theorem Readable.optimise {p : Program} (h : p.Readable) (steps : List Step) :
    (p.optimise steps).Readable := by
  unfold Readable
  rw [words_optimise]
  exact h

theorem Readable.lexemes {p : Program} (h : p.Readable) :
    ∀ lexeme ∈ p.lexemes, lexeme.Readable := by
  intro lexeme hlexeme word heq
  subst heq
  have hbody : .word word ∈ p.body.lexemes := by
    simpa [Program.lexemes] using hlexeme
  exact h word ((Body.mem_words_iff p.body word).mp hbody)

theorem scanText_toString {p : Program} (h : p.Readable) :
    (Token.scanText p.toString).map Token.lexeme = p.lexemes := by
  have hchars : p.toString.toList =
      [' '].intercalate (p.lexemes.map fun l => l.text.toList) := by
    rw [toString, String.toList_intercalate, List.map_map]
    rfl
  rw [Token.scanText, hchars]
  exact Lexeme.scan_intercalate h.lexemes 0

theorem load_toString {p : Program} (h : p.Readable) : load p.toString = .ok p :=
  (load_ok_iff p.toString p).mpr (scanText_toString h)

theorem tokenTexts_eq_of_load {text : String} {p : Program} (h : load text = .ok p) :
    tokenTexts text = p.lexemes.map Lexeme.text := by
  rw [← (load_ok_iff text p).mp h, List.map_map]
  rfl

/-- A program that was read, and whatever optimiser steps make of it, is read back from its print.
The print has the tokens of the text that was read, so that programs are told by their prints. -/
theorem printed_program_is_read_back {text : String} {p : Program} (h : load text = .ok p) :
    (∀ steps, load (p.optimise steps).toString = .ok (p.optimise steps)) ∧
    tokenTexts p.toString = tokenTexts text ∧
    ∀ text' p', load text' = .ok p' → (p = p' ↔ p.toString = p'.toString) := by
  have hreadable := readable_of_load h
  have hprint := load_toString hreadable
  refine ⟨fun steps => load_toString (hreadable.optimise steps), ?_, fun text' p' h' => ?_⟩
  · rw [tokenTexts_eq_of_load hprint, tokenTexts_eq_of_load h]
  · have hprint' := load_toString (readable_of_load h')
    constructor
    · intro heq
      rw [heq]
    · intro heq
      rw [heq] at hprint
      exact Except.ok.inj (hprint.symm.trans hprint')

theorem spaced_program_is_read_back : ∃ p p',
    load "\x7b a  \x7bb c\x7d\n\x7b\x7d \x7d" = .ok p ∧
    load (p.optimise [.unusedPruner]).toString = .ok (p.optimise [.unusedPruner]) ∧
    (p.optimise [.unusedPruner]).toString = "\x7b a \x7b b c \x7d \x7d" ∧
    load "\x7ba\x7bb c\x7d\x7d" = .ok p' ∧ p.toString ≠ p'.toString := by
  have hspaced : load "\x7b a  \x7bb c\x7d\n\x7b\x7d \x7d" =
      .ok ⟨.word "a" (.block (.word "b" (.word "c" .nil)) (.block .nil .nil))⟩ :=
    (load_ok_iff _ _).mpr (by decide +kernel)
  have hdense : load "\x7ba\x7bb c\x7d\x7d" =
      .ok ⟨.word "a" (.block (.word "b" (.word "c" .nil)) .nil)⟩ :=
    (load_ok_iff _ _).mpr (by decide +kernel)
  obtain ⟨hoptimised, -, htold⟩ := printed_program_is_read_back hspaced
  refine ⟨_, _, hspaced, hoptimised [.unusedPruner], by decide +kernel, hdense, ?_⟩
  exact fun h => absurd ((htold _ _ hdense).mpr h) (by decide)

end Program

end StepSearch
