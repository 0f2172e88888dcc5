import StepSearch.Program.Token

/-!
# Scanning

The tokens of a text in the order of the text: each starts at a greater offset than the one before,
a word has only word characters, and a text without tokens is blank.
-/

namespace StepSearch.Token

/-! ### Characters -/

theorem brace?_some {c : Char} {lexeme : Lexeme} (h : brace? c = some lexeme) :
    c = '\x7b' ∧ lexeme = .opening ∨ c = '\x7d' ∧ lexeme = .closing := by
  unfold brace? at h
  by_cases hopening : c = '\x7b'
  · rw [if_pos hopening] at h
    exact .inl ⟨hopening, (Option.some.inj h).symm⟩
  rw [if_neg hopening] at h
  by_cases hclosing : c = '\x7d'
  · rw [if_pos hclosing] at h
    exact .inr ⟨hclosing, (Option.some.inj h).symm⟩
  · rw [if_neg hclosing] at h
    cases h

theorem isBlank_of_brace {c : Char} {lexeme : Lexeme} (h : brace? c = some lexeme) :
    Text.isBlank c = false := by
  rcases brace?_some h with ⟨rfl, -⟩ | ⟨rfl, -⟩
  · decide
  · decide

theorem isBlank_of_wordChar {c : Char} (h : isWordChar c = true) : Text.isBlank c = false := by
  simp only [isWordChar, Bool.and_eq_true, Bool.not_eq_true'] at h
  exact h.1

theorem isBlank_of_separator {c : Char} (hbrace : brace? c = none)
    (hword : ¬ isWordChar c = true) : Text.isBlank c = true := by
  simpa [isWordChar, hbrace] using hword

/-! ### Offsets -/

theorem le_byteSize_cons (c : Char) (cs : List Char) : c.utf8Size ≤ byteSize (c :: cs) := by
  rw [byteSize]
  exact Nat.le_add_right _ _

theorem le_offset_of_mem_scan {offset : Nat} {cs : List Char} {t : Token}
    (h : t ∈ scan offset cs) : offset ≤ t.offset := by
  induction offset, cs using scan.induct with
  | case1 offset => simp [scan] at h
  | case2 offset c cs lexeme hbrace ih =>
    rw [scan] at h
    simp only [hbrace, List.mem_cons] at h
    rcases h with rfl | h
    · exact Nat.le_refl offset
    · have hrest := ih h
      omega
  | case3 offset c cs hbrace hword word ih =>
    rw [scan] at h
    simp only [hbrace, hword, if_true, List.mem_cons] at h
    rcases h with rfl | h
    · exact Nat.le_refl offset
    · have hrest := ih h
      omega
  | case4 offset c cs hbrace hword ih =>
    rw [scan] at h
    simp only [hbrace, hword] at h
    have hrest := ih h
    omega

/-- The tokens of a text stand at increasing offsets. -/
theorem scan_increasing (offset : Nat) (cs : List Char) :
    (scan offset cs).Pairwise fun s t => s.offset < t.offset := by
  induction offset, cs using scan.induct with
  | case1 offset =>
    rw [scan]
    exact List.Pairwise.nil
  | case2 offset c cs lexeme hbrace ih =>
    rw [scan]
    simp only [hbrace]
    refine List.pairwise_cons.mpr ⟨fun t ht => ?_, ih⟩
    have hle := le_offset_of_mem_scan ht
    have hpos := c.utf8Size_pos
    show offset < t.offset
    omega
  | case3 offset c cs hbrace hword word ih =>
    rw [scan]
    simp only [hbrace, hword, if_true]
    refine List.pairwise_cons.mpr ⟨fun t ht => ?_, ih⟩
    have hle := le_offset_of_mem_scan ht
    have hpos := c.utf8Size_pos
    have hsize := le_byteSize_cons c (cs.takeWhile isWordChar)
    show offset < t.offset
    omega
  | case4 offset c cs hbrace hword ih =>
    rw [scan]
    simp only [hbrace, hword]
    exact ih

/-! ### Blank texts and words -/

theorem scan_eq_nil_iff (offset : Nat) (cs : List Char) :
    scan offset cs = [] ↔ ∀ c ∈ cs, Text.isBlank c = true := by
  induction offset, cs using scan.induct with
  | case1 offset => simp [scan]
  | case2 offset c cs lexeme hbrace ih =>
    rw [scan]
    simp [hbrace, isBlank_of_brace hbrace]
  | case3 offset c cs hbrace hword word ih =>
    rw [scan]
    simp [hbrace, hword, isBlank_of_wordChar hword]
  | case4 offset c cs hbrace hword ih =>
    rw [scan]
    simp [hbrace, hword, isBlank_of_separator hbrace hword, ih]

/-- A text has no token exactly if it is blank. -/
theorem scanText_eq_nil_iff (text : String) :
    scanText text = [] ↔ ∀ c ∈ text.toList, Text.isBlank c = true :=
  scan_eq_nil_iff 0 text.toList

/-- A word of a text is not empty and has only word characters. -/
theorem word_of_mem_scan {offset : Nat} {cs : List Char} {t : Token} {text : String}
    (h : t ∈ scan offset cs) (hlexeme : t.lexeme = .word text) :
    text.toList ≠ [] ∧ ∀ c ∈ text.toList, isWordChar c = true := by
  induction offset, cs using scan.induct with
  | case1 offset => simp [scan] at h
  | case2 offset c cs lexeme hbrace ih =>
    rw [scan] at h
    simp only [hbrace, List.mem_cons] at h
    rcases h with rfl | h
    · cases hlexeme
      rcases brace?_some hbrace with ⟨-, hlexeme⟩ | ⟨-, hlexeme⟩
      · cases hlexeme
      · cases hlexeme
    · exact ih h
  | case3 offset c cs hbrace hword word ih =>
    rw [scan] at h
    simp only [hbrace, hword, if_true, List.mem_cons] at h
    rcases h with rfl | h
    · cases hlexeme
      rw [String.toList_ofList]
      refine ⟨List.cons_ne_nil c _, List.forall_mem_cons.mpr ⟨hword, fun d hd => ?_⟩⟩
      exact List.all_eq_true.mp List.all_takeWhile d hd
    · exact ih h
  | case4 offset c cs hbrace hword ih =>
    rw [scan] at h
    simp only [hbrace, hword] at h
    exact ih h

end StepSearch.Token
