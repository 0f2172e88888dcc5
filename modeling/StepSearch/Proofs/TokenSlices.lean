import StepSearch.Proofs.Scanning

/-!
# Tokens as slices

What the scanner says of a token is so in the text: the token is the slice of the text from its offset
on, cut between whole characters. The slices lie behind one another, each is a brace or a longest run of
word characters, and only white space lies between them.
-/

namespace StepSearch.Token

/-- The byte offset behind a token. -/
def stop (t : Token) : Nat :=
  t.offset + t.lexeme.text.utf8ByteSize

/-- Whether a character belongs to no word: it is white space or a brace. -/
def Separates (c : Char) : Prop :=
  Text.isBlank c = true ∨ c = '\x7b' ∨ c = '\x7d'

/-- Whether some characters of a text, but no more on either side of them, belong to one word. -/
structure LongestRun (before word after : List Char) : Prop where
  ne_nil : word ≠ []
  within : ∀ c ∈ word, ¬ Separates c
  starts : ∀ c ∈ before.getLast?, Separates c
  ends : ∀ c ∈ after.head?, Separates c

/-- Whether a token is a brace by itself or a longest run. -/
def BraceOrRun (before : List Char) (lexeme : Lexeme) (after : List Char) : Prop :=
  lexeme = .opening ∧ lexeme.text = "\x7b" ∨ lexeme = .closing ∧ lexeme.text = "\x7d" ∨
    lexeme = .word lexeme.text ∧ LongestRun before lexeme.text.toList after

/-! ### Characters -/

theorem separates_iff {c : Char} : Separates c ↔ isWordChar c = false := by
  unfold Separates isWordChar brace?
  by_cases hopening : c = '\x7b'
  · simp [hopening]
  · by_cases hclosing : c = '\x7d'
    · simp [hclosing]
    · simp [hopening, hclosing]

theorem separates_of_brace {c : Char} {lexeme : Lexeme} (h : brace? c = some lexeme) :
    Separates c := by
  rcases brace?_some h with ⟨hc, -⟩ | ⟨hc, -⟩
  · exact .inr (.inl hc)
  · exact .inr (.inr hc)

theorem text_of_brace {c : Char} {lexeme : Lexeme} (h : brace? c = some lexeme) :
    lexeme.text.toList = [c] := by
  rcases brace?_some h with ⟨rfl, rfl⟩ | ⟨rfl, rfl⟩
  · rfl
  · rfl

theorem braceOrRun_of_brace {c : Char} {lexeme : Lexeme} (h : brace? c = some lexeme)
    (before after : List Char) : BraceOrRun before lexeme after := by
  rcases brace?_some h with ⟨-, rfl⟩ | ⟨-, rfl⟩
  · exact .inl ⟨rfl, rfl⟩
  · exact .inr (.inl ⟨rfl, rfl⟩)

theorem byteSize_eq (cs : List Char) : byteSize cs = (String.ofList cs).utf8ByteSize := by
  induction cs with
  | nil => rfl
  | cons c cs ih =>
    rw [byteSize, ih, String.ofList_cons, String.utf8ByteSize_append, String.utf8ByteSize_singleton]

theorem byteSize_append (cs ds : List Char) : byteSize (cs ++ ds) = byteSize cs + byteSize ds := by
  simp only [byteSize_eq, String.ofList_append, String.utf8ByteSize_append]

theorem head?_dropWhile_separates (cs : List Char) :
    ∀ c ∈ (cs.dropWhile isWordChar).head?, Separates c := by
  intro c hc
  have hstop := List.head?_dropWhile_not isWordChar cs
  rw [Option.mem_def.mp hc] at hstop
  exact separates_iff.mpr (by simpa using hstop)

/-! ### Cuts -/

theorem longestRun_word {c : Char} (hword : isWordChar c = true) (cs : List Char) :
    LongestRun [] (c :: cs.takeWhile isWordChar) (cs.dropWhile isWordChar) := by
  constructor
  case ne_nil => exact List.cons_ne_nil c _
  case within =>
    intro d hd
    have hd' : isWordChar d = true := by
      rcases List.mem_cons.mp hd with rfl | hd
      · exact hword
      · exact List.all_eq_true.mp List.all_takeWhile d hd
    rw [separates_iff, hd']
    exact Bool.noConfusion
  case starts => simp
  case ends => exact head?_dropWhile_separates cs

section Prepend

variable {before chars after done : List Char}

/-- No run starts where a character separates words. -/
theorem LongestRun.not_head (h : LongestRun before chars after)
    (hhead : ∀ c ∈ (chars ++ after).head?, Separates c) : False := by
  cases chars with
  | nil => exact h.ne_nil rfl
  | cons c cs => exact h.within c List.mem_cons_self (hhead c rfl)

/-- What is put before all of this makes no run longer, if a character separates on either side. -/
theorem LongestRun.prepend (h : LongestRun before chars after)
    (hdone : (∀ c ∈ done.getLast?, Separates c) ∨
      ∀ c ∈ (before ++ (chars ++ after)).head?, Separates c) :
    LongestRun (done ++ before) chars after := by
  refine ⟨h.ne_nil, h.within, fun c hc => ?_, h.ends⟩
  cases before with
  | nil =>
    rw [List.append_nil] at hc
    rcases hdone with hlast | hhead
    · exact hlast c hc
    · exact (h.not_head hhead).elim
  | cons b bs =>
    rw [List.getLast?_append, List.getLast?_cons, Option.some_or, ← List.getLast?_cons] at hc
    exact h.starts c hc

end Prepend

/-- Whether a token lies between some characters of a text that starts at the given offset. -/
structure CutFrom (offset : Nat) (cs : List Char) (t : Token) (before after : List Char) : Prop where
  pieces : cs = before ++ (t.lexeme.text.toList ++ after)
  offset_eq : t.offset = offset + byteSize before
  braceOrRun : BraceOrRun before t.lexeme after

theorem CutFrom.prepend {offset : Nat} {cs before after : List Char} {t : Token} (done : List Char)
    (h : CutFrom (offset + byteSize done) cs t before after)
    (hdone : (∀ c ∈ done.getLast?, Separates c) ∨ ∀ c ∈ cs.head?, Separates c) :
    CutFrom offset (done ++ cs) t (done ++ before) after := by
  constructor
  case pieces => rw [h.pieces, List.append_assoc]
  case offset_eq => rw [h.offset_eq, byteSize_append, Nat.add_assoc]
  case braceOrRun =>
    rw [h.pieces] at hdone
    exact h.braceOrRun.imp_right (Or.imp_right (And.imp_right fun hrun => hrun.prepend hdone))

theorem exists_cutFrom {offset : Nat} {cs : List Char} {t : Token} (h : t ∈ scan offset cs) :
    ∃ before after, CutFrom offset cs t before after := by
  induction offset, cs using scan.induct with
  | case1 offset => simp [scan] at h
  | case2 offset c cs lexeme hbrace ih =>
    rw [scan] at h
    simp only [hbrace, List.mem_cons] at h
    rcases h with rfl | h
    · refine ⟨[], cs, ?_, rfl, braceOrRun_of_brace hbrace [] cs⟩
      rw [text_of_brace hbrace]
      rfl
    · obtain ⟨before, after, hcut⟩ := ih h
      have hlast : ∀ d ∈ [c].getLast?, Separates d := by
        simpa using separates_of_brace hbrace
      exact ⟨_, after, hcut.prepend [c] (.inl hlast)⟩
  | case3 offset c cs hbrace hword word ih =>
    rw [scan] at h
    simp only [hbrace, hword, if_true, List.mem_cons] at h
    have hsplit : c :: cs = word ++ cs.dropWhile isWordChar := by
      show c :: cs = c :: (cs.takeWhile isWordChar ++ cs.dropWhile isWordChar)
      rw [List.takeWhile_append_dropWhile]
    rw [hsplit]
    rcases h with rfl | h
    · have hchars : (Lexeme.word (String.ofList word)).text.toList = word := String.toList_ofList
      refine ⟨[], cs.dropWhile isWordChar, ?_, rfl, .inr (.inr ⟨rfl, ?_⟩)⟩
      · rw [hchars]
        rfl
      · rw [hchars]
        exact longestRun_word hword cs
    · -- Right behind a word stands a separator, so that no other word begins there.
      obtain ⟨before, after, hcut⟩ := ih h
      exact ⟨_, after, hcut.prepend word (.inr (head?_dropWhile_separates cs))⟩
  | case4 offset c cs hbrace hword ih =>
    rw [scan] at h
    simp only [hbrace, hword] at h
    obtain ⟨before, after, hcut⟩ := ih h
    have hseparates : Separates c := .inl (isBlank_of_separator hbrace hword)
    have hlast : ∀ d ∈ [c].getLast?, Separates d := by simpa using hseparates
    exact ⟨_, after, hcut.prepend [c] (.inl hlast)⟩

theorem scan_disjoint (offset : Nat) (cs : List Char) :
    (scan offset cs).Pairwise fun s t => s.stop ≤ t.offset := by
  induction offset, cs using scan.induct with
  | case1 offset =>
    rw [scan]
    exact List.Pairwise.nil
  | case2 offset c cs lexeme hbrace ih =>
    rw [scan]
    simp only [hbrace]
    refine List.pairwise_cons.mpr ⟨fun t ht => ?_, ih⟩
    have hstop : stop ⟨offset, lexeme⟩ = offset + c.utf8Size := by
      have hsize := byteSize_eq lexeme.text.toList
      rw [String.ofList_toList, text_of_brace hbrace] at hsize
      unfold stop
      rw [← hsize]
      rfl
    rw [hstop]
    exact le_offset_of_mem_scan ht
  | case3 offset c cs hbrace hword word ih =>
    rw [scan]
    simp only [hbrace, hword, if_true]
    refine List.pairwise_cons.mpr ⟨fun t ht => ?_, ih⟩
    have hstop : stop ⟨offset, .word (String.ofList word)⟩ = offset + byteSize word := by
      rw [byteSize_eq]
      rfl
    rw [hstop]
    exact le_offset_of_mem_scan ht
  | case4 offset c cs hbrace hword ih =>
    rw [scan]
    simp only [hbrace, hword]
    exact ih

theorem flatMap_scan (offset : Nat) (cs : List Char) :
    (scan offset cs).flatMap (fun t => t.lexeme.text.toList) =
      cs.filter fun c => !Text.isBlank c := by
  induction offset, cs using scan.induct with
  | case1 offset => simp [scan]
  | case2 offset c cs lexeme hbrace ih =>
    rw [scan]
    simp [hbrace, text_of_brace hbrace, isBlank_of_brace hbrace, ih]
  | case3 offset c cs hbrace hword word ih =>
    have hkept : (cs.takeWhile isWordChar).filter (fun c => !Text.isBlank c) =
        cs.takeWhile isWordChar := by
      refine List.filter_eq_self.mpr fun d hd => ?_
      have hd' : isWordChar d = true := List.all_eq_true.mp List.all_takeWhile d hd
      rw [isBlank_of_wordChar hd', Bool.not_false]
    calc (scan offset (c :: cs)).flatMap (fun t => t.lexeme.text.toList)
      _ = c :: (cs.takeWhile isWordChar ++
          (cs.dropWhile isWordChar).filter fun c => !Text.isBlank c) := by
        rw [scan, ← ih]
        simp [hbrace, hword, word, Lexeme.text]
      _ = c :: (cs.takeWhile isWordChar ++ cs.dropWhile isWordChar).filter
          fun c => !Text.isBlank c := by rw [List.filter_append, hkept]
      _ = (c :: cs).filter fun c => !Text.isBlank c := by
        rw [List.takeWhile_append_dropWhile, List.filter_cons_of_pos]
        rw [isBlank_of_wordChar hword, Bool.not_false]
  | case4 offset c cs hbrace hword ih =>
    rw [scan]
    simp [hbrace, hword, isBlank_of_separator hbrace hword, ih]

/-! ### Slices of a text -/

/-- Whether a token lies in a text between the two positions, which divide whole characters, with the
given texts before and after it. -/
structure SliceOf (text : String) (t : Token) (first last : text.Pos) (before after : String) :
    Prop where
  offset_eq : first.offset.byteIdx = t.offset
  stop_eq : last.offset.byteIdx = t.stop
  extract_eq : String.extract first last = t.lexeme.text
  splits_first : first.Splits before (t.lexeme.text ++ after)
  splits_last : last.Splits (before ++ t.lexeme.text) after

theorem exists_sliceOf {text before after : String} {t : Token}
    (hpieces : text = before ++ (t.lexeme.text ++ after))
    (hoffset : t.offset = before.utf8ByteSize) :
    ∃ first last, t.SliceOf text first last before after := by
  have hpieces' : text = before ++ t.lexeme.text ++ after := by
    rw [hpieces, String.append_assoc]
  have hfirst : before.rawEndPos.IsValid text :=
    String.Pos.Raw.isValid_iff_exists_append.mpr ⟨_, _, hpieces, rfl⟩
  have hlast : (before ++ t.lexeme.text).rawEndPos.IsValid text :=
    String.Pos.Raw.isValid_iff_exists_append.mpr ⟨_, _, hpieces', rfl⟩
  have hstop : (before ++ t.lexeme.text).rawEndPos.byteIdx = t.stop := by
    rw [String.byteIdx_rawEndPos, String.utf8ByteSize_append, stop, hoffset]
  refine ⟨⟨_, hfirst⟩, ⟨_, hlast⟩, hoffset.symm, hstop, ?_, ⟨hpieces, rfl⟩, ⟨hpieces', rfl⟩⟩
  apply String.toByteArray_inj.mp
  calc (String.extract ⟨_, hfirst⟩ ⟨_, hlast⟩).toByteArray
    _ = text.toByteArray.extract before.utf8ByteSize (before ++ t.lexeme.text).utf8ByteSize :=
      String.toByteArray_extract
    _ = (before ++ t.lexeme.text).toByteArray.extract before.utf8ByteSize
        (before ++ t.lexeme.text).utf8ByteSize := by
      rw [hpieces', String.toByteArray_append,
        ← String.size_toByteArray (s := before ++ t.lexeme.text)]
      exact ByteArray.extract_append_size_left
    _ = t.lexeme.text.toByteArray := by
      rw [String.toByteArray_append]
      refine ByteArray.extract_append_eq_right String.size_toByteArray.symm ?_
      rw [String.utf8ByteSize_append, String.size_toByteArray, String.size_toByteArray]

/-- The scanner cuts a text into its tokens.

The tokens stand at increasing offsets and do not overlap. A token is the slice of the text from its
offset on, and both ends of the slice divide whole characters. It is a brace by itself, or as many
characters as possible, at least one, that are neither white space nor braces. Put together, the tokens
are the text without its white space. -/
theorem tokens_are_slices (text : String) :
    ((scanText text).Pairwise fun s t => s.offset < t.offset ∧ s.stop ≤ t.offset) ∧
    (∀ t ∈ scanText text, ∃ first last before after, t.SliceOf text first last before after ∧
      BraceOrRun before.toList t.lexeme after.toList) ∧
    String.join ((scanText text).map fun t => t.lexeme.text) =
      String.ofList (text.toList.filter fun c => !Text.isBlank c) := by
  refine ⟨(scan_increasing 0 text.toList).and (scan_disjoint 0 text.toList), fun t ht => ?_, ?_⟩
  · obtain ⟨before, after, hcut⟩ := exists_cutFrom ht
    have htext : text = String.ofList before ++ (t.lexeme.text ++ String.ofList after) := by
      apply String.toList_inj.mp
      rw [hcut.pieces, String.toList_append, String.toList_append, String.toList_ofList,
        String.toList_ofList]
    have hoffset : t.offset = (String.ofList before).utf8ByteSize := by
      rw [hcut.offset_eq, byteSize_eq, Nat.zero_add]
    obtain ⟨first, last, hslice⟩ := exists_sliceOf htext hoffset
    refine ⟨first, last, _, _, hslice, ?_⟩
    rw [String.toList_ofList, String.toList_ofList]
    exact hcut.braceOrRun
  · apply String.toList_inj.mp
    rw [String.toList_join, String.toList_ofList, List.flatMap_map]
    exact flatMap_scan 0 text.toList

/-- Letters of two bytes around a white space of three. -/
def wideText : String := "é\u2003\x7bαβ\x7dx"

theorem wide_characters_are_not_divided :
    scanText wideText = [⟨0, .word "é"⟩, ⟨5, .opening⟩, ⟨6, .word "αβ"⟩, ⟨10, .closing⟩,
      ⟨11, .word "x"⟩] ∧
    (∃ first last : wideText.Pos, first.offset.byteIdx = 6 ∧ last.offset.byteIdx = 10 ∧
      String.extract first last = "αβ") ∧
    String.join ((scanText wideText).map fun t => t.lexeme.text) = "é\x7bαβ\x7dx" := by
  have htokens : scanText wideText = [⟨0, .word "é"⟩, ⟨5, .opening⟩, ⟨6, .word "αβ"⟩,
      ⟨10, .closing⟩, ⟨11, .word "x"⟩] := by decide +kernel
  have hmem : ⟨6, .word "αβ"⟩ ∈ scanText wideText := by simp [htokens]
  obtain ⟨-, hslices, hjoin⟩ := tokens_are_slices wideText
  obtain ⟨first, last, before, after, hslice, -⟩ := hslices _ hmem
  have hkept : String.ofList (wideText.toList.filter fun c => !Text.isBlank c) =
      "é\x7bαβ\x7dx" := by decide +kernel
  have hstop : stop ⟨6, .word "αβ"⟩ = 10 := by decide +kernel
  exact ⟨htokens, ⟨first, last, hslice.offset_eq, hslice.stop_eq.trans hstop, hslice.extract_eq⟩,
    hjoin.trans hkept⟩

end StepSearch.Token
