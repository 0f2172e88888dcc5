import StepSearch.Proofs.Diagnostics

/-!
# The grammar of programs

A program is a block between braces, and a block is a sequence of words and blocks. The reader keeps
a stack of open blocks instead of following this grammar; it accepts the same texts nevertheless, and
gives the tree by which the text is derived.
-/

namespace StepSearch

/-! ### Statements on the stack -/

namespace Program

/-- The tokens of a statement. -/
def Item.lexemes : Item → List Lexeme
  | word text => [.word text]
  | block inner => .opening :: (inner.lexemes ++ [.closing])

theorem Item.lexemes_cons (item : Item) (body : Body) :
    (item.cons body).lexemes = item.lexemes ++ body.lexemes := by
  cases item with
  | word text => rfl
  | block inner => simp [cons, Item.lexemes, Body.lexemes]

/-- The tokens of some statements, last one first. -/
def itemLexemes (items : List Item) : List Lexeme :=
  items.reverse.flatMap Item.lexemes

theorem itemLexemes_cons (item : Item) (items : List Item) :
    itemLexemes (item :: items) = itemLexemes items ++ item.lexemes := by
  simp [itemLexemes]

theorem lexemes_foldl_cons (items : List Item) (body : Body) :
    (items.foldl (fun body item => item.cons body) body).lexemes =
      itemLexemes items ++ body.lexemes := by
  induction items generalizing body with
  | nil => rfl
  | cons item items ih =>
    rw [List.foldl_cons, ih, Item.lexemes_cons, itemLexemes_cons, List.append_assoc]

theorem lexemes_bodyOfReversed (items : List Item) :
    (bodyOfReversed items).lexemes = itemLexemes items := by
  rw [bodyOfReversed, lexemes_foldl_cons, Body.lexemes, List.append_nil]

end Program

/-- The statements of a body, one by one. -/
def Body.items : Body → List Program.Item
  | nil => []
  | word text rest => .word text :: rest.items
  | block inner rest => .block inner :: rest.items

theorem Body.bodyOfReversed_items (b : Body) : Program.bodyOfReversed b.items.reverse = b := by
  rw [Program.bodyOfReversed, List.foldl_reverse]
  induction b with
  | nil => rfl
  | word text rest ih => rw [items, List.foldr_cons, ih, Program.Item.cons]
  | block inner rest _ ih => rw [items, List.foldr_cons, ih, Program.Item.cons]

namespace Program

namespace Reader

/-! ### What is accepted is well-formed -/

/-- The tokens that have been put in a place: those of the root, and those of the open blocks. -/
def written (r : Reader) : List Lexeme :=
  (match r.root with
    | none => []
    | some body => .opening :: (body.lexemes ++ [.closing])) ++
  r.stack.reverse.flatMap fun block => .opening :: itemLexemes block.items

/-- A token that is not refused is put in a place behind all others. -/
theorem step_written (r : Reader) (t : Token) (h : (r.step t).problems = []) :
    r.problems = [] ∧ (r.step t).written = r.written ++ [t.lexeme] := by
  obtain ⟨stack, root, problems⟩ := r
  obtain ⟨offset, lexeme⟩ := t
  cases lexeme with
  | opening =>
    refine ⟨h, ?_⟩
    simp [step, written, itemLexemes]
  | word text =>
    cases stack with
    | nil => cases h
    | cons top below =>
      refine ⟨h, ?_⟩
      simp [step, written, itemLexemes_cons, Item.lexemes]
  | closing =>
    match stack, root with
    | [], root => cases h
    | [last], none =>
      refine ⟨h, ?_⟩
      simp [step, written, lexemes_bodyOfReversed]
    | [last], some body => cases h
    | last :: parent :: below, root =>
      refine ⟨h, ?_⟩
      simp [step, written, itemLexemes_cons, Item.lexemes, lexemes_bodyOfReversed]

theorem foldl_step_written (r : Reader) (tokens : List Token)
    (h : (tokens.foldl step r).problems = []) :
    r.problems = [] ∧
      (tokens.foldl step r).written = r.written ++ tokens.map Token.lexeme := by
  induction tokens generalizing r with
  | nil => exact ⟨h, (List.append_nil _).symm⟩
  | cons t tokens ih =>
    obtain ⟨hstep, hwritten⟩ := ih (r.step t) h
    obtain ⟨hr, hone⟩ := step_written r t hstep
    refine ⟨hr, ?_⟩
    rw [List.foldl_cons, hwritten, hone, List.map_cons, List.append_assoc, List.singleton_append]

/-! ### What is well-formed is accepted -/

/-- The statements of a body are put on the innermost open block. -/
theorem foldl_step_body {b : Body} {tokens : List Token} (h : tokens.map Token.lexeme = b.lexemes)
    (top : OpenBlock) (below : List OpenBlock) (root : Option Body) (problems : List Diagnostic) :
    tokens.foldl step ⟨top :: below, root, problems⟩ =
      ⟨{ top with items := b.items.reverse ++ top.items } :: below, root, problems⟩ := by
  induction b generalizing tokens top below with
  | nil =>
    obtain rfl : tokens = [] := List.map_eq_nil_iff.mp h
    rfl
  | word text rest ih =>
    rw [Body.lexemes] at h
    obtain ⟨t, tokens, rfl, hword, hrest⟩ := List.map_eq_cons_iff.mp h
    have hstep : step ⟨top :: below, root, problems⟩ t =
        ⟨{ top with items := .word text :: top.items } :: below, root, problems⟩ := by
      simp only [step, hword]
    rw [List.foldl_cons, hstep, ih hrest]
    simp [Body.items]
  | block inner rest ihInner ihRest =>
    rw [Body.lexemes] at h
    obtain ⟨t, tokens, rfl, hopening, htail⟩ := List.map_eq_cons_iff.mp h
    obtain ⟨tokens, later, rfl, hinner, hlater⟩ := List.map_eq_append_iff.mp htail
    obtain ⟨t', later, rfl, hclosing, hrest⟩ := List.map_eq_cons_iff.mp hlater
    -- The inner block lies on the stack while it is read, and then becomes a statement below.
    have hopened : step ⟨top :: below, root, problems⟩ t =
        ⟨⟨t.offset, []⟩ :: top :: below, root, problems⟩ := by
      simp only [step, hopening]
    have hclosed : step ⟨⟨t.offset, inner.items.reverse⟩ :: top :: below, root, problems⟩ t' =
        ⟨{ top with items := .block inner :: top.items } :: below, root, problems⟩ := by
      simp only [step, hclosing, Body.bodyOfReversed_items]
    rw [List.foldl_cons, hopened, List.foldl_append, ihInner hinner, List.append_nil,
      List.foldl_cons, hclosed, ihRest hrest]
    simp [Body.items]

theorem foldl_step_program {p : Program} {tokens : List Token}
    (h : tokens.map Token.lexeme = p.lexemes) :
    tokens.foldl step {} = { root := some p.body } := by
  rw [lexemes] at h
  obtain ⟨t, tokens, rfl, hopening, htail⟩ := List.map_eq_cons_iff.mp h
  obtain ⟨tokens, last, rfl, hbody, hlast⟩ := List.map_eq_append_iff.mp htail
  obtain ⟨t', rest, rfl, hclosing, hrest⟩ := List.map_eq_cons_iff.mp hlast
  obtain rfl : rest = [] := List.map_eq_nil_iff.mp hrest
  have hopened : step {} t = ⟨[⟨t.offset, []⟩], none, []⟩ := by
    simp only [step, hopening]
  have hclosed : step ⟨[⟨t.offset, p.body.items.reverse⟩], none, []⟩ t' =
      { root := some p.body } := by
    simp only [step, hclosing, Body.bodyOfReversed_items]
  rw [List.foldl_cons, hopened, List.foldl_append, foldl_step_body hbody, List.append_nil,
    List.foldl_cons, hclosed, List.foldl_nil]

theorem finish_ok_iff {r : Reader} {p : Program} :
    r.finish = .ok p ↔ r.allProblems = [] ∧ r.root = some p.body := by
  unfold finish
  cases hproblems : r.allProblems with
  | cons d ds => simp
  | nil =>
    cases hroot : r.root with
    | none => simp
    | some body =>
      cases p
      simp

/-- Exactly the tokens of a program are read without a problem, and then as this program. -/
theorem finish_foldl_ok_iff (tokens : List Token) (p : Program) :
    (tokens.foldl step {}).finish = .ok p ↔ tokens.map Token.lexeme = p.lexemes := by
  rw [finish_ok_iff]
  constructor
  · intro ⟨hquiet, hroot⟩
    obtain ⟨hproblems, hunclosed⟩ := List.append_eq_nil_iff.mp hquiet
    have hstack : (tokens.foldl step {}).stack = [] := by
      simpa [unclosed] using hunclosed
    obtain ⟨-, hwritten⟩ := foldl_step_written {} tokens (by simpa using hproblems)
    rw [written, hroot, hstack] at hwritten
    simpa [written, lexemes] using hwritten.symm
  · intro h
    rw [foldl_step_program h]
    exact ⟨rfl, rfl⟩

end Reader

theorem load_ok_iff (text : String) (p : Program) :
    load text = .ok p ↔ (Token.scanText text).map Token.lexeme = p.lexemes :=
  Reader.finish_foldl_ok_iff (Token.scanText text) p

/-- A program is told by its tokens. -/
theorem lexemes_injective {p q : Program} (h : p.lexemes = q.lexemes) : p = q := by
  have htokens : (p.lexemes.map (Token.mk 0)).map Token.lexeme = p.lexemes := by
    simp [Function.comp_def]
  have hp := (Reader.finish_foldl_ok_iff _ p).mpr htokens
  have hq := (Reader.finish_foldl_ok_iff _ q).mpr (htokens.trans h)
  exact Except.ok.inj (hp.symm.trans hq)

end Program

/-! ### Derivations -/

/-- The token that a text is. -/
def Lexeme.ofText (text : String) : Lexeme :=
  if text = "\x7b" then .opening else if text = "\x7d" then .closing else .word text

/-- A sequence of statements is derived from the texts of its tokens: it is empty, or it begins with
a word or with a block between braces. -/
inductive Statements : List String → Body → Prop where
  | nil : Statements [] .nil
  | word {text : String} {texts : List String} {rest : Body} (opening : text ≠ "\x7b")
      (closing : text ≠ "\x7d") (tail : Statements texts rest) :
      Statements (text :: texts) (.word text rest)
  | block {texts texts' : List String} {inner rest : Body} (head : Statements texts inner)
      (tail : Statements texts' rest) :
      Statements ("\x7b" :: (texts ++ "\x7d" :: texts')) (.block inner rest)

/-- A program is derived from the texts of its tokens: it is a block between braces. -/
def Derives (texts : List String) (p : Program) : Prop :=
  ∃ inner, texts = "\x7b" :: (inner ++ ["\x7d"]) ∧ Statements inner p.body

/-! ### Texts of tokens -/

namespace Lexeme

theorem ofText_word {text : String} (hopening : text ≠ "\x7b") (hclosing : text ≠ "\x7d") :
    ofText text = .word text := by
  rw [ofText, if_neg hopening, if_neg hclosing]

theorem ofText_eq_opening {text : String} (h : ofText text = .opening) : text = "\x7b" := by
  by_cases hopening : text = "\x7b"
  · exact hopening
  rw [ofText, if_neg hopening] at h
  split at h
  · cases h
  · cases h

theorem ofText_eq_closing {text : String} (h : ofText text = .closing) : text = "\x7d" := by
  by_cases hclosing : text = "\x7d"
  · exact hclosing
  rw [ofText, if_neg hclosing] at h
  split at h
  · cases h
  · cases h

theorem ofText_eq_word {text word : String} (h : ofText text = .word word) :
    text = word ∧ text ≠ "\x7b" ∧ text ≠ "\x7d" := by
  unfold ofText at h
  by_cases hopening : text = "\x7b"
  · rw [if_pos hopening] at h
    cases h
  rw [if_neg hopening] at h
  by_cases hclosing : text = "\x7d"
  · rw [if_pos hclosing] at h
    cases h
  rw [if_neg hclosing] at h
  cases h
  exact ⟨rfl, hopening, hclosing⟩

end Lexeme

theorem Token.ofText_of_mem_scan {offset : Nat} {cs : List Char} {t : Token}
    (h : t ∈ scan offset cs) : Lexeme.ofText t.lexeme.text = t.lexeme := by
  cases hlexeme : t.lexeme with
  | opening => decide
  | closing => decide
  | word text =>
    obtain ⟨-, hchars⟩ := word_of_mem_scan h hlexeme
    refine Lexeme.ofText_word ?_ ?_
    · intro hbrace
      subst hbrace
      exact absurd (hchars '\x7b' (by decide)) (by decide)
    · intro hbrace
      subst hbrace
      exact absurd (hchars '\x7d' (by decide)) (by decide)

/-- The texts of the tokens of a text. -/
def tokenTexts (text : String) : List String :=
  (Token.scanText text).map fun t => t.lexeme.text

theorem map_ofText_tokenTexts (text : String) :
    (tokenTexts text).map Lexeme.ofText = (Token.scanText text).map Token.lexeme := by
  rw [tokenTexts, List.map_map]
  exact List.map_congr_left fun t ht => Token.ofText_of_mem_scan ht

/-! ### Derivations are readings -/

theorem Statements.lexemes_eq {texts : List String} {b : Body} (h : Statements texts b) :
    texts.map Lexeme.ofText = b.lexemes := by
  induction h with
  | nil => rfl
  | word hopening hclosing _ ih =>
    rw [List.map_cons, Lexeme.ofText_word hopening hclosing, ih, Body.lexemes]
  | block _ _ ihHead ihTail =>
    have hopening : Lexeme.ofText "\x7b" = .opening := by decide
    have hclosing : Lexeme.ofText "\x7d" = .closing := by decide
    rw [List.map_cons, List.map_append, List.map_cons, hopening, hclosing, ihHead, ihTail,
      Body.lexemes]

theorem statements_of_lexemes {texts : List String} {b : Body}
    (h : texts.map Lexeme.ofText = b.lexemes) : Statements texts b := by
  induction b generalizing texts with
  | nil =>
    obtain rfl : texts = [] := List.map_eq_nil_iff.mp h
    exact .nil
  | word word rest ih =>
    rw [Body.lexemes] at h
    obtain ⟨text, texts, rfl, hword, hrest⟩ := List.map_eq_cons_iff.mp h
    obtain ⟨rfl, hopening, hclosing⟩ := Lexeme.ofText_eq_word hword
    exact .word hopening hclosing (ih hrest)
  | block inner rest ihInner ihRest =>
    rw [Body.lexemes] at h
    obtain ⟨text, texts, rfl, hopening, htail⟩ := List.map_eq_cons_iff.mp h
    obtain ⟨texts, later, rfl, hinner, hlater⟩ := List.map_eq_append_iff.mp htail
    obtain ⟨text', later, rfl, hclosing, hrest⟩ := List.map_eq_cons_iff.mp hlater
    obtain rfl := Lexeme.ofText_eq_opening hopening
    obtain rfl := Lexeme.ofText_eq_closing hclosing
    exact .block (ihInner hinner) (ihRest hrest)

theorem derives_iff {texts : List String} {p : Program} :
    Derives texts p ↔ texts.map Lexeme.ofText = p.lexemes := by
  have hopening : Lexeme.ofText "\x7b" = .opening := by decide
  have hclosing : Lexeme.ofText "\x7d" = .closing := by decide
  constructor
  · intro ⟨inner, htexts, hinner⟩
    rw [htexts, List.map_cons, List.map_append, hinner.lexemes_eq, Program.lexemes, hopening,
      List.map_cons, hclosing, List.map_nil]
  · intro h
    rw [Program.lexemes] at h
    obtain ⟨text, texts, rfl, hfirst, htail⟩ := List.map_eq_cons_iff.mp h
    obtain ⟨inner, last, rfl, hinner, hlast⟩ := List.map_eq_append_iff.mp htail
    obtain ⟨text', rest, rfl, hend, hrest⟩ := List.map_eq_cons_iff.mp hlast
    obtain rfl : rest = [] := List.map_eq_nil_iff.mp hrest
    obtain rfl := Lexeme.ofText_eq_opening hfirst
    obtain rfl := Lexeme.ofText_eq_closing hend
    exact ⟨inner, rfl, statements_of_lexemes hinner⟩

theorem Derives.unique {texts : List String} {p q : Program} (hp : Derives texts p)
    (hq : Derives texts q) : p = q :=
  Program.lexemes_injective ((derives_iff.mp hp).symm.trans (derives_iff.mp hq))

/-! ### Size -/

/-- The number of texts that are words. -/
def wordCount (texts : List String) : Nat :=
  texts.countP fun text => text ≠ "\x7b" ∧ text ≠ "\x7d"

/-- The number of texts that open a block. -/
def openingCount (texts : List String) : Nat :=
  texts.count "\x7b"

theorem Statements.size_eq {texts : List String} {b : Body} (h : Statements texts b) :
    b.size = wordCount texts + openingCount texts := by
  unfold wordCount openingCount
  induction h with
  | nil => rfl
  | @word text texts rest hopening hclosing _ ih =>
    rw [Body.size, ih, List.countP_cons, List.count_cons]
    have hword : decide (text ≠ "\x7b" ∧ text ≠ "\x7d") = true := by simp [hopening, hclosing]
    rw [if_pos hword, if_neg (by simpa using hopening)]
    omega
  | @block texts texts' inner rest _ _ ihHead ihTail =>
    rw [Body.size, ihHead, ihTail]
    simp
    omega

/-- The reader accepts exactly the programs of the grammar, and gives the tree of the derivation,
which is the only one. The size of a program is the number of its words and of its nested blocks. -/
theorem load_accepts_grammar (text : String) :
    (∀ p, Program.load text = .ok p ↔ Derives (tokenTexts text) p) ∧
    (∀ p q, Derives (tokenTexts text) p → Derives (tokenTexts text) q → p = q) ∧
    ∀ p, Program.load text = .ok p →
      p.codeSize + 1 = wordCount (tokenTexts text) + openingCount (tokenTexts text) := by
  have haccepts : ∀ p, Program.load text = .ok p ↔ Derives (tokenTexts text) p := by
    intro p
    rw [Program.load_ok_iff, derives_iff, map_ofText_tokenTexts]
  refine ⟨haccepts, fun p q => Derives.unique, fun p hp => ?_⟩
  obtain ⟨inner, htexts, hinner⟩ := (haccepts p).mp hp
  rw [Program.codeSize, hinner.size_eq, htexts]
  simp [wordCount, openingCount]
  omega

end StepSearch
