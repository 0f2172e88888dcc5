import StepSearch.Program.Reading

/-!
# Faulty tokens

Which tokens of a program text are faulty can be said without a reader: it depends on the number of
blocks that are open before a token, and on whether a block that is opened is closed by the tokens
after it.
-/

namespace StepSearch

/-! ### Depth -/

/-- The number of open blocks after a token if there are `n` before it. -/
def Lexeme.depthAfter (n : Nat) : Lexeme → Nat
  | opening => n + 1
  | closing => n - 1
  | word _ => n

namespace Program

/-- The number of open blocks after some tokens if there are `n` before them. -/
def depth (n : Nat) (tokens : List Token) : Nat :=
  tokens.foldl (fun n t => t.lexeme.depthAfter n) n

/-- Whether of `n` open blocks only `m` are left at some point. -/
def Drops (n m : Nat) (tokens : List Token) : Prop :=
  ∃ inner rest, tokens = inner ++ rest ∧ depth n inner = m

theorem drops_self (n : Nat) (tokens : List Token) : Drops n n tokens :=
  ⟨[], tokens, rfl, rfl⟩

theorem drops_nil_iff {n m : Nat} : Drops n m [] ↔ n = m := by
  constructor
  · intro h
    obtain ⟨inner, rest, hsplit, hdepth⟩ := h
    obtain ⟨rfl, rfl⟩ := List.append_eq_nil_iff.mp hsplit.symm
    exact hdepth
  · intro h
    subst h
    exact drops_self n []

theorem drops_cons_iff {n m : Nat} (h : n ≠ m) (t : Token) (tokens : List Token) :
    Drops n m (t :: tokens) ↔ Drops (t.lexeme.depthAfter n) m tokens := by
  constructor
  · intro hdrops
    obtain ⟨inner, rest, hsplit, hdepth⟩ := hdrops
    cases inner with
    | nil => exact absurd hdepth h
    | cons t' inner =>
      obtain ⟨rfl, rfl⟩ := List.cons.inj hsplit
      exact ⟨inner, rest, rfl, hdepth⟩
  · intro hdrops
    obtain ⟨inner, rest, rfl, hdepth⟩ := hdrops
    exact ⟨t :: inner, rest, rfl, hdepth⟩

theorem drops_closing {t : Token} (h : t.lexeme = .closing) (n : Nat) (tokens : List Token) :
    Drops (n + 1) n (t :: tokens) := by
  rw [drops_cons_iff (by omega), h]
  exact drops_self n tokens

/-! ### Faulty tokens -/

/-- What is wrong with a token that has `depth` open blocks before it and the tokens `after` behind
it. `again` says whether a block at the top level comes before it. -/
inductive FaultAt (depth : Nat) (again : Prop) (t : Token) (after : List Token) : Problem → Prop where
  | strayClosing (lexeme : t.lexeme = .closing) (top : depth = 0) :
      FaultAt depth again t after .strayClosing
  | strayWord {text : String} (lexeme : t.lexeme = .word text) (top : depth = 0) :
      FaultAt depth again t after (.strayWord text)
  | surplusBlock (lexeme : t.lexeme = .opening) (top : depth = 0) (closed : Drops 1 0 after)
      (second : again) :
      FaultAt depth again t after .surplusBlock
  | unclosedBlock (lexeme : t.lexeme = .opening) (unclosed : ¬ Drops (depth + 1) depth after) :
      FaultAt depth again t after .unclosedBlock

section Lexemes

variable {n : Nat} {again : Prop} {t : Token} {after : List Token} {problem : Problem}

theorem faultAt_opening_iff (h : t.lexeme = .opening) : FaultAt n again t after problem ↔
    problem = .unclosedBlock ∧ ¬ Drops (n + 1) n after ∨
    problem = .surplusBlock ∧ n = 0 ∧ again ∧ Drops 1 0 after := by
  constructor
  · intro hfault
    rcases hfault with ⟨hlexeme, -⟩ | ⟨hlexeme, -⟩ | ⟨-, htop, hclosed, hagain⟩ | ⟨-, hunclosed⟩
    · cases hlexeme.symm.trans h
    · cases hlexeme.symm.trans h
    · exact .inr ⟨rfl, htop, hagain, hclosed⟩
    · exact .inl ⟨rfl, hunclosed⟩
  · intro hfault
    rcases hfault with ⟨rfl, hunclosed⟩ | ⟨rfl, htop, hagain, hclosed⟩
    · exact .unclosedBlock h hunclosed
    · exact .surplusBlock h htop hclosed hagain

theorem faultAt_word_iff {text : String} (h : t.lexeme = .word text) :
    FaultAt n again t after problem ↔ problem = .strayWord text ∧ n = 0 := by
  constructor
  · intro hfault
    rcases hfault with ⟨hlexeme, -⟩ | ⟨hlexeme, htop⟩ | ⟨hlexeme, -, -, -⟩ | ⟨hlexeme, -⟩
    · cases hlexeme.symm.trans h
    · cases hlexeme.symm.trans h
      exact ⟨rfl, htop⟩
    · cases hlexeme.symm.trans h
    · cases hlexeme.symm.trans h
  · intro hfault
    obtain ⟨rfl, htop⟩ := hfault
    exact .strayWord h htop

theorem faultAt_closing_iff (h : t.lexeme = .closing) :
    FaultAt n again t after problem ↔ problem = .strayClosing ∧ n = 0 := by
  constructor
  · intro hfault
    rcases hfault with ⟨-, htop⟩ | ⟨hlexeme, -⟩ | ⟨hlexeme, -, -, -⟩ | ⟨hlexeme, -⟩
    · exact ⟨rfl, htop⟩
    · cases hlexeme.symm.trans h
    · cases hlexeme.symm.trans h
    · cases hlexeme.symm.trans h
  · intro hfault
    obtain ⟨rfl, htop⟩ := hfault
    exact .strayClosing h htop

end Lexemes

/-- Whether some of the tokens, `n` blocks being open before them, opens a block at the top level. -/
def OpensAtTop (n : Nat) (tokens : List Token) : Prop :=
  ∃ before t after, tokens = before ++ t :: after ∧ t.lexeme = .opening ∧ depth n before = 0

/-- Whether a diagnostic names a faulty token and what is wrong with it. Before the tokens `n` blocks
are open, and `begun` says whether there has been one at the top level. -/
def FaultyFrom (n : Nat) (begun : Prop) (tokens : List Token) (d : Diagnostic) : Prop :=
  ∃ before t after, tokens = before ++ t :: after ∧ d.offset = t.offset ∧
    FaultAt (depth n before) (begun ∨ OpensAtTop n before) t after d.problem

theorem opensAtTop_nil (n : Nat) : ¬ OpensAtTop n [] := by
  intro h
  obtain ⟨before, t, after, hsplit, -⟩ := h
  simp at hsplit

theorem opensAtTop_cons_iff (n : Nat) (t : Token) (tokens : List Token) :
    OpensAtTop n (t :: tokens) ↔
      (t.lexeme = .opening ∧ n = 0) ∨ OpensAtTop (t.lexeme.depthAfter n) tokens := by
  constructor
  · intro h
    obtain ⟨before, t', after, hsplit, hlexeme, hdepth⟩ := h
    cases before with
    | nil =>
      obtain ⟨rfl, rfl⟩ := List.cons.inj hsplit
      exact .inl ⟨hlexeme, hdepth⟩
    | cons s before =>
      obtain ⟨rfl, rfl⟩ := List.cons.inj hsplit
      exact .inr ⟨before, t', after, rfl, hlexeme, hdepth⟩
  · intro h
    rcases h with ⟨hlexeme, hdepth⟩ | ⟨before, t', after, rfl, hlexeme, hdepth⟩
    · exact ⟨[], t, tokens, rfl, hlexeme, hdepth⟩
    · exact ⟨t :: before, t', after, rfl, hlexeme, hdepth⟩

theorem faultyFrom_nil (n : Nat) (begun : Prop) (d : Diagnostic) : ¬ FaultyFrom n begun [] d := by
  intro h
  obtain ⟨before, t, after, hsplit, -⟩ := h
  simp at hsplit

theorem faultyFrom_cons_iff (n : Nat) (begun : Prop) (t : Token) (tokens : List Token)
    (d : Diagnostic) :
    FaultyFrom n begun (t :: tokens) d ↔
      (d.offset = t.offset ∧ FaultAt n begun t tokens d.problem) ∨
      FaultyFrom (t.lexeme.depthAfter n) (begun ∨ t.lexeme = .opening ∧ n = 0) tokens d := by
  constructor
  · intro h
    obtain ⟨before, t', after, hsplit, hoffset, hfault⟩ := h
    cases before with
    | nil =>
      obtain ⟨rfl, rfl⟩ := List.cons.inj hsplit
      rw [or_iff_left (opensAtTop_nil n)] at hfault
      exact .inl ⟨hoffset, hfault⟩
    | cons s before =>
      obtain ⟨rfl, rfl⟩ := List.cons.inj hsplit
      rw [opensAtTop_cons_iff, ← or_assoc] at hfault
      exact .inr ⟨before, t', after, rfl, hoffset, hfault⟩
  · intro h
    rcases h with ⟨hoffset, hfault⟩ | ⟨before, t', after, rfl, hoffset, hfault⟩
    · refine ⟨[], t, tokens, rfl, hoffset, ?_⟩
      rw [or_iff_left (opensAtTop_nil n)]
      exact hfault
    · refine ⟨t :: before, t', after, rfl, hoffset, ?_⟩
      rw [opensAtTop_cons_iff, ← or_assoc]
      exact hfault

/-! ### The faults of a text -/

/-- Whether a block at the top level is opened and closed again by some tokens. -/
def ClosesAtTop (tokens : List Token) : Prop :=
  ∃ before t after, tokens = before ++ t :: after ∧ t.lexeme = .opening ∧ depth 0 before = 0 ∧
    Drops 1 0 after

/-- Whether a diagnostic names a token of the text that is faulty, and its fault: a closing brace or
a word outside of every block, a block at the top level after another one, or a block that is never
closed. -/
def Faulty (tokens : List Token) (d : Diagnostic) : Prop :=
  ∃ before t after, tokens = before ++ t :: after ∧ d.offset = t.offset ∧
    FaultAt (depth 0 before) (ClosesAtTop before) t after d.problem

theorem depth_append (n : Nat) (before after : List Token) :
    depth n (before ++ after) = depth (depth n before) after :=
  List.foldl_append

theorem closesAtTop_iff {tokens : List Token} (h : depth 0 tokens = 0) :
    ClosesAtTop tokens ↔ OpensAtTop 0 tokens := by
  constructor
  · intro hcloses
    obtain ⟨before, t, after, hsplit, hlexeme, hdepth, -⟩ := hcloses
    exact ⟨before, t, after, hsplit, hlexeme, hdepth⟩
  · intro hopens
    obtain ⟨before, t, after, rfl, hlexeme, hdepth⟩ := hopens
    -- No block is open at the end, so this one is closed before it.
    refine ⟨before, t, after, rfl, hlexeme, hdepth, after, [], (List.append_nil _).symm, ?_⟩
    rw [depth_append, hdepth] at h
    rw [depth, List.foldl_cons, hlexeme] at h
    exact h

theorem FaultAt.imp {n : Nat} {again again' : Prop} {t : Token} {after : List Token}
    {problem : Problem} (h : n = 0 → (again → again')) (hfault : FaultAt n again t after problem) :
    FaultAt n again' t after problem := by
  cases hfault with
  | strayClosing hlexeme htop => exact .strayClosing hlexeme htop
  | strayWord hlexeme htop => exact .strayWord hlexeme htop
  | surplusBlock hlexeme htop hclosed hagain => exact .surplusBlock hlexeme htop hclosed (h htop hagain)
  | unclosedBlock hlexeme hunclosed => exact .unclosedBlock hlexeme hunclosed

theorem faulty_iff (tokens : List Token) (d : Diagnostic) :
    Faulty tokens d ↔ FaultyFrom 0 False tokens d := by
  constructor
  · intro h
    obtain ⟨before, t, after, hsplit, hoffset, hfault⟩ := h
    refine ⟨before, t, after, hsplit, hoffset, hfault.imp fun htop hagain => .inr ?_⟩
    exact (closesAtTop_iff htop).mp hagain
  · intro h
    obtain ⟨before, t, after, hsplit, hoffset, hfault⟩ := h
    refine ⟨before, t, after, hsplit, hoffset, hfault.imp fun htop hagain => ?_⟩
    exact (closesAtTop_iff htop).mpr (hagain.resolve_left id)

end Program

end StepSearch
