import StepSearch.Proofs.Faults
import StepSearch.Proofs.Scanning

/-!
# Diagnostics

The reader reports the faulty tokens of a text, each of them once and in the order of the text,
although it learns of some faults only when a block is closed or the text ends.
-/

namespace StepSearch

theorem Diagnostic.eq_iff {d : Diagnostic} {offset : Nat} {problem : Problem} :
    d = ⟨offset, problem⟩ ↔ d.offset = offset ∧ d.problem = problem := by
  cases d
  simp

namespace Program

/-! ### One token -/

namespace Reader

/-- Where the open blocks start, innermost first. -/
def offsets (r : Reader) : List Nat :=
  r.stack.map OpenBlock.offset

/-- What one token does to the open blocks, to the first block closed at the top level and to the
problems. -/
inductive StepOutcome (r : Reader) (t : Token) (r' : Reader) : Prop where
  | opened (lexeme : t.lexeme = .opening) (offsets : r'.offsets = t.offset :: r.offsets)
      (root : r'.root = r.root) (problems : r'.problems = r.problems)
  | wordKept {text : String} (lexeme : t.lexeme = .word text) (inside : r.offsets ≠ [])
      (offsets : r'.offsets = r.offsets) (root : r'.root = r.root)
      (problems : r'.problems = r.problems)
  | wordRefused {text : String} (lexeme : t.lexeme = .word text) (top : r.offsets = [])
      (offsets : r'.offsets = []) (root : r'.root = r.root)
      (problems : r'.problems = ⟨t.offset, .strayWord text⟩ :: r.problems)
  | closingRefused (lexeme : t.lexeme = .closing) (top : r.offsets = []) (offsets : r'.offsets = [])
      (root : r'.root = r.root) (problems : r'.problems = ⟨t.offset, .strayClosing⟩ :: r.problems)
  | rootClosed {o : Nat} (lexeme : t.lexeme = .closing) (top : r.offsets = [o])
      (first : r.root = none) (offsets : r'.offsets = []) (root : r'.root.isSome)
      (problems : r'.problems = r.problems)
  | surplusClosed {o : Nat} (lexeme : t.lexeme = .closing) (top : r.offsets = [o])
      (again : r.root.isSome) (offsets : r'.offsets = []) (root : r'.root = r.root)
      (problems : r'.problems = ⟨o, .surplusBlock⟩ :: r.problems)
  | innerClosed {o parent : Nat} {below : List Nat} (lexeme : t.lexeme = .closing)
      (inside : r.offsets = o :: parent :: below) (offsets : r'.offsets = parent :: below)
      (root : r'.root = r.root) (problems : r'.problems = r.problems)

theorem step_outcome (r : Reader) (t : Token) : StepOutcome r t (r.step t) := by
  obtain ⟨stack, root, problems⟩ := r
  obtain ⟨offset, lexeme⟩ := t
  cases lexeme with
  | opening => exact .opened rfl rfl rfl rfl
  | word text =>
    cases stack with
    | nil => exact .wordRefused rfl rfl rfl rfl rfl
    | cons top below => exact .wordKept rfl (List.cons_ne_nil _ _) rfl rfl rfl
  | closing =>
    match stack, root with
    | [], root => exact .closingRefused rfl rfl rfl rfl rfl
    | [last], none => exact .rootClosed rfl rfl rfl rfl rfl rfl
    | [last], some body => exact .surplusClosed rfl rfl rfl rfl rfl rfl
    | last :: parent :: below, root => exact .innerClosed rfl rfl rfl rfl rfl

/-! ### The order of the reports -/

theorem allProblems_offsets (r : Reader) : r.allProblems.map Diagnostic.offset =
    (r.problems.map Diagnostic.offset).reverse ++ r.offsets.reverse := by
  simp [allProblems, unclosed, offsets, Function.comp_def]

/-- A token adds its own offset at most, and nothing changes its place. -/
theorem step_offsets_sublist (r : Reader) (t : Token) :
    ((r.step t).allProblems.map Diagnostic.offset).Sublist
      (r.allProblems.map Diagnostic.offset ++ [t.offset]) := by
  rw [allProblems_offsets, allProblems_offsets]
  cases r.step_outcome t with
  | opened _ hoffsets _ hproblems => simp [hoffsets, hproblems]
  | wordKept _ _ hoffsets _ hproblems => simp [hoffsets, hproblems]
  | wordRefused _ htop hoffsets _ hproblems => simp [htop, hoffsets, hproblems]
  | closingRefused _ htop hoffsets _ hproblems => simp [htop, hoffsets, hproblems]
  | rootClosed _ htop _ hoffsets _ hproblems => simp [htop, hoffsets, hproblems]
  | surplusClosed _ htop _ hoffsets _ hproblems => simp [htop, hoffsets, hproblems]
  | innerClosed _ hinside hoffsets _ hproblems => simp [hinside, hoffsets, hproblems]

theorem foldl_step_offsets_sublist (r : Reader) (tokens : List Token) :
    ((tokens.foldl step r).allProblems.map Diagnostic.offset).Sublist
      (r.allProblems.map Diagnostic.offset ++ tokens.map Token.offset) := by
  induction tokens generalizing r with
  | nil => simp
  | cons t tokens ih =>
    have hstep := (r.step_offsets_sublist t).append_right (tokens.map Token.offset)
    rw [List.append_assoc, List.singleton_append] at hstep
    exact (ih (r.step t)).trans hstep

/-! ### Which tokens are reported -/

/-- Whether a diagnostic names one of the open blocks, innermost first, that will be reported when
the tokens are read, `n` blocks being open. `again` says whether there is a root. -/
def OpenFault (n : Nat) (again : Prop) (tokens : List Token) (d : Diagnostic) : List Nat → Prop
  | [] => False
  | o :: below =>
    d.offset = o ∧ (d.problem = .unclosedBlock ∧ ¬ Drops n below.length tokens ∨
      d.problem = .surplusBlock ∧ below = [] ∧ again ∧ Drops n 0 tokens) ∨
    OpenFault n again tokens d below

/-- A token that leaves a block open leaves it to the tokens behind whether the block is closed. -/
theorem openFault_step {n : Nat} {again : Prop} {t : Token} {tokens : List Token} {d : Diagnostic}
    {offsets : List Nat} (h : offsets.length ≤ n) :
    OpenFault (t.lexeme.depthAfter n) again tokens d offsets ↔
      OpenFault n again (t :: tokens) d offsets := by
  induction offsets with
  | nil => exact Iff.rfl
  | cons o below ih =>
    rw [List.length_cons] at h
    rw [OpenFault, OpenFault, ih (by omega), drops_cons_iff (by omega), drops_cons_iff (by omega)]

theorem length_offsets_step (r : Reader) (t : Token) :
    (r.step t).offsets.length = t.lexeme.depthAfter r.offsets.length := by
  cases r.step_outcome t with
  | opened hlexeme hoffsets => rw [hoffsets, hlexeme]; rfl
  | wordKept hlexeme _ hoffsets => rw [hoffsets, hlexeme]; rfl
  | wordRefused hlexeme htop hoffsets => rw [hoffsets, hlexeme, htop]; rfl
  | closingRefused hlexeme htop hoffsets => rw [hoffsets, hlexeme, htop]; rfl
  | rootClosed hlexeme htop _ hoffsets => rw [hoffsets, hlexeme, htop]; rfl
  | surplusClosed hlexeme htop _ hoffsets => rw [hoffsets, hlexeme, htop]; rfl
  | innerClosed hlexeme hinside hoffsets => rw [hoffsets, hlexeme, hinside]; rfl

theorem begun_step_iff (r : Reader) (t : Token) :
    ((r.step t).root.isSome = true ∨ (r.step t).offsets ≠ []) ↔
      (r.root.isSome = true ∨ r.offsets ≠ []) ∨ t.lexeme = .opening ∧ r.offsets.length = 0 := by
  cases r.step_outcome t with
  | opened hlexeme hoffsets hroot =>
    cases hr : r.offsets <;> simp [hlexeme, hoffsets, hroot]
  | wordKept hlexeme _ hoffsets hroot => simp [hlexeme, hoffsets, hroot]
  | wordRefused hlexeme htop hoffsets hroot => simp [hlexeme, hoffsets, hroot, htop]
  | closingRefused hlexeme htop hoffsets hroot => simp [hlexeme, hoffsets, hroot, htop]
  | rootClosed hlexeme htop _ hoffsets hroot => simp [hlexeme, hoffsets, hroot, htop]
  | surplusClosed hlexeme htop hagain hoffsets hroot => simp [hlexeme, hoffsets, hroot, htop, hagain]
  | innerClosed hlexeme hinside hoffsets hroot => simp [hlexeme, hoffsets, hroot, hinside]

/-- What a token does to the faults known so far and to those of the blocks it leaves open. -/
theorem known_step_iff (r : Reader) (t : Token) (tokens : List Token) (d : Diagnostic) :
    (d ∈ (r.step t).problems ∨ OpenFault (r.step t).offsets.length (r.step t).root.isSome tokens d
      (r.step t).offsets) ↔
    (d ∈ r.problems ∨ OpenFault r.offsets.length r.root.isSome (t :: tokens) d r.offsets) ∨
      d.offset = t.offset ∧ FaultAt r.offsets.length (r.root.isSome ∨ r.offsets ≠ []) t tokens
        d.problem := by
  rw [length_offsets_step]
  cases r.step_outcome t with
  | opened hlexeme hoffsets hroot hproblems =>
    -- The new block is at the top level only if no block was open, and then only a root is before it.
    have hsurplus : (r.offsets = [] ∧ r.root.isSome = true ∧ Drops (r.offsets.length + 1) 0 tokens) ↔
        r.offsets.length = 0 ∧ (r.root.isSome = true ∨ r.offsets ≠ []) ∧ Drops 1 0 tokens := by
      cases r.offsets with
      | nil => simp
      | cons o below => simp
    rw [faultAt_opening_iff hlexeme, hoffsets, hroot, hproblems, OpenFault,
      openFault_step (Nat.le_refl _), hlexeme, Lexeme.depthAfter, hsurplus, or_assoc,
      or_comm (a := OpenFault _ _ _ _ _)]
  | wordKept hlexeme hinside hoffsets hroot hproblems =>
    have hlength : r.offsets.length ≠ 0 := by simpa using hinside
    rw [faultAt_word_iff hlexeme, hoffsets, hroot, hproblems, openFault_step (Nat.le_refl _)]
    simp [hlength]
  | wordRefused hlexeme htop hoffsets hroot hproblems =>
    rw [faultAt_word_iff hlexeme, hoffsets, hproblems, htop]
    simp [OpenFault, Diagnostic.eq_iff, or_comm]
  | closingRefused hlexeme htop hoffsets hroot hproblems =>
    rw [faultAt_closing_iff hlexeme, hoffsets, hproblems, htop]
    simp [OpenFault, Diagnostic.eq_iff, or_comm]
  | @rootClosed o hlexeme htop hfirst hoffsets hroot hproblems =>
    have hclosed : ¬ OpenFault 1 (r.root.isSome = true) (t :: tokens) d [o] := by
      simp [OpenFault, hfirst, drops_closing hlexeme]
    rw [faultAt_closing_iff hlexeme, hoffsets, hproblems, htop, List.length_singleton,
      iff_false_intro hclosed]
    simp [OpenFault]
  | @surplusClosed o hlexeme htop hagain hoffsets hroot hproblems =>
    have hclosed : OpenFault 1 (r.root.isSome = true) (t :: tokens) d [o] ↔
        d.offset = o ∧ d.problem = .surplusBlock := by
      simp [OpenFault, hagain, drops_closing hlexeme]
    rw [faultAt_closing_iff hlexeme, hoffsets, hproblems, htop, List.length_singleton, hclosed]
    simp [OpenFault, Diagnostic.eq_iff, or_comm]
  | @innerClosed o parent below hlexeme hinside hoffsets hroot hproblems =>
    have hclosed : OpenFault (below.length + 2) (r.root.isSome = true) (t :: tokens) d
        (o :: parent :: below) ↔
        OpenFault (below.length + 2) (r.root.isSome = true) (t :: tokens) d (parent :: below) := by
      rw [OpenFault]
      simp [drops_closing hlexeme]
    rw [faultAt_closing_iff hlexeme, hoffsets, hroot, hproblems, hinside, List.length_cons,
      List.length_cons, openFault_step (by simp), hclosed]
    simp

/-- What will be reported once some tokens are read: the problems so far, open blocks, and faults
among the tokens. -/
def Reported (r : Reader) (tokens : List Token) (d : Diagnostic) : Prop :=
  (d ∈ r.problems ∨ OpenFault r.offsets.length r.root.isSome tokens d r.offsets) ∨
    FaultyFrom r.offsets.length (r.root.isSome ∨ r.offsets ≠ []) tokens d

theorem reported_step_iff (r : Reader) (t : Token) (tokens : List Token) (d : Diagnostic) :
    Reported (r.step t) tokens d ↔ Reported r (t :: tokens) d := by
  unfold Reported
  rw [faultyFrom_cons_iff, known_step_iff, length_offsets_step, begun_step_iff, or_assoc]

theorem openFault_nil_iff {n : Nat} {again : Prop} {d : Diagnostic} {offsets : List Nat}
    (h : offsets.length ≤ n) :
    OpenFault n again [] d offsets ↔ d.problem = .unclosedBlock ∧ d.offset ∈ offsets := by
  induction offsets with
  | nil => simp [OpenFault]
  | cons o below ih =>
    rw [List.length_cons] at h
    have hopen : n ≠ below.length := by omega
    have hpos : n ≠ 0 := by omega
    rw [OpenFault, ih (by omega), drops_nil_iff, drops_nil_iff, List.mem_cons]
    constructor
    · intro hfault
      rcases hfault with ⟨hoffset, ⟨hproblem, -⟩ | ⟨-, -, -, hzero⟩⟩ | ⟨hproblem, hoffset⟩
      · exact ⟨hproblem, .inl hoffset⟩
      · exact absurd hzero hpos
      · exact ⟨hproblem, .inr hoffset⟩
    · intro hfault
      obtain ⟨hproblem, hoffset | hoffset⟩ := hfault
      · exact .inl ⟨hoffset, .inl ⟨hproblem, hopen⟩⟩
      · exact .inr ⟨hproblem, hoffset⟩

theorem mem_unclosed_iff (r : Reader) (d : Diagnostic) :
    d ∈ r.unclosed ↔ d.problem = .unclosedBlock ∧ d.offset ∈ r.offsets := by
  simp only [unclosed, offsets, List.mem_map, List.mem_reverse]
  constructor
  · intro h
    obtain ⟨block, hblock, rfl⟩ := h
    exact ⟨rfl, block, hblock, rfl⟩
  · intro h
    obtain ⟨hproblem, block, hblock, hoffset⟩ := h
    exact ⟨block, hblock, (Diagnostic.eq_iff.mpr ⟨hoffset.symm, hproblem⟩).symm⟩

theorem mem_allProblems_foldl_iff (r : Reader) (tokens : List Token) (d : Diagnostic) :
    d ∈ (tokens.foldl step r).allProblems ↔ Reported r tokens d := by
  induction tokens generalizing r with
  | nil =>
    rw [List.foldl_nil, Reported, openFault_nil_iff (Nat.le_refl _), ← mem_unclosed_iff,
      or_iff_left (faultyFrom_nil _ _ d), allProblems, List.mem_append, List.mem_reverse]
  | cons t tokens ih => rw [List.foldl_cons, ih, reported_step_iff]

theorem step_begun (r : Reader) (t : Token) :
    (r.step t).problems ≠ [] ∨ (r.step t).root.isSome = true ∨ (r.step t).offsets ≠ [] := by
  cases r.step_outcome t with
  | opened _ hoffsets => simp [hoffsets]
  | wordKept _ hinside hoffsets => simp [hoffsets, hinside]
  | wordRefused _ _ _ _ hproblems => simp [hproblems]
  | closingRefused _ _ _ _ hproblems => simp [hproblems]
  | rootClosed _ _ _ _ hroot => simp [hroot]
  | surplusClosed _ _ _ _ _ hproblems => simp [hproblems]
  | innerClosed _ _ hoffsets => simp [hoffsets]

/-- After any token there is a problem, a root or an open block. -/
theorem root_isSome_of_quiet {tokens : List Token} (h : tokens ≠ [])
    (hquiet : (tokens.foldl step {}).allProblems = []) : (tokens.foldl step {}).root.isSome = true := by
  obtain ⟨before, t, rfl⟩ : ∃ before t, tokens = before ++ [t] :=
    ⟨_, _, (List.dropLast_concat_getLast h).symm⟩
  rw [List.foldl_append] at hquiet ⊢
  have hoffsets := congrArg (List.map Diagnostic.offset) hquiet
  rw [allProblems_offsets, List.map_nil, List.append_eq_nil_iff] at hoffsets
  rcases step_begun (before.foldl step {}) t with hproblems | hroot | hopen
  · exact absurd (by simpa using hoffsets.1) hproblems
  · exact hroot
  · exact absurd (by simpa using hoffsets.2) hopen

end Reader

/-! ### The diagnostics of a text -/

theorem mem_allProblems_iff (tokens : List Token) (d : Diagnostic) :
    d ∈ (tokens.foldl Reader.step {}).allProblems ↔ Faulty tokens d := by
  rw [Reader.mem_allProblems_foldl_iff, faulty_iff]
  simp [Reader.Reported, Reader.OpenFault, Reader.offsets]

theorem load_of_problems {text : String}
    (h : ((Token.scanText text).foldl Reader.step {}).allProblems ≠ []) :
    load text = .error ((Token.scanText text).foldl Reader.step {}).allProblems := by
  unfold load Reader.finish
  cases hproblems : ((Token.scanText text).foldl Reader.step {}).allProblems with
  | nil => exact absurd hproblems h
  | cons d ds => rfl

theorem load_of_quiet {text : String} (htokens : Token.scanText text ≠ [])
    (h : ((Token.scanText text).foldl Reader.step {}).allProblems = []) :
    ∃ p, load text = .ok p := by
  obtain ⟨body, hroot⟩ := Option.isSome_iff_exists.mp (Reader.root_isSome_of_quiet htokens h)
  refine ⟨⟨body⟩, ?_⟩
  rw [load, Reader.finish, h, hroot]

theorem load_of_blank {text : String} (h : Token.scanText text = []) :
    load text = .error [⟨0, .missingBlock⟩] := by
  rw [load, h]
  rfl

/-- A text is refused exactly if it has no token or a faulty one. The diagnostics of a text with
tokens are its faults, one for each faulty token, in the order of the text. -/
theorem load_reports_faults (text : String) :
    ((∃ problems, load text = .error problems) ↔
      Token.scanText text = [] ∨ ∃ d, Faulty (Token.scanText text) d) ∧
    (Token.scanText text = [] ↔ ∀ c ∈ text.toList, Text.isBlank c = true) ∧
    (∀ problems, load text = .error problems →
      (Token.scanText text = [] ∧ problems = [⟨0, .missingBlock⟩]) ∨
      (Token.scanText text ≠ [] ∧ (problems.Pairwise fun d e => d.offset < e.offset) ∧
        ∀ d, d ∈ problems ↔ Faulty (Token.scanText text) d)) ∧
    Problem.strayClosing.message = "unexpected '\x7d'" ∧
    (∀ word, (Problem.strayWord word).message =
      "unexpected " ++ Text.quote word ++ " outside of a block") ∧
    Problem.surplusBlock.message = "unexpected block after the top-level block" ∧
    Problem.unclosedBlock.message = "unclosed block" ∧
    Problem.missingBlock.message = "expected a block" := by
  have hfaults := mem_allProblems_iff (Token.scanText text)
  refine ⟨⟨?_, ?_⟩, Token.scanText_eq_nil_iff text, ?_, rfl, fun _ => rfl, rfl, rfl, rfl⟩
  · intro h
    obtain ⟨problems, hload⟩ := h
    by_cases htokens : Token.scanText text = []
    · exact .inl htokens
    refine .inr ?_
    by_cases hquiet : ((Token.scanText text).foldl Reader.step {}).allProblems = []
    · obtain ⟨p, hp⟩ := load_of_quiet htokens hquiet
      rw [hp] at hload
      cases hload
    · obtain ⟨d, hd⟩ := List.exists_mem_of_ne_nil _ hquiet
      exact ⟨d, (hfaults d).mp hd⟩
  · intro h
    rcases h with htokens | ⟨d, hd⟩
    · exact ⟨_, load_of_blank htokens⟩
    · exact ⟨_, load_of_problems (List.ne_nil_of_mem ((hfaults d).mpr hd))⟩
  · intro problems hload
    by_cases htokens : Token.scanText text = []
    · rw [load_of_blank htokens] at hload
      exact .inl ⟨htokens, (Except.error.inj hload).symm⟩
    refine .inr ⟨htokens, ?_⟩
    by_cases hquiet : ((Token.scanText text).foldl Reader.step {}).allProblems = []
    · obtain ⟨p, hp⟩ := load_of_quiet htokens hquiet
      rw [hp] at hload
      cases hload
    rw [load_of_problems hquiet] at hload
    cases hload
    refine ⟨?_, hfaults⟩
    -- A fault may be learnt of late, so the order comes from that of the tokens.
    have hincreasing : ((Token.scanText text).map Token.offset).Pairwise (· < ·) :=
      List.pairwise_map.mpr (Token.scan_increasing 0 text.toList)
    have hsublist := Reader.foldl_step_offsets_sublist {} (Token.scanText text)
    exact List.pairwise_map.mp (hincreasing.sublist hsublist)

end Program

end StepSearch
