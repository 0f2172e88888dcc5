import StepSearch.Session

/-!
# Outcomes of computations

Draws, searches, sessions and runs are computations on a state that may fail and keep their effects
when they do. The outcome of one, started in a state, is its result together with the state it
leaves. The equations of this file give the outcome of every building block, and one lemma takes a
successful sequence apart.
-/

namespace StepSearch

theorem Except.bind_ok {ε α β : Type} {x : Except ε α} {f : α → Except ε β} {b : β}
    (h : (x >>= f) = .ok b) : ∃ a, x = .ok a ∧ f a = .ok b := by
  cases x with
  | error e => cases h
  | ok a => exact ⟨a, rfl, h⟩

theorem Except.bind_error {ε α β : Type} {x : Except ε α} {f : α → Except ε β} {e : ε}
    (h : (x >>= f) = .error e) : x = .error e ∨ ∃ a, x = .ok a ∧ f a = .error e := by
  cases x with
  | error e' =>
    cases h
    exact .inl rfl
  | ok a => exact .inr ⟨a, rfl, h⟩

theorem Except.map_ok {ε α β : Type} {x : Except ε α} {f : α → β} {b : β}
    (h : x.map f = .ok b) : ∃ a, x = .ok a ∧ b = f a := by
  cases x with
  | error e => cases h
  | ok a =>
    cases h
    exact ⟨a, rfl, rfl⟩

theorem Except.mapError_error {ε ε' α : Type} {x : Except ε α} {f : ε → ε'} {e' : ε'}
    (h : x.mapError f = .error e') : ∃ e, x = .error e ∧ e' = f e := by
  cases x with
  | error e =>
    cases h
    exact ⟨e, rfl, rfl⟩
  | ok a => cases h

theorem Except.mapError_eq_ok {ε ε' α : Type} {x : Except ε α} {f : ε → ε'} {a : α}
    (h : x.mapError f = .ok a) : x = .ok a := by
  cases x with
  | error e => cases h
  | ok b =>
    cases h
    rfl

theorem Except.mapError_ok {ε ε' α : Type} (f : ε → ε') (a : α) :
    (Except.ok a).mapError f = .ok a := rfl

theorem Except.eq_ok_of_isOk {ε : Type} {result : Except ε Unit} (h : result.isOk = true) :
    result = .ok () := by
  cases result with
  | error e => cases h
  | ok _ => rfl

section Computations

variable {ε σ α β : Type}

/-- The result of a computation that starts in the state `s`, and the state it leaves. -/
def outcome (x : ExceptT ε (StateM σ) α) (s : σ) : Except ε α × σ := x.run s

theorem outcome_ext {x y : ExceptT ε (StateM σ) α} (h : ∀ s, outcome x s = outcome y s) : x = y :=
  funext h

theorem outcome_bind (x : ExceptT ε (StateM σ) α) (f : α → ExceptT ε (StateM σ) β) (s : σ) :
    outcome (x >>= f) s = match outcome x s with
      | (.ok a, t) => outcome (f a) t
      | (.error e, t) => (.error e, t) := by
  show (ExceptT.bind x f).run s = _
  simp only [ExceptT.bind, ExceptT.run, ExceptT.mk, bind, StateT.bind, outcome]
  rcases x s with ⟨e | a, t⟩
  · rfl
  · rfl

/-- A sequence that succeeds consists of two parts that succeed. -/
theorem bind_ok {x : ExceptT ε (StateM σ) α} {f : α → ExceptT ε (StateM σ) β} {s t : σ} {b : β}
    (h : outcome (x >>= f) s = (.ok b, t)) :
    ∃ a m, outcome x s = (.ok a, m) ∧ outcome (f a) m = (.ok b, t) := by
  rw [outcome_bind] at h
  rcases hx : outcome x s with ⟨e | a, m⟩
  · rw [hx] at h
    cases h
  · rw [hx] at h
    exact ⟨a, m, rfl, h⟩

/-- In a sequence that fails either the first part fails, or it succeeds and the second one fails. -/
theorem bind_error {x : ExceptT ε (StateM σ) α} {f : α → ExceptT ε (StateM σ) β} {s t : σ} {e : ε}
    (h : outcome (x >>= f) s = (.error e, t)) : outcome x s = (.error e, t) ∨
      ∃ a m, outcome x s = (.ok a, m) ∧ outcome (f a) m = (.error e, t) := by
  rw [outcome_bind] at h
  rcases hx : outcome x s with ⟨e' | a, m⟩
  · rw [hx] at h
    cases h
    exact .inl rfl
  · rw [hx] at h
    exact .inr ⟨a, m, rfl, h⟩

theorem bind_of_ok {x : ExceptT ε (StateM σ) α} {s m : σ} {a : α} (h : outcome x s = (.ok a, m))
    (f : α → ExceptT ε (StateM σ) β) : outcome (x >>= f) s = outcome (f a) m := by
  rw [outcome_bind, h]

theorem bind_of_error {x : ExceptT ε (StateM σ) α} {s t : σ} {e : ε} (h : outcome x s = (.error e, t))
    (f : α → ExceptT ε (StateM σ) β) : outcome (x >>= f) s = (.error e, t) := by
  rw [outcome_bind, h]

/-- What cannot fail does not make a sequence fail. -/
theorem bind_error_iff {x : ExceptT ε (StateM σ) α} {f : α → ExceptT ε (StateM σ) β}
    (hf : ∀ a m, ∃ b t, outcome (f a) m = (.ok b, t)) {s t : σ} {e : ε} :
    outcome (x >>= f) s = (.error e, t) ↔ outcome x s = (.error e, t) := by
  constructor
  · intro h
    rcases bind_error h with hx | ⟨a, m, -, hfails⟩
    · exact hx
    · obtain ⟨b, u, hok⟩ := hf a m
      rw [hok] at hfails
      cases hfails
  · exact fun h => bind_of_error h f

@[simp] theorem outcome_get (s : σ) :
    outcome (get : ExceptT ε (StateM σ) σ) s = (.ok s, s) := rfl

theorem pure_ok {a b : α} {s t : σ}
    (h : outcome (pure a : ExceptT ε (StateM σ) α) s = (.ok b, t)) : b = a ∧ t = s := by
  cases h
  exact ⟨rfl, rfl⟩

theorem outcome_map (f : α → β) (x : ExceptT ε (StateM σ) α) (s : σ) :
    outcome (f <$> x) s = ((outcome x s).1.map f, (outcome x s).2) := by
  show (ExceptT.map f x).run s = _
  simp only [ExceptT.map, ExceptT.run, ExceptT.mk, bind, StateT.bind, outcome]
  rcases x s with ⟨e | a, t⟩
  · rfl
  · rfl

end Computations

/-! ### Searches and sessions -/

variable {σ α : Type}

theorem outcome_ofDraw (draw : Draw σ α) (g : σ) :
    outcome (Search.ofDraw draw) g =
      ((outcome draw g).1.mapError Failure.misuse, (outcome draw g).2) := rfl

theorem ofDraw_ok {draw : Draw σ α} {g g' : σ} {a : α}
    (h : outcome (Search.ofDraw draw) g = (.ok a, g')) : outcome draw g = (.ok a, g') := by
  rw [outcome_ofDraw] at h
  rcases hd : outcome draw g with ⟨e | b, k⟩
  · rw [hd] at h
    cases h
  · rw [hd] at h
    cases h
    rfl

theorem Search.ofDraw_map {β : Type} (f : α → β) (draw : Draw σ α) :
    Search.ofDraw (f <$> draw) = f <$> Search.ofDraw draw := by
  refine outcome_ext fun g => ?_
  rw [outcome_ofDraw, outcome_map, outcome_map, outcome_ofDraw]
  rcases outcome draw g with ⟨misuse | a, g'⟩
  · rfl
  · rfl

theorem ofDraw_error {draw : Draw σ α} {g g' : σ} {failure : Failure}
    (h : outcome (Search.ofDraw draw) g = (.error failure, g')) :
    ∃ misuse, failure = .misuse misuse := by
  rw [outcome_ofDraw] at h
  rcases hd : outcome draw g with ⟨misuse | a, k⟩
  · rw [hd] at h
    cases h
    exact ⟨misuse, rfl⟩
  · rw [hd] at h
    cases h

@[simp] theorem outcome_ofExcept (result : Except SearchError α) (g : σ) :
    outcome (Search.ofExcept result) g = (result.mapError Failure.error, g) := rfl

theorem ofExcept_ok {result : Except SearchError α} {g g' : σ} {a : α}
    (h : outcome (Search.ofExcept result) g = (.ok a, g')) : result = .ok a := by
  rw [outcome_ofExcept] at h
  exact Except.mapError_eq_ok (Prod.mk.inj h).1

@[simp] theorem outcome_search (action : Search σ α) (bench : Workbench σ) :
    outcome (Session.search action) bench =
      ((outcome action bench.generator).1,
        { bench with generator := (outcome action bench.generator).2 }) := rfl

@[simp] theorem outcome_require (result : Except SearchError α) (bench : Workbench σ) :
    outcome (Session.require result) bench = (result.mapError Failure.error, bench) := rfl

end StepSearch
