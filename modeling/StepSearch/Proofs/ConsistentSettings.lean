import StepSearch.Proofs.Rounding
import StepSearch.Proofs.SafeGenerations

/-!
# Consistent settings

What is asked of the settings of a strategy is a list of demands in a fixed order. If all are met the
strategy is made, and works with the values that were set and with derived ones where none were; if not,
the first demand that is not met is reported. A fraction or chance that is no number meets no demand,
and its sum with another one is not left undecided.
-/

namespace StepSearch

/-! ### Fractions -/

namespace Binary64

/-- The inverse of a whole number lies between zero and one, unless the number is zero. -/
theorem inUnit_inverse_iff {n : Nat} : (one.div (ofNat n)).InUnit ↔ 1 ≤ n := by
  constructor
  · intro h
    rcases Nat.eq_zero_or_pos n with rfl | hn
    · exact absurd h (by decide +kernel)
    · exact hn
  · intro hn
    obtain ⟨unit, hunit, hone⟩ := unitsPerOne_eq_pow
    rcases view_ofNat_cases hn with hinfinite | ⟨size, hsize, hge⟩
    · rw [div_infinite view_one hinfinite, ← isUnit_iff]
      decide +kernel
    · have hpositive : 0 < size := Nat.lt_of_lt_of_le unitsPerOne_pos hge
      have hquotient : unitsPerOne * unitsPerOne ≤ 2 ^ unit * size := by
        rw [← hone]
        exact Nat.mul_le_mul_left _ hge
      obtain ⟨share, hshare, hrounds⟩ :=
        view_div view_one hsize (by omega) hpositive hquotient
      have hle := hrounds.le_pow unit hquotient
      rw [← hone] at hle
      refine ⟨false, share, hshare, ?_⟩
      rw [signedUnits_false]
      omega

theorem inUnit_getD_iff {given : Option Binary64} {derived : Binary64} :
    (given.getD derived).InUnit ↔
      (∀ x, given = some x → x.InUnit) ∧ (given = none → derived.InUnit) := by
  cases given with
  | none => simp
  | some x => simp

theorem one_lt_add_eq_false_iff {x y : Binary64} (hx : x.InUnit) (hy : y.InUnit) :
    one.lt (x.add y) = false ↔ (x.add y).le one = true := by
  obtain ⟨s, m, hxview, -⟩ := hx
  obtain ⟨t, n, hyview, -⟩ := hy
  have hone : one.isNaN = false := by decide +kernel
  exact lt_eq_false_iff hone (isNaN_add hxview hyview)

end Binary64

/-! ### Demands -/

/-- Something that is asked of settings, and the fault that is reported if it does not hold. -/
structure Demand where
  holds : Prop
  fault : ConfigurationFault

namespace Demand

def inUnit (quantity : Quantity) (value : Binary64) : Demand :=
  ⟨value.InUnit, .notUnit quantity value⟩

def inOrder (least greatest : Nat) : Demand :=
  ⟨least ≤ greatest, .lengthBounds least greatest⟩

/-- Whether `fault` is that of the first demand that does not hold. -/
def FirstUnmet (demands : List Demand) (fault : ConfigurationFault) : Prop :=
  ∃ before d after, demands = before ++ d :: after ∧ (∀ e ∈ before, e.holds) ∧ ¬ d.holds ∧
    d.fault = fault

variable {d : Demand} {demands : List Demand} {fault : ConfigurationFault}

theorem firstUnmet_nil : ¬ FirstUnmet [] fault := by
  rintro ⟨before, d, after, hsplit, -⟩
  cases before <;> cases hsplit

theorem firstUnmet_cons_of_met (h : d.holds) :
    FirstUnmet (d :: demands) fault ↔ FirstUnmet demands fault := by
  constructor
  · rintro ⟨before, e, after, hsplit, hbefore, he, hfault⟩
    cases before with
    | nil =>
      obtain rfl := (List.cons.inj hsplit).1
      exact absurd h he
    | cons c before =>
      exact ⟨before, e, after, (List.cons.inj hsplit).2, (List.forall_mem_cons.mp hbefore).2, he,
        hfault⟩
  · rintro ⟨before, e, after, rfl, hbefore, he, hfault⟩
    exact ⟨d :: before, e, after, rfl, List.forall_mem_cons.mpr ⟨h, hbefore⟩, he, hfault⟩

theorem firstUnmet_cons_of_unmet (h : ¬ d.holds) :
    FirstUnmet (d :: demands) fault ↔ d.fault = fault := by
  constructor
  · rintro ⟨before, e, after, hsplit, hbefore, he, hfault⟩
    cases before with
    | nil =>
      obtain rfl := (List.cons.inj hsplit).1
      exact hfault
    | cons c before =>
      obtain rfl := (List.cons.inj hsplit).1
      exact absurd (hbefore d List.mem_cons_self) h
  · intro hfault
    exact ⟨[], d, demands, rfl, by simp, h, hfault⟩

end Demand

open Demand

/-- Whether a result is had exactly if all demands are met, and the fault is otherwise that of the first
one that is not. -/
structure Enforces {α : Type} (result : Except ConfigurationFault α) (demands : List Demand) :
    Prop where
  ok_iff : (∃ a, result = .ok a) ↔ ∀ d ∈ demands, d.holds
  error_iff : ∀ fault, result = .error fault ↔ FirstUnmet demands fault

namespace Enforces

variable {α β : Type} {result : Except ConfigurationFault α} {demands : List Demand} {d : Demand}

theorem nil (a : α) : Enforces (.ok a : Except ConfigurationFault α) [] := by
  constructor
  case ok_iff => simp
  case error_iff =>
    intro fault
    simp only [reduceCtorEq, firstUnmet_nil]

/-- One more demand is made before all others. -/
theorem cons (hunmet : ¬ d.holds → result = .error d.fault)
    (hmet : d.holds → Enforces result demands) : Enforces result (d :: demands) := by
  by_cases hd : d.holds
  · obtain ⟨hok, herror⟩ := hmet hd
    constructor
    case ok_iff => rw [hok, List.forall_mem_cons, and_iff_right hd]
    case error_iff =>
      intro fault
      rw [herror, firstUnmet_cons_of_met hd]
  · rw [hunmet hd]
    constructor
    case ok_iff => simp [hd]
    case error_iff =>
      intro fault
      rw [firstUnmet_cons_of_unmet hd, Except.error.injEq]

/-- What is asked does not depend on the value that is had if all is met. -/
theorem map_iff (f : α → β) : Enforces (result.map f) demands ↔ Enforces result demands := by
  have hok : (∃ b, result.map f = .ok b) ↔ ∃ a, result = .ok a := by
    cases result <;> simp [Except.map]
  have herror : ∀ fault, result.map f = .error fault ↔ result = .error fault := by
    intro fault
    cases result <;> simp [Except.map]
  constructor
  · intro h
    exact ⟨hok.symm.trans h.ok_iff, fun fault => (herror fault).symm.trans (h.error_iff fault)⟩
  · intro h
    exact ⟨hok.trans h.ok_iff, fun fault => (herror fault).trans (h.error_iff fault)⟩

theorem check {quantity : Quantity} {value : Binary64}
    (h : value.InUnit → Enforces result demands) :
    Enforces (do quantity.check value; result) (.inUnit quantity value :: demands) := by
  refine cons (fun hvalue => ?_) fun hvalue => ?_
  · have hfails : quantity.check value = .error (.notUnit quantity value) :=
      if_neg (mt Binary64.isUnit_iff.mp hvalue)
    rw [hfails]
    rfl
  · have hpasses : quantity.check value = .ok () := if_pos (Binary64.isUnit_iff.mpr hvalue)
    rw [hpasses]
    exact h hvalue

end Enforces

/-! ### Options -/

theorem checkLengths_enforces (least greatest : Nat) :
    Enforces (checkLengths least greatest) [.inOrder least greatest] := by
  refine .cons (fun horder => ?_) fun horder => ?_
  · exact if_pos (Nat.lt_of_not_le horder)
  · have hpasses : checkLengths least greatest = .ok () := if_neg (Nat.not_lt.mpr horder)
    rw [hpasses]
    exact .nil ()

def RandomOptions.demands (o : RandomOptions) : List Demand :=
  [.inUnit .elitePool o.elitePool, .inOrder o.leastLength o.greatestLength]

theorem RandomOptions.validate_enforces (o : RandomOptions) : Enforces o.validate o.demands :=
  .check fun _ => checkLengths_enforces o.leastLength o.greatestLength

/-- The sum is the rounded one of binary64 numbers. -/
def GewepOptions.demands (o : GewepOptions) : List Demand :=
  [.inUnit .mutationPool o.mutationPool, .inUnit .crossoverPool o.crossoverPool,
    .inUnit .randomisationChance o.randomisationChance, .inUnit .deletionChance o.deletionChance,
    .inUnit .stepsToRandomise o.stepsToRandomise,
    .inUnit .stepsToAddOrDelete o.stepsToAddOrDelete,
    ⟨(o.mutationPool.add o.crossoverPool).le .one = true,
      .poolsExceedPopulation o.mutationPool o.crossoverPool⟩]

theorem GewepOptions.validate_enforces (o : GewepOptions) : Enforces o.validate o.demands := by
  refine .check fun hmutation => .check fun hcrossover => .check fun _ => .check fun _ =>
    .check fun _ => .check fun _ => ?_
  have hsum := Binary64.one_lt_add_eq_false_iff hmutation hcrossover
  refine .cons (fun hexceeds => ?_) fun hfits => ?_
  · have hlarge : Binary64.one.lt (o.mutationPool.add o.crossoverPool) = true := by
      rw [← Bool.not_eq_false, hsum]
      exact hexceeds
    rw [if_pos hlarge]
    rfl
  · have hsmall := hsum.mpr hfits
    rw [hsmall]
    exact .nil ()

theorem RandomElitist.ofOptions_enforces (o : RandomOptions) : Enforces (ofOptions o) o.demands := by
  have hvalidates : (ofOptions o).map (fun _ => ()) = o.validate := by
    unfold ofOptions
    split
    next h => exact h.symm
    next h => exact h.symm
  rw [← Enforces.map_iff, hvalidates]
  exact o.validate_enforces

theorem Gewep.ofOptions_enforces (o : GewepOptions) : Enforces (ofOptions o) o.demands := by
  have hvalidates : (ofOptions o).map (fun _ => ()) = o.validate := by
    unfold ofOptions
    split
    next h => exact h.symm
    next h => exact h.symm
  rw [← Enforces.map_iff, hvalidates]
  exact o.validate_enforces

/-! ### Settings -/

/-- The fractions and chances that a strategy works with. -/
def Strategy.fractions : Strategy → List Binary64
  | random r => [r.options.elitePool]
  | gewep w => [w.options.mutationPool, w.options.crossoverPool, w.options.randomisationChance,
      w.options.deletionChance, w.options.stepsToRandomise, w.options.stepsToAddOrDelete]

theorem Strategy.fractions_inUnit (strategy : Strategy) : ∀ x ∈ strategy.fractions, x.InUnit := by
  cases strategy with
  | random r =>
    have hmet := r.options.validate_enforces.ok_iff.mp ⟨(), r.valid⟩
    simp only [RandomOptions.demands, List.forall_mem_cons] at hmet
    simp only [fractions, List.forall_mem_cons]
    exact ⟨hmet.1, by simp⟩
  | gewep w =>
    have hmet := w.options.validate_enforces.ok_iff.mp ⟨(), w.valid⟩
    simp only [GewepOptions.demands, List.forall_mem_cons] at hmet
    obtain ⟨hmutation, hcrossover, hrandomisation, hdeletion, hrandomise, haddOrDelete, -⟩ := hmet
    simp only [fractions, List.forall_mem_cons]
    exact ⟨hmutation, hcrossover, hrandomisation, hdeletion, hrandomise, haddOrDelete, by simp⟩

/-- Whether a value is the one that is given, or the derived one because none is given. -/
def GivenOrDerived (given : Option Binary64) (derived value : Binary64) : Prop :=
  given = some value ∨ given = none ∧ value = derived

theorem givenOrDerived_getD (given : Option Binary64) (derived : Binary64) :
    GivenOrDerived given derived (given.getD derived) := by
  cases given with
  | none => exact .inr ⟨rfl, rfl⟩
  | some x => exact .inl rfl

namespace StrategySettings

variable (s : StrategySettings) (size : Nat)

/-- What is asked for a population of `size` individuals, in the order in which it is checked. -/
def demands : List Demand :=
  ⟨0 < size, .emptyPopulation⟩ :: match s.kind with
    | .random => (s.randomOptions size).demands
    | .gewep => s.gewepOptions.demands

theorem build_enforces : Enforces (s.build size) (s.demands size) := by
  refine .cons (fun hnobody => ?_) fun hsomebody => ?_
  · exact if_pos (Nat.eq_zero_of_not_pos hnobody)
  · unfold build
    rw [if_neg (Nat.ne_of_gt hsomebody)]
    cases s.kind with
    | random => exact (Enforces.map_iff _).mpr (RandomElitist.ofOptions_enforces _)
    | gewep => exact (Enforces.map_iff _).mpr (Gewep.ofOptions_enforces _)

structure ConsistentRandom : Prop where
  elitePool : ∀ x, s.elitePool = some x → x.InUnit
  lengths : s.leastLength ≤ s.greatestLength

structure ConsistentGewep : Prop where
  mutationPool : s.mutationPool.InUnit
  crossoverPool : s.crossoverPool.InUnit
  randomisationChance : s.randomisationChance.InUnit
  deletionChance : s.deletionChance.InUnit
  stepsToRandomise : ∀ x, s.stepsToRandomise = some x → x.InUnit
  stepsToAddOrDelete : ∀ x, s.stepsToAddOrDelete = some x → x.InUnit
  /-- A chance that is derived is the inverse of the greatest length. -/
  greatestLength : s.stepsToRandomise = none ∨ s.stepsToAddOrDelete = none → 1 ≤ s.greatestLength
  pools : (s.mutationPool.add s.crossoverPool).le .one = true

/-- Whether the settings describe a strategy for a population of `size` individuals. Settings of the
other kind of strategy do not matter. -/
def Consistent : Prop :=
  0 < size ∧ match s.kind with
    | .random => s.ConsistentRandom
    | .gewep => s.ConsistentGewep

variable {s size}

theorem consistentRandom_iff (hsize : 0 < size) :
    s.ConsistentRandom ↔ ∀ d ∈ (s.randomOptions size).demands, d.holds := by
  have helite : (s.randomOptions size).elitePool.InUnit ↔ ∀ x, s.elitePool = some x → x.InUnit := by
    have hderived : (Pool.defaultElite size).InUnit := Binary64.inUnit_inverse_iff.mpr hsize
    exact Binary64.inUnit_getD_iff.trans (and_iff_left fun _ => hderived)
  simp only [RandomOptions.demands, List.forall_mem_cons]
  constructor
  · intro h
    exact ⟨helite.mpr h.elitePool, h.lengths, by simp⟩
  · rintro ⟨hfraction, hlengths, -⟩
    exact ⟨helite.mp hfraction, hlengths⟩

theorem consistentGewep_iff : s.ConsistentGewep ↔ ∀ d ∈ s.gewepOptions.demands, d.holds := by
  have hchance : ∀ given : Option Binary64, (given.getD (defaultStepChance s.greatestLength)).InUnit ↔
      (∀ x, given = some x → x.InUnit) ∧ (given = none → 1 ≤ s.greatestLength) := by
    intro given
    rw [Binary64.inUnit_getD_iff, defaultStepChance, Binary64.inUnit_inverse_iff]
  simp only [GewepOptions.demands, List.forall_mem_cons]
  constructor
  · intro h
    exact ⟨h.mutationPool, h.crossoverPool, h.randomisationChance, h.deletionChance,
      (hchance _).mpr ⟨h.stepsToRandomise, fun hnone => h.greatestLength (.inl hnone)⟩,
      (hchance _).mpr ⟨h.stepsToAddOrDelete, fun hnone => h.greatestLength (.inr hnone)⟩, h.pools,
      by simp⟩
  · rintro ⟨hmutation, hcrossover, hrandomisation, hdeletion, hrandomise, haddOrDelete, hpools, -⟩
    obtain ⟨hgiven, hderived⟩ := (hchance _).mp hrandomise
    obtain ⟨hgiven', hderived'⟩ := (hchance _).mp haddOrDelete
    exact ⟨hmutation, hcrossover, hrandomisation, hdeletion, hgiven, hgiven',
      fun hnone => hnone.elim hderived hderived', hpools⟩

theorem consistent_iff : s.Consistent size ↔ ∀ d ∈ s.demands size, d.holds := by
  unfold Consistent demands
  rw [List.forall_mem_cons]
  refine and_congr_right fun hsize => ?_
  cases s.kind with
  | random => exact consistentRandom_iff hsize
  | gewep => exact consistentGewep_iff

/-- Whether a strategy works with the values of the settings, and with derived ones only where none are
given. -/
def CarriedBy (s : StrategySettings) (size : Nat) : Strategy → Prop
  | .random r => s.kind = .random ∧
      GivenOrDerived s.elitePool (Binary64.one.div (.ofNat size)) r.options.elitePool ∧
      r.options.leastLength = s.leastLength ∧ r.options.greatestLength = s.greatestLength
  | .gewep w => s.kind = .gewep ∧
      w.options.mutationPool = s.mutationPool ∧ w.options.crossoverPool = s.crossoverPool ∧
      w.options.randomisationChance = s.randomisationChance ∧
      w.options.deletionChance = s.deletionChance ∧
      GivenOrDerived s.stepsToRandomise (Binary64.one.div (.ofNat s.greatestLength))
        w.options.stepsToRandomise ∧
      GivenOrDerived s.stepsToAddOrDelete (Binary64.one.div (.ofNat s.greatestLength))
        w.options.stepsToAddOrDelete

theorem carriedBy_of_build {strategy : Strategy} (h : s.build size = .ok strategy) :
    s.CarriedBy size strategy := by
  unfold build at h
  split at h
  · cases h
  cases hkind : s.kind with
  | random =>
    rw [hkind] at h
    obtain ⟨r, hr, rfl⟩ := Except.map_ok h
    rw [CarriedBy, RandomElitist.ofOptions_ok hr]
    exact ⟨hkind, givenOrDerived_getD _ _, rfl, rfl⟩
  | gewep =>
    rw [hkind] at h
    obtain ⟨w, hw, rfl⟩ := Except.map_ok h
    rw [CarriedBy, Gewep.ofOptions_ok hw]
    exact ⟨hkind, rfl, rfl, rfl, rfl, givenOrDerived_getD _ _, givenOrDerived_getD _ _⟩

theorem buildStrategy_of_error {σ : Type} {fault : ConfigurationFault}
    (h : s.build size = .error fault) (bench : Workbench σ) :
    outcome (Session.buildStrategy s size) bench =
      (.error (.error (.configuration fault)), bench) := by
  have hrefused : outcome (Session.require ((s.build size).mapError .configuration)) bench =
      (.error (.error (.configuration fault)), bench) := by
    rw [outcome_require, h]
    rfl
  exact bind_of_error hrefused _

/-- Strategies are made of consistent settings, and of no others.

The fractions and chances must lie between zero and one, which no NaN does, the pools must leave a sum
of at most one, the lengths must be in order where they are used, and there must be somebody. A strategy
that is made works with the given values as they are, and with derived ones only where none are given.
Otherwise the fault is that of the first demand that is not met, it is one of configuration, and nothing
else has happened. -/
theorem build_accepts_exactly_consistent_settings {σ : Type} (s : StrategySettings) (size : Nat) :
    ((∃ strategy, s.build size = .ok strategy) ↔ s.Consistent size) ∧
    (∀ strategy, s.build size = .ok strategy →
      s.CarriedBy size strategy ∧ ∀ x ∈ strategy.fractions, x.isNaN = false) ∧
    (∀ fault, s.build size = .error fault ↔ FirstUnmet (s.demands size) fault) ∧
    ∀ fault (bench : Workbench σ), s.build size = .error fault →
      outcome (Session.buildStrategy s size) bench =
        (.error (.error (.configuration fault)), bench) := by
  have henforced := s.build_enforces size
  refine ⟨henforced.ok_iff.trans consistent_iff.symm, fun strategy h => ⟨carriedBy_of_build h, ?_⟩,
    henforced.error_iff, fun fault bench h => buildStrategy_of_error h bench⟩
  exact fun x hx => (strategy.fractions_inUnit x hx).isNaN_eq_false

/-- Both chances are given, so that nothing is asked of the lengths. -/
def unlikelySettings : StrategySettings where
  leastLength := 12
  greatestLength := 0
  stepsToRandomise := some .zero
  stepsToAddOrDelete := some .one

/-- Two values are wrong. -/
def undefinedSettings : StrategySettings where
  crossoverPool := .nan
  randomisationChance := .infinity false

theorem first_of_two_faults_is_reported :
    (∃ strategy, unlikelySettings.build 3 = .ok strategy ∧ unlikelySettings.CarriedBy 3 strategy ∧
      ∀ x ∈ strategy.fractions, x.isNaN = false) ∧
    undefinedSettings.build 3 = .error (.notUnit .crossoverPool .nan) ∧
    outcome (Session.buildStrategy undefinedSettings 3) Run.smallStart.bench =
      (.error (.error (.configuration (.notUnit .crossoverPool .nan))), Run.smallStart.bench) := by
  obtain ⟨haccepts, hcarries, -, -⟩ :=
    build_accepts_exactly_consistent_settings (σ := Script) unlikelySettings 3
  obtain ⟨-, -, hrefuses, hsession⟩ :=
    build_accepts_exactly_consistent_settings (σ := Script) undefinedSettings 3
  have hconsistent : unlikelySettings.ConsistentGewep := by
    constructor
    case stepsToRandomise =>
      intro x hx
      rw [← Option.some.inj hx]
      decide +kernel
    case stepsToAddOrDelete =>
      intro x hx
      rw [← Option.some.inj hx]
      decide +kernel
    all_goals decide +kernel
  obtain ⟨strategy, hstrategy⟩ := haccepts.mpr ⟨by decide, hconsistent⟩
  have hfault : undefinedSettings.build 3 = .error (.notUnit .crossoverPool .nan) := by
    refine (hrefuses _).mpr ⟨[_, _], _, _, rfl, ?_, ?_, rfl⟩
    · refine List.forall_mem_cons.mpr ⟨(by decide : 0 < 3), List.forall_mem_singleton.mpr ?_⟩
      show undefinedSettings.mutationPool.InUnit
      decide +kernel
    · show ¬ Binary64.nan.InUnit
      decide +kernel
  exact ⟨⟨strategy, hstrategy, hcarries strategy hstrategy⟩, hfault, hsession _ _ hfault⟩

end StrategySettings

end StepSearch
