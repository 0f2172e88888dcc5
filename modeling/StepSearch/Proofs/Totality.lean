import StepSearch.Proofs.Generations
import StepSearch.Proofs.UnitInterval

/-!
# Draws that never fail

A draw is misused if a range is empty, a chance lies outside of zero and one, a pool has nobody or
lengths are crossed. Strategies with valid options, given somebody, never misuse a draw, whatever
words come: every generation has a next one.
-/

namespace StepSearch

/-! ### Total computations -/

section Computations

variable {ε σ α β : Type}

/-- Whether a computation succeeds from every state. -/
def Total (x : ExceptT ε (StateM σ) α) : Prop :=
  ∀ s, ∃ a t, outcome x s = (.ok a, t)

namespace Total

theorem pure (a : α) : Total (pure a : ExceptT ε (StateM σ) α) :=
  fun s => ⟨a, s, rfl⟩

theorem bind {x : ExceptT ε (StateM σ) α} {f : α → ExceptT ε (StateM σ) β} (hx : Total x)
    (hf : ∀ a, Total (f a)) : Total (x >>= f) := by
  intro s
  obtain ⟨a, t, ha⟩ := hx s
  obtain ⟨b, u, hb⟩ := hf a t
  exact ⟨b, u, (bind_of_ok ha f).trans hb⟩

theorem map {x : ExceptT ε (StateM σ) α} (hx : Total x) (f : α → β) :
    Total (x >>= fun a => Pure.pure (f a)) :=
  hx.bind fun a => .pure (f a)

theorem foldlM {f : β → α → ExceptT ε (StateM σ) β} (hf : ∀ b a, Total (f b a)) (values : List α)
    (b : β) : Total (values.foldlM f b) := by
  induction values generalizing b with
  | nil => exact .pure b
  | cons a values ih =>
    rw [List.foldlM_cons]
    exact (hf b a).bind fun b' => ih b'

end Total

end Computations

variable {σ : Type}

theorem Draw.times_total {α : Type} {draw : Draw σ α} (h : Total draw) (n : Nat) :
    Total (Draw.times n draw) := by
  induction n with
  | zero => exact .pure []
  | succ n ih => exact h.bind fun value => ih.map (value :: ·)

theorem Search.ofDraw_total {α : Type} {draw : Draw σ α} (h : Total draw) :
    Total (Search.ofDraw draw) := by
  intro g
  obtain ⟨a, g', ha⟩ := h g
  exact ⟨a, g', by rw [outcome_ofDraw, ha, Except.mapError_ok]⟩

variable [WordSource σ]

/-! ### Words and whole numbers -/

namespace Draw

theorem word_total : Total (word : Draw σ Nat) :=
  fun g => ⟨_, (WordSource.next g).2, rfl⟩

theorem doubleWord_total : Total (doubleWord : Draw σ Nat) :=
  word_total.bind fun _ => word_total.map _

theorem Width.draw_total (width : Width) : Total (width.draw : Draw σ Nat) := by
  cases width with
  | single => exact word_total
  | double => exact doubleWord_total

theorem below_total (width : Width) (n : Nat) : Total (below width n : Draw σ Nat) := by
  refine (Width.draw_total width).bind fun value => ?_
  dsimp only
  split
  · exact (Width.draw_total width).map _
  · exact .pure _

theorem inclusive_total {low high : Nat} (h : low ≤ high) :
    Total (inclusive low high : Draw σ Nat) := by
  unfold inclusive
  rw [if_neg (Nat.not_lt.mpr h)]
  exact (below_total _ _).map _

theorem exclusive_total {low high : Nat} (h : low < high) :
    Total (exclusive low high : Draw σ Nat) := by
  unfold exclusive
  rw [if_neg (Nat.not_le.mpr h)]
  exact (below_total _ _).map _

theorem chance_total {p : Binary64} (h : p.isUnit = true) : Total (chance p : Draw σ Bool) := by
  unfold chance
  by_cases hone : p = .one
  · rw [if_pos hone]
    exact .pure true
  · obtain ⟨threshold, hthreshold⟩ := (Binary64.isUnit_cases h).resolve_left hone
    rw [if_neg hone, hthreshold]
    exact doubleWord_total.map _

theorem word_lt {g g' : σ} {w : Nat} (h : outcome word g = (.ok w, g')) : w < Nat.pow 2 32 := by
  cases h
  exact UInt32.toNat_lt _

theorem Width.draw_lt {width : Width} {g g' : σ} {w : Nat}
    (h : outcome width.draw g = (.ok w, g')) : w < width.size := by
  cases width with
  | single => exact word_lt h
  | double =>
    obtain ⟨low, m, hlow, h⟩ := bind_ok h
    obtain ⟨high, m', hhigh, h⟩ := bind_ok h
    obtain ⟨rfl, -⟩ := pure_ok h
    have hlow' := word_lt hlow
    have hhigh' := word_lt hhigh
    show low + high * 2 ^ 32 < 2 ^ 64
    simp only [Nat.pow_eq] at hlow' hhigh'
    omega

/-- A scaled word lies below the scale, and so does its successor if the cut-off part may carry. -/
theorem scaled_lt {size word n : Nat} (hword : word < size) (hn : 0 < n) :
    word * n / size < n ∧ (size - n < word * n % size → word * n / size + 1 < n) := by
  have hdivision := Nat.div_add_mod (word * n) size
  have hproduct : word * n + n ≤ size * n := by
    rw [← Nat.succ_mul]
    exact Nat.mul_le_mul_right n hword
  have hresult : word * n / size < n := by
    rw [Nat.div_lt_iff_lt_mul (Nat.zero_lt_of_lt hword), Nat.mul_comm n size]
    omega
  refine ⟨hresult, fun hcarry => Nat.lt_of_le_of_ne hresult fun hlast => ?_⟩
  -- The last value leaves no more than `size - n` to be cut off.
  generalize word * n / size = result at *
  subst hlast
  rw [Nat.mul_succ size result] at hproduct
  omega

theorem below_lt {width : Width} {n : Nat} (hn : 0 < n) {g g' : σ} {value : Nat}
    (h : outcome (below width n) g = (.ok value, g')) : value < n := by
  obtain ⟨word, m, hword, h⟩ := bind_ok h
  obtain ⟨hresult, hcarried⟩ := scaled_lt (Width.draw_lt hword) hn
  dsimp only at h
  split at h
  · next hcarry =>
    obtain ⟨second, m', -, h⟩ := bind_ok h
    obtain ⟨rfl, -⟩ := pure_ok h
    split
    · exact hcarried hcarry
    · exact hresult
  · obtain ⟨rfl, -⟩ := pure_ok h
    exact hresult

theorem inclusive_mem {low high value : Nat} {g g' : σ}
    (h : outcome (inclusive low high) g = (.ok value, g')) : low ≤ value ∧ value ≤ high := by
  unfold inclusive at h
  split at h
  · cases h
  · obtain ⟨offset, m, hoffset, h⟩ := bind_ok h
    obtain ⟨rfl, -⟩ := pure_ok h
    have hlt : offset < high - low + 1 := below_lt (Nat.succ_pos _) hoffset
    omega

theorem exclusive_mem {low high value : Nat} {g g' : σ}
    (h : outcome (exclusive low high) g = (.ok value, g')) : low ≤ value ∧ value < high := by
  unfold exclusive at h
  split at h
  · cases h
  · obtain ⟨offset, m, hoffset, h⟩ := bind_ok h
    obtain ⟨rfl, -⟩ := pure_ok h
    have hlt : offset < high - low := below_lt (by omega) hoffset
    omega

end Draw

/-! ### Chromosomes -/

theorem Step.draw_total : Total (Step.draw : Draw σ Step) :=
  (Draw.exclusive_total (by decide)).map _

namespace Chromosome

theorem draw_total {least greatest : Nat} (h : least ≤ greatest) :
    Total (draw least greatest : Draw σ Chromosome) := by
  unfold draw
  rw [if_neg (Nat.not_lt.mpr h)]
  exact (Draw.inclusive_total h).bind fun length =>
    (Draw.times_total Step.draw_total length).map _

/-- No more steps are removed than visited, and all others are left. -/
theorem length_after_removals {p : Binary64} {c : Chromosome} {n : Nat} (hn : n ≤ c.length) {g g' : σ}
    {state : Chromosome × Nat}
    (h : outcome ((List.range n).foldlM (deleteAt p) (c, 0)) g = (.ok state, g')) :
    state.2 ≤ n ∧ state.1.length + state.2 = c.length := by
  induction n generalizing g' state with
  | zero =>
    obtain ⟨rfl, -⟩ := pure_ok h
    exact ⟨Nat.le_refl 0, rfl⟩
  | succ n ih =>
    rw [List.range_succ, List.foldlM_append] at h
    obtain ⟨⟨mutant, removed⟩, m, hbefore, h⟩ := bind_ok h
    obtain ⟨hle, hlength⟩ := ih (Nat.le_of_succ_le hn) hbefore
    rw [List.foldlM_cons] at h
    obtain ⟨state', m', hvisit, h⟩ := bind_ok h
    obtain ⟨rfl, -⟩ := pure_ok h
    obtain ⟨hit, m₂, -, hvisit⟩ := bind_ok hvisit
    simp only at hle hlength
    cases hit with
    | false =>
      obtain ⟨rfl, -⟩ := pure_ok hvisit
      exact ⟨Nat.le_succ_of_le hle, hlength⟩
    | true =>
      obtain ⟨rfl, -⟩ := pure_ok hvisit
      have hthere : n - removed < mutant.steps.length := by
        change n - removed < mutant.length
        omega
      refine ⟨Nat.succ_le_succ hle, ?_⟩
      show (mutant.steps.eraseIdx (n - removed)).length + (removed + 1) = c.length
      rw [List.length_eraseIdx_of_lt hthere]
      change mutant.length - 1 + (removed + 1) = c.length
      omega

section Mutations

variable {p : Binary64} (hp : p.isUnit = true)
include hp

theorem randomiseSteps_total (c : Chromosome) : Total (c.randomiseSteps p : Draw σ Chromosome) := by
  refine .foldlM (fun mutant i => ?_) _ c
  refine (Draw.chance_total hp).bind fun hit => ?_
  cases hit with
  | true => exact Step.draw_total.map _
  | false => exact .pure _

theorem deleteSteps_total (c : Chromosome) : Total (c.deleteSteps p : Draw σ Chromosome) := by
  refine (Total.foldlM (fun state i => ?_) _ (c, 0)).map _
  refine (Draw.chance_total hp).bind fun hit => ?_
  cases hit with
  | true => exact .pure _
  | false => exact .pure _

theorem addSteps_total (c : Chromosome) : Total (c.addSteps p : Draw σ Chromosome) := by
  refine (Total.foldlM (fun state i => ?_) _ (c, 0)).map _
  refine (Draw.chance_total hp).bind fun hit => ?_
  cases hit with
  | true => exact Step.draw_total.map _
  | false => exact .pure _

end Mutations

theorem crossover_total (a b : Chromosome) : Total (a.crossover b : Draw σ Chromosome) := by
  refine (Draw.inclusive_total ?_).map _
  split
  · assumption
  · exact Nat.zero_le _

end Chromosome

/-! ### Populations -/

namespace Population

theorem individual_total (metric : Metric) {least greatest : Nat} (h : least ≤ greatest) :
    Total (Individual.draw metric least greatest : Draw σ Individual) :=
  (Chromosome.draw_total h).map _

theorem draw_total (metric : Metric) (size : Nat) {least greatest : Nat} (h : least ≤ greatest) :
    Total (draw metric size least greatest : Draw σ Population) :=
  (Draw.times_total (individual_total metric h) size).map _

theorem replaceRepeats_total (metric : Metric) {least greatest : Nat} (h : least ≤ greatest)
    (seen : List Chromosome) (individuals : List Individual) :
    Total (replaceRepeats metric least greatest seen individuals : Draw σ (List Individual)) := by
  induction individuals generalizing seen with
  | nil => exact .pure []
  | cons i rest ih =>
    unfold replaceRepeats
    split
    · exact (individual_total metric h).bind fun substitute => (ih seen).map _
    · exact (ih _).map _

theorem randomiseDuplicates_total (p : Population) {least greatest : Nat} (h : least ≤ greatest) :
    Total (p.randomiseDuplicates least greatest : Draw σ Population) :=
  (replaceRepeats_total p.metric h [] p.individuals).map _

end Population

/-! ### Parents -/

namespace Pool

theorem selectParent_total {candidates : Nat} (h : 0 < candidates) :
    Total (selectParent candidates : Draw σ Nat) := by
  unfold selectParent
  rw [if_neg (Nat.ne_of_gt h)]
  exact Draw.exclusive_total h

theorem selectParent_lt {candidates place : Nat} {g g' : σ}
    (h : outcome (selectParent candidates) g = (.ok place, g')) : place < candidates := by
  unfold selectParent at h
  split at h
  · cases h
  · exact (Draw.exclusive_mem h).2

end Pool

/-- Whether the places that are worked with are always there: a parent is one of the candidates; when
step `i` may be removed, no more than `i` steps are gone, and it is one of those that are left. -/
structure PlacesInRange (σ : Type) [WordSource σ] : Prop where
  parent : ∀ (candidates place : Nat) (g g' : σ),
    outcome (Pool.selectParent candidates) g = (.ok place, g') → place < candidates
  removal : ∀ (p : Binary64) (c mutant : Chromosome) (i removed : Nat) (g g' : σ), i < c.length →
    outcome ((List.range i).foldlM (Chromosome.deleteAt p) (c, 0)) g =
      (.ok (mutant, removed), g') → removed ≤ i ∧ i - removed < mutant.length

theorem placesInRange : PlacesInRange σ where
  parent _ _ _ _ h := Pool.selectParent_lt h
  removal p c mutant i removed g g' hi h := by
    obtain ⟨hle, hlength⟩ := Chromosome.length_after_removals (Nat.le_of_lt hi) h
    simp only at hle hlength
    exact ⟨hle, by omega⟩

/-! ### Valid options -/

theorem isUnit_of_check {quantity : Quantity} {value : Binary64} (h : quantity.check value = .ok ()) :
    value.isUnit = true := by
  unfold Quantity.check at h
  split at h
  · assumption
  · cases h

theorem checkLengths_ok {least greatest : Nat} (h : checkLengths least greatest = .ok ()) :
    least ≤ greatest := by
  unfold checkLengths at h
  split at h
  · cases h
  · omega

theorem RandomOptions.validate_ok {o : RandomOptions} (h : o.validate = .ok ()) :
    o.elitePool.isUnit = true ∧ o.leastLength ≤ o.greatestLength := by
  obtain ⟨_, helite, h⟩ := Except.bind_ok h
  exact ⟨isUnit_of_check helite, checkLengths_ok h⟩

theorem GewepOptions.validate_ok {o : GewepOptions} (h : o.validate = .ok ()) :
    o.randomisationChance.isUnit = true ∧ o.deletionChance.isUnit = true ∧
      o.stepsToRandomise.isUnit = true ∧ o.stepsToAddOrDelete.isUnit = true := by
  obtain ⟨_, -, h⟩ := Except.bind_ok h
  obtain ⟨_, -, h⟩ := Except.bind_ok h
  obtain ⟨_, hrandomisation, h⟩ := Except.bind_ok h
  obtain ⟨_, hdeletion, h⟩ := Except.bind_ok h
  obtain ⟨_, hrandomise, h⟩ := Except.bind_ok h
  obtain ⟨_, haddOrDelete, -⟩ := Except.bind_ok h
  exact ⟨isUnit_of_check hrandomisation, isUnit_of_check hdeletion, isUnit_of_check hrandomise,
    isUnit_of_check haddOrDelete⟩

/-! ### Strategies -/

theorem RandomElitist.advance_total (r : RandomElitist) {p : Population}
    (hp : p.individuals ≠ []) : Total (r.advance p : Search σ Population) := by
  unfold RandomElitist.advance
  rw [if_neg (mt Population.isEmpty_iff.mp hp)]
  obtain ⟨-, hlengths⟩ := RandomOptions.validate_ok r.valid
  exact Search.ofDraw_total ((Population.draw_total p.metric _ hlengths).map _)

namespace Gewep

theorem chooseMutation_total (w : Gewep) : Total (w.chooseMutation : Draw σ Mutation) := by
  obtain ⟨hrandomisation, hdeletion, -, -⟩ := GewepOptions.validate_ok w.valid
  refine (Draw.chance_total hrandomisation).bind fun randomises => ?_
  cases randomises with
  | true => exact .pure _
  | false =>
    refine (Draw.chance_total hdeletion).bind fun deletes => ?_
    cases deletes with
    | true => exact .pure _
    | false => exact .pure _

theorem mutate_total (w : Gewep) (parent : Chromosome) :
    Total (w.mutate parent : Draw σ Chromosome) := by
  obtain ⟨-, -, hrandomise, haddOrDelete⟩ := GewepOptions.validate_ok w.valid
  refine w.chooseMutation_total.bind fun mutation => ?_
  cases mutation with
  | randomisation => exact parent.randomiseSteps_total hrandomise
  | deletion => exact parent.deleteSteps_total haddOrDelete
  | addition => exact parent.addSteps_total haddOrDelete

theorem mutant_total (w : Gewep) {elite : List Individual} (h : 0 < elite.length) :
    Total (w.mutant elite : Draw σ Chromosome) :=
  (Pool.selectParent_total h).bind fun _ => w.mutate_total _

theorem crossChild_total {elite : List Individual} (h : 0 < elite.length) :
    Total (crossChild elite : Draw σ Chromosome) := by
  have hparents : Total (Pool.selectParents elite.length : Draw σ (Nat × Nat)) :=
    (Pool.selectParent_total h).bind fun _ => (Pool.selectParent_total h).map _
  exact hparents.bind fun _ => Chromosome.crossover_total _ _

theorem advance_total (w : Gewep) {p : Population} (hp : p.individuals ≠ []) :
    Total (w.advance p : Search σ Population) := by
  have hsize : 0 < p.size := List.length_pos_iff.mpr hp
  -- Parents are drawn from the elite, which has at least one individual.
  have helite : 0 < (p.ranked.individuals.take (w.pools p.size).elite).length := by
    have hone := PoolSizes.one_le_elite hsize w.options.mutationPool w.options.crossoverPool
    rw [List.length_take, Population.length_ranked]
    exact Nat.lt_min.mpr ⟨hone, hsize⟩
  unfold advance
  rw [if_neg (mt Population.isEmpty_iff.mp hp)]
  refine Search.ofDraw_total ((Draw.times_total (w.mutant_total helite) _).bind fun _ => ?_)
  exact (Draw.times_total (crossChild_total helite) _).map _

end Gewep

theorem Strategy.advance_total (s : Strategy) {p : Population} (hp : p.individuals ≠ []) :
    Total (s.advance p : Search σ Population) := by
  cases s with
  | random r => exact r.advance_total hp
  | gewep w => exact w.advance_total hp

/-- Everybody has offspring, if the bounds for replacements are in order. -/
theorem Run.offspring_total (s : Strategy) {bounds : Option (Nat × Nat)}
    (hbounds : ∀ least greatest, bounds = some (least, greatest) → least ≤ greatest)
    {p : Population} (hp : p.individuals ≠ []) :
    Total (offspring s.toAlgorithm bounds p : Search σ Population) := by
  refine (s.advance_total hp).bind fun next => ?_
  cases bounds with
  | none => exact .pure next
  | some range =>
    exact Search.ofDraw_total (next.randomiseDuplicates_total (hbounds _ _ rfl))

end StepSearch
