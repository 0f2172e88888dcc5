import Mathlib.Data.Rat.Floor
import Mathlib.Tactic.FieldSimp
import Mathlib.Tactic.Linarith
import Mathlib.Tactic.Positivity
import StepSearch.Proofs.Rounding

/-!
# Exact values

A finite number has a rational value, and an operation gives a number near the exact result: if the
result is at most `2 ^ exponent`, the error is at most one part in `2 ^ 53` of that bound. Comparison and
rounding up to a whole number are those of the values, and small whole numbers are exact.
-/

namespace StepSearch

namespace Binary64

def IsFinite (x : Binary64) : Prop :=
  ∃ negative units, x.view = .finite negative units

/-- The exact value of a finite number, and zero for all others. -/
def value (x : Binary64) : ℚ :=
  match x.view with
  | .finite negative units => signedUnits negative units / unitsPerOne
  | _ => 0

/-- Whether `x` is a finite number that differs from `exact` by at most `error`. -/
def Near (x : Binary64) (exact error : ℚ) : Prop :=
  x.IsFinite ∧ |x.value - exact| ≤ error

theorem value_of_view {x : Binary64} {negative : Bool} {units : Nat}
    (h : x.view = .finite negative units) :
    x.value = signedUnits negative units / unitsPerOne := by
  unfold value
  rw [h]

theorem unitsPerOne_cast_pos : (0 : ℚ) < unitsPerOne :=
  Nat.cast_pos.mpr unitsPerOne_pos

theorem IsFinite.isNaN {x : Binary64} (h : x.IsFinite) : x.isNaN = false := by
  obtain ⟨negative, units, hview⟩ := h
  unfold Binary64.isNaN
  rw [hview]
  rfl

theorem InUnit.isFinite {x : Binary64} (h : x.InUnit) : x.IsFinite := by
  obtain ⟨negative, units, hview, -⟩ := h
  exact ⟨negative, units, hview⟩

theorem InUnit.value_mem {x : Binary64} (h : x.InUnit) : 0 ≤ x.value ∧ x.value ≤ 1 := by
  obtain ⟨negative, units, hview, hzero, hone⟩ := h
  have hzero' : (0 : ℚ) ≤ signedUnits negative units := by exact_mod_cast hzero
  have hone' : (signedUnits negative units : ℚ) ≤ unitsPerOne := by exact_mod_cast hone
  rw [value_of_view hview]
  exact ⟨div_nonneg hzero' unitsPerOne_cast_pos.le,
    (div_le_one unitsPerOne_cast_pos).mpr hone'⟩

theorem value_one : one.value = 1 := by
  rw [value_of_view view_one, signedUnits_false, Int.cast_natCast,
    div_self unitsPerOne_cast_pos.ne']

theorem value_of_view_zero {x : Binary64} {negative : Bool} (h : x.view = .finite negative 0) :
    x.value = 0 := by
  have hunits : signedUnits negative 0 = 0 := by
    cases negative with
    | true => rfl
    | false => rfl
  rw [value_of_view h, hunits, Int.cast_zero, zero_div]

theorem value_zero : zero.value = 0 := value_of_view_zero view_zero

theorem one_isFinite : one.IsFinite := ⟨_, _, view_one⟩

theorem zero_isFinite : zero.IsFinite := ⟨_, _, view_zero⟩

theorem le_iff_value_le {x y : Binary64} (hx : x.IsFinite) (hy : y.IsFinite) :
    x.le y = true ↔ x.value ≤ y.value := by
  obtain ⟨s, m, hxview⟩ := hx
  obtain ⟨t, n, hyview⟩ := hy
  rw [value_of_view hxview, value_of_view hyview,
    div_le_div_iff_of_pos_right unitsPerOne_cast_pos, Int.cast_le]
  unfold le
  rw [hxview, hyview]
  exact decide_eq_true_iff

/-! ### Signs -/

theorem signedUnits_not (negative : Bool) (units : Nat) :
    signedUnits (!negative) units = -signedUnits negative units := by
  cases negative with
  | true => simp [signedUnits]
  | false => simp [signedUnits]

theorem signedUnits_bne (s t : Bool) (m n : Nat) :
    signedUnits (s != t) (m * n) = signedUnits s m * signedUnits t n := by
  cases s <;> cases t <;> simp [signedUnits]

theorem signedUnits_natAbs (sum : Int) : signedUnits (decide (sum < 0)) sum.natAbs = sum := by
  by_cases hneg : sum < 0
  · simp only [signedUnits, decide_eq_true hneg, if_true]
    omega
  · simp only [signedUnits, decide_eq_false hneg, Bool.false_eq_true, if_false]
    omega

theorem signedUnits_mul (negative : Bool) (m n : Nat) :
    signedUnits negative (m * n) = signedUnits negative m * n := by
  cases negative with
  | true => simp [signedUnits]
  | false => simp [signedUnits]

theorem natAbs_signedUnits (negative : Bool) (units : Nat) :
    (signedUnits negative units).natAbs = units := by
  cases negative with
  | true => simp [signedUnits]
  | false => simp [signedUnits]

theorem abs_signedUnits_sub (negative : Bool) (m n : Nat) :
    |(signedUnits negative m : ℚ) - signedUnits negative n| = |(m : ℚ) - n| := by
  cases negative with
  | true =>
    simp only [signedUnits, if_true, Int.cast_neg, Int.cast_natCast]
    rw [← abs_neg]
    congr 1
    ring
  | false => simp [signedUnits]

/-! ### One rounding -/

/-- The error of a rounding, counted in the units of its bound. Below `2 ^ 52` units nothing is known of
it but its size, which is less than the bound allows. -/
theorem Rounds.error_le {num den units exponent : Nat} (h : Rounds num den units)
    (hexponent : 105 ≤ exponent) (hnum : num ≤ 2 ^ exponent * den) :
    2 ^ 53 * (units * den) ≤ 2 ^ 53 * num + 2 ^ exponent * den ∧
      2 ^ 53 * num ≤ 2 ^ 53 * (units * den) + 2 ^ exponent * den := by
  rcases Nat.lt_or_ge num (2 ^ 52 * den) with htiny | hnormal
  · have hunits : units * den ≤ 2 ^ 52 * den :=
      Nat.mul_le_mul_right den (h.le_pow 52 (Nat.le_of_lt htiny))
    have hscale : 2 ^ 105 * den ≤ 2 ^ exponent * den :=
      Nat.mul_le_mul_right den (Nat.pow_le_pow_right (by decide) hexponent)
    omega
  · have hupper := h.upper hnormal
    have hlower := h.lower hnormal
    omega

/-- A rounded result is near the exact one. -/
theorem near_roundUnits {num den exponent : Nat} (hden : 0 < den) (hexponent : exponent ≤ 1022)
    (negative : Bool) {exact : ℚ} (hexact : exact * (unitsPerOne * den) = signedUnits negative num)
    (hbound : |exact| ≤ 2 ^ exponent) :
    Near (ofMagnitude negative (roundUnits num den)) exact (2 ^ exponent / 2 ^ 53) := by
  obtain ⟨unit, hunit, hone⟩ := unitsPerOne_eq_pow
  have hden' : (0 : ℚ) < den := Nat.cast_pos.mpr hden
  have hscale : (0 : ℚ) < unitsPerOne * den := mul_pos unitsPerOne_cast_pos hden'
  have hnum : num ≤ 2 ^ (exponent + unit) * den := by
    have habs : |exact| * (unitsPerOne * den) = num := by
      rw [← abs_of_pos hscale, ← abs_mul, hexact, ← Int.cast_abs, Int.abs_eq_natAbs,
        natAbs_signedUnits, Int.cast_natCast]
    have hcast : (num : ℚ) ≤ 2 ^ exponent * (unitsPerOne * den) := by
      rw [← habs]
      exact mul_le_mul_of_nonneg_right hbound hscale.le
    rw [Nat.pow_add, ← hone, Nat.mul_assoc]
    exact_mod_cast hcast
  obtain ⟨units, hview, hrounds⟩ := view_roundUnits hden (by omega) hnum negative
  refine ⟨⟨negative, units, hview⟩, ?_⟩
  obtain ⟨hupper, hlower⟩ := hrounds.error_le (by omega) hnum
  rw [Nat.pow_add, ← hone] at hupper hlower
  have hupper' : (2 : ℚ) ^ 53 * (units * den) ≤ 2 ^ 53 * num + 2 ^ exponent * unitsPerOne * den := by
    exact_mod_cast hupper
  have hlower' : (2 : ℚ) ^ 53 * num ≤ 2 ^ 53 * (units * den) + 2 ^ exponent * unitsPerOne * den := by
    exact_mod_cast hlower
  have herror : |((units * den : Nat) : ℚ) - num| ≤ 2 ^ exponent / 2 ^ 53 * (unitsPerOne * den) := by
    push_cast
    rw [abs_le]
    constructor
    · linarith
    · linarith
  have hdifference : ((ofMagnitude negative (roundUnits num den)).value - exact) *
      (unitsPerOne * den) = signedUnits negative (units * den) - signedUnits negative num := by
    have hcancel : (signedUnits negative units : ℚ) / unitsPerOne * (unitsPerOne * den) =
        signedUnits negative units * den := by
      rw [← mul_assoc, div_mul_cancel₀ _ unitsPerOne_cast_pos.ne']
    rw [sub_mul, hexact, value_of_view hview, hcancel, signedUnits_mul, Int.cast_mul,
      Int.cast_natCast]
  refine le_of_mul_le_mul_right ?_ hscale
  rw [← abs_of_pos hscale, ← abs_mul, abs_of_pos hscale, hdifference, abs_signedUnits_sub]
  exact herror

/-! ### Operations -/

section Operations

variable {x y : Binary64} (hx : x.IsFinite) {exponent : Nat} (hexponent : exponent ≤ 1022)

include hx in
theorem neg_value : x.neg.IsFinite ∧ x.neg.value = -x.value := by
  obtain ⟨s, m, hxview⟩ := hx
  have hview := view_neg hxview
  refine ⟨⟨_, _, hview⟩, ?_⟩
  rw [value_of_view hview, value_of_view hxview, signedUnits_not, Int.cast_neg, neg_div]

variable (hy : y.IsFinite)
include hx hy hexponent

theorem near_add (h : |x.value + y.value| ≤ 2 ^ exponent) :
    Near (x.add y) (x.value + y.value) (2 ^ exponent / 2 ^ 53) := by
  obtain ⟨s, m, hxview⟩ := hx
  obtain ⟨t, n, hyview⟩ := hy
  have hsum : (x.value + y.value) * unitsPerOne = (signedUnits s m + signedUnits t n : Int) := by
    rw [value_of_view hxview, value_of_view hyview, ← add_div,
      div_mul_cancel₀ _ unitsPerOne_cast_pos.ne', Int.cast_add]
  unfold add
  rw [hxview, hyview]
  dsimp only
  split
  next hzero =>
    have hview : (signedZero (s && t)).view = .finite (s && t) 0 := by
      cases s && t <;> decide +kernel
    have hvalue : x.value + y.value = 0 := by
      rw [hzero, Int.cast_zero] at hsum
      exact (mul_eq_zero.mp hsum).resolve_right unitsPerOne_cast_pos.ne'
    refine ⟨⟨_, _, hview⟩, ?_⟩
    rw [hvalue, value_of_view_zero hview, sub_zero, abs_zero]
    positivity
  next hne =>
    refine near_roundUnits Nat.one_pos hexponent _ ?_ h
    rw [Nat.cast_one, mul_one, signedUnits_natAbs]
    exact hsum

theorem near_sub (h : |x.value - y.value| ≤ 2 ^ exponent) :
    Near (x.sub y) (x.value - y.value) (2 ^ exponent / 2 ^ 53) := by
  obtain ⟨hneg, hvalue⟩ := neg_value hy
  rw [sub_eq_add_neg, ← hvalue] at h ⊢
  exact near_add hx hexponent hneg h

theorem near_mul (h : |x.value * y.value| ≤ 2 ^ exponent) :
    Near (x.mul y) (x.value * y.value) (2 ^ exponent / 2 ^ 53) := by
  obtain ⟨s, m, hxview⟩ := hx
  obtain ⟨t, n, hyview⟩ := hy
  unfold mul
  rw [hxview, hyview]
  refine near_roundUnits unitsPerOne_pos hexponent _ ?_ h
  have hone := unitsPerOne_cast_pos.ne'
  rw [value_of_view hxview, value_of_view hyview, signedUnits_bne, Int.cast_mul]
  field_simp

end Operations

/-! ### Whole numbers -/

theorem nearestEven_mul (k : Nat) {den : Nat} (hden : 0 < den) : nearestEven (k * den) den = k :=
  Nat.le_antisymm (nearestEven_le hden (Nat.le_refl _)) (le_nearestEven hden (Nat.le_refl _))

/-- Whole numbers of at most 52 digits are not rounded. -/
theorem ofNat_value {n : Nat} (hn : n ≤ 2 ^ 52) : (ofNat n).IsFinite ∧ (ofNat n).value = n := by
  obtain ⟨unit, hunit, hone⟩ := unitsPerOne_eq_pow
  have hnum : n * unitsPerOne ≤ 2 ^ (52 + unit) * 1 := by
    rw [hone, Nat.pow_add, Nat.mul_one]
    exact Nat.mul_le_mul_right _ hn
  obtain ⟨hfinite, hunits⟩ := unitsOf_roundUnits (n * unitsPerOne) Nat.one_pos (by omega) hnum
  have hplace := place_le (n * unitsPerOne) Nat.one_pos hnum
  generalize hdropped : place (n * unitsPerOne) 1 = dropped at hplace hunits
  obtain ⟨rest, hrest⟩ : ∃ rest, unit = rest + dropped := Nat.exists_eq_add_of_le' (by omega)
  have hdigits : n * unitsPerOne = n * 2 ^ rest * 2 ^ dropped := by
    rw [Nat.mul_assoc, ← Nat.pow_add, ← hrest, ← hone]
  have hsignificand : significand (n * unitsPerOne) 1 = n * 2 ^ rest := by
    unfold significand
    rw [hdropped, Nat.one_mul, hdigits]
    exact nearestEven_mul _ (Nat.two_pow_pos dropped)
  have hview : (ofNat n).view = .finite false (n * unitsPerOne) := by
    unfold ofNat ofRatio
    rw [view_ofMagnitude false hfinite, hunits, hsignificand, ← hdigits]
  refine ⟨⟨_, _, hview⟩, ?_⟩
  rw [value_of_view hview, signedUnits_false, Int.cast_natCast, Nat.cast_mul,
    mul_div_cancel_right₀ _ unitsPerOne_cast_pos.ne']

theorem ceilToNat_eq {x : Binary64} (hx : x.IsFinite) :
    x.ceilToNat = min maxWord ⌈x.value⌉₊ := by
  obtain ⟨negative, units, hview⟩ := hx
  have hone := unitsPerOne_pos
  unfold ceilToNat
  rw [hview, value_of_view hview]
  cases negative with
  | true =>
    have hvalue : (signedUnits true units : ℚ) / unitsPerOne ≤ 0 := by
      refine div_nonpos_of_nonpos_of_nonneg ?_ unitsPerOne_cast_pos.le
      simp [signedUnits]
    rw [Nat.ceil_eq_zero.mpr hvalue]
    simp
  | false =>
    have hceil : (units + (unitsPerOne - 1)) / unitsPerOne = ⌈(units : ℚ) / unitsPerOne⌉₊ := by
      refine eq_of_forall_ge_iff fun n => ?_
      rw [Nat.ceil_le, div_le_iff₀ unitsPerOne_cast_pos, ← Nat.lt_succ_iff,
        Nat.div_lt_iff_lt_mul hone, Nat.succ_mul, ← Nat.cast_mul, Nat.cast_le]
      generalize n * unitsPerOne = bound
      omega
    rw [signedUnits_false, Int.cast_natCast, ← hceil]
    simp

end Binary64

end StepSearch
