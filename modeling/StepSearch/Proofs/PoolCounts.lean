import StepSearch.Pool
import StepSearch.Proofs.Rounding

/-!
# Counting one survivor

A pool is given as a fraction, and counting it takes a product, a tolerance and a rounding up. For the
fraction that one individual is, the quotient and the product are rounded, so the product need not be
one. What is left of it after the tolerance is above zero and at most one.
-/

namespace StepSearch

namespace Binary64

variable {x : Binary64} {units : Nat} (hx : x.view = .finite false units)
include hx

theorem not_le_zero (hpositive : 0 < units) : (x.isNaN || x.le zero) = false := by
  have hnumber : x.isNaN = false := by
    unfold isNaN
    rw [hx]
    rfl
  have hless : x.le zero = false := by
    unfold le
    rw [hx, view_zero]
    simp only [signedUnits, Bool.false_eq_true, if_false, decide_eq_false_iff_not]
    omega
  rw [hnumber, hless, Bool.or_false]

theorem ceilToNat_eq_one (hpositive : 0 < units) (hle : units ≤ unitsPerOne) :
    x.ceilToNat = 1 := by
  have hceiling : (units + (unitsPerOne - 1)) / unitsPerOne = 1 := by
    generalize unitsPerOne = one at hle
    exact Nat.div_eq_of_lt_le (by omega) (by omega)
  unfold ceilToNat
  rw [hx]
  simp only [hceiling, Bool.false_eq_true, if_false]
  decide

end Binary64

namespace Pool

open Binary64

/-- The tolerance lies between `2 ^ -30` and `2 ^ -29`. -/
theorem view_tolerance : ∃ units, tolerance.view = .finite false units ∧
    2 ^ 29 * units ≤ unitsPerOne ∧ unitsPerOne ≤ 2 ^ 30 * units := by
  obtain ⟨unit, hunit, hone⟩ := unitsPerOne_eq_pow
  obtain ⟨rest, hrest⟩ : ∃ rest, unit = rest + 30 := ⟨unit - 30, by omega⟩
  rw [hrest, Nat.pow_add] at hone
  have hupper : 1 * unitsPerOne ≤ 2 ^ (rest + 1) * Nat.pow 10 9 := by
    rw [hone, Nat.pow_succ]
    simp only [Nat.pow_eq]
    omega
  have hlower : 2 ^ rest * Nat.pow 10 9 ≤ 1 * unitsPerOne := by
    rw [hone]
    simp only [Nat.pow_eq]
    omega
  obtain ⟨units, hview, hrounds⟩ := view_roundUnits (by decide) (by omega) hupper false
  have hle := hrounds.le_pow (rest + 1) hupper
  have hge := hrounds.pow_le rest hlower
  rw [Nat.pow_succ] at hle
  exact ⟨units, hview, by omega, by omega⟩

section DefaultElite

variable {n : Nat} (hn : 1 ≤ n) (hword : n < 2 ^ 64)
include hn hword

theorem view_size : ∃ size, (ofNat n).view = .finite false size ∧
    unitsPerOne ≤ size ∧ size ≤ 2 ^ 64 * unitsPerOne := by
  obtain ⟨unit, -, hone⟩ := unitsPerOne_eq_pow
  have hsize : n ≤ 2 ^ 64 := Nat.le_of_lt hword
  obtain ⟨size, hview, hrounds⟩ := view_ofNat (by omega) hsize
  refine ⟨size, hview, hrounds.unitsPerOne_le hn, ?_⟩
  rw [hone, ← Nat.pow_add] at *
  refine hrounds.le_pow (64 + unit) ?_
  rw [Nat.mul_one, Nat.pow_add]
  exact Nat.mul_le_mul_right _ hsize

/-- The product of the rounded size and its rounded inverse is within one part in `2 ^ 53` of one. -/
theorem view_defaultElite : ∃ size share, (ofNat n).view = .finite false size ∧
    (defaultElite n).view = .finite false share ∧
    2 ^ 53 * (share * size) ≤ (2 ^ 53 + 1) * (unitsPerOne * unitsPerOne) ∧
    (2 ^ 53 - 1) * (unitsPerOne * unitsPerOne) ≤ 2 ^ 53 * (share * size) := by
  obtain ⟨unit, hunit, hone⟩ := unitsPerOne_eq_pow
  obtain ⟨size, hsize, hge, hle⟩ := view_size hn hword
  have hquotient : unitsPerOne * unitsPerOne ≤ 2 ^ unit * size := by
    rw [← hone]
    exact Nat.mul_le_mul_left _ hge
  obtain ⟨share, hshare, hrounds⟩ := view_div view_one hsize (by omega)
    (Nat.lt_of_lt_of_le unitsPerOne_pos hge) hquotient
  -- The inverse is far from the numbers below the least exponent.
  have hnormal : 2 ^ 52 * size ≤ unitsPerOne * unitsPerOne := by
    have hscale : 2 ^ 116 ≤ unitsPerOne := by
      rw [hone]
      exact Nat.pow_le_pow_right (by decide) (by omega)
    calc 2 ^ 52 * size ≤ 2 ^ 52 * (2 ^ 64 * unitsPerOne) := Nat.mul_le_mul_left _ hle
      _ = 2 ^ 116 * unitsPerOne := by rw [← Nat.mul_assoc, ← Nat.pow_add]
      _ ≤ unitsPerOne * unitsPerOne := Nat.mul_le_mul_right _ hscale
  exact ⟨size, share, hsize, hshare, hrounds.upper hnormal, hrounds.lower hnormal⟩

theorem view_product : ∃ product,
    ((defaultElite n).mul (ofNat n)).view = .finite false product ∧
    unitsPerOne ≤ 2 * product ∧ 2 ^ 51 * product ≤ (2 ^ 51 + 1) * unitsPerOne := by
  obtain ⟨unit, hunit, hone⟩ := unitsPerOne_eq_pow
  obtain ⟨rest, hrest⟩ : ∃ rest, unit = rest + 1 := ⟨unit - 1, by omega⟩
  obtain ⟨size, share, hsize, hshare, hupper, hlower⟩ := view_defaultElite hn hword
  have hhalf : unitsPerOne = 2 ^ rest * 2 := by rw [hone, hrest, Nat.pow_succ]
  have hsquare : unitsPerOne * unitsPerOne = 2 * (2 ^ rest * unitsPerOne) := by
    calc unitsPerOne * unitsPerOne = 2 ^ rest * 2 * unitsPerOne := by rw [← hhalf]
      _ = 2 * (2 ^ rest * unitsPerOne) := by rw [Nat.mul_comm (2 ^ rest) 2, Nat.mul_assoc]
  have hdouble : share * size ≤ 2 ^ (unit + 1) * unitsPerOne := by
    rw [Nat.pow_succ, ← hone, Nat.mul_right_comm]
    omega
  obtain ⟨product, hproduct, hrounds⟩ := view_mul hshare hsize (by omega) hdouble
  refine ⟨product, hproduct, ?_, ?_⟩
  · have hge := hrounds.pow_le rest (by omega)
    omega
  · have hnormal : 2 ^ 52 * unitsPerOne ≤ share * size := by
      have hscale : 2 ^ 52 ≤ 2 ^ rest := Nat.pow_le_pow_right (by decide) (by omega)
      have hproduct := Nat.mul_le_mul_right unitsPerOne hscale
      omega
    have hrounded := hrounds.upper hnormal
    refine Nat.le_of_mul_le_mul_right ?_ unitsPerOne_pos
    rw [Nat.mul_assoc, Nat.mul_assoc]
    omega

/-- Of `n` individuals the default fraction counts one. -/
theorem count_defaultElite : count (defaultElite n) n = 1 := by
  obtain ⟨unit, hunit, hone⟩ := unitsPerOne_eq_pow
  obtain ⟨rest, hrest⟩ : ∃ rest, unit = rest + 2 := ⟨unit - 2, by omega⟩
  obtain ⟨size, share, hsize, hshare, -, hlower⟩ := view_defaultElite hn hword
  obtain ⟨product, hproduct, hge, hle⟩ := view_product hn hword
  obtain ⟨slack, htolerance, hsmall, hlarge⟩ := view_tolerance
  have hpositive := unitsPerOne_pos
  have hbound : product ≤ 2 ^ (unit + 1) := by
    rw [Nat.pow_succ, ← hone]
    omega
  obtain ⟨left, hleft, hrounds⟩ := view_sub_of_lt hproduct htolerance (by omega) (by omega) hbound
  have hshare_positive : 0 < share := by
    rcases Nat.eq_zero_or_pos share with rfl | hshare
    · have hsquare := Nat.mul_pos hpositive hpositive
      rw [Nat.zero_mul] at hlower
      omega
    · exact hshare
  have hleft_le : left ≤ unitsPerOne := by
    rw [hone] at hle hlarge ⊢
    exact hrounds.le_pow unit (by omega)
  have hleft_positive : 0 < left := by
    refine Nat.lt_of_lt_of_le (Nat.two_pow_pos rest) (hrounds.pow_le rest ?_)
    rw [hrest, Nat.pow_add] at hone
    omega
  unfold count
  rw [not_le_zero hshare hshare_positive, ceilToNat_eq_one hleft hleft_positive hleft_le]
  exact Nat.min_eq_left hn

end DefaultElite

end Pool

end StepSearch
