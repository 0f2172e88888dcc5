import Mathlib.Tactic.Ring
import StepSearch.Proofs.UnitInterval

/-!
# Rounding to binary64

A result is rounded once, to the nearest number. So it never passes a power of two that the exact
result does not pass, and unless the exact result is tiny the error is at most one part in `2 ^ 53`.
Everything is counted in units, in which a power of two from `2 ^ 0` on is a number.
-/

namespace StepSearch

namespace Binary64

/-! ### Whole numbers -/

section NearestEven

variable {num den k : Nat}

theorem nearestEven_bounds (num : Nat) (hden : 0 < den) :
    2 * num ≤ 2 * (nearestEven num den * den) + den ∧
      2 * (nearestEven num den * den) ≤ 2 * num + den := by
  have hdivision : den * (num / den) + num % den = num := Nat.div_add_mod num den
  have hremainder : num % den < den := Nat.mod_lt num hden
  unfold nearestEven
  dsimp only
  generalize num / den = quotient at *
  generalize num % den = remainder at *
  rw [Nat.mul_comm den quotient] at hdivision
  split
  · omega
  · split
    · rw [Nat.add_mul, Nat.one_mul]
      omega
    · rcases Nat.mod_two_eq_zero_or_one quotient with hparity | hparity
      · rw [hparity, Nat.add_zero]
        omega
      · rw [hparity, Nat.add_mul, Nat.one_mul]
        omega

theorem le_nearestEven (hden : 0 < den) (h : k * den ≤ num) : k ≤ nearestEven num den := by
  have hquotient : k ≤ num / den := (Nat.le_div_iff_mul_le hden).mpr h
  unfold nearestEven
  dsimp only
  split
  · exact hquotient
  · split
    · omega
    · omega

theorem nearestEven_le (hden : 0 < den) (h : num ≤ k * den) : nearestEven num den ≤ k := by
  obtain ⟨-, hupper⟩ := nearestEven_bounds num hden
  by_contra hgreater
  have hnext : (k + 1) * den ≤ nearestEven num den * den :=
    Nat.mul_le_mul_right den (Nat.lt_of_not_le hgreater)
  rw [Nat.add_mul, Nat.one_mul] at hnext
  omega

end NearestEven

/-! ### Bits and units -/

/-- A significand of up to 53 digits at a place of the exponent. The exponents 0 and 1 have the same
place, and `2 ^ 53` belongs to the next place, with the same value. -/
theorem unitsOf_place {place significand : Nat} (hle : significand ≤ 2 ^ 53)
    (hnormal : place = 0 ∨ 2 ^ 52 ≤ significand) :
    unitsOf (place * 2 ^ 52 + significand) = significand * 2 ^ place := by
  unfold unitsOf
  simp only [Nat.pow_eq]
  rcases Nat.lt_or_ge significand (2 ^ 52) with hsmall | hlarge
  · obtain rfl : place = 0 := by omega
    have hexponent : (0 * 2 ^ 52 + significand) / 2 ^ 52 = 0 := by omega
    have hfraction : (0 * 2 ^ 52 + significand) % 2 ^ 52 = significand := by omega
    rw [hexponent, hfraction, if_pos rfl, Nat.pow_zero, Nat.mul_one]
  · rcases Nat.lt_or_eq_of_le hle with hless | rfl
    · have hexponent : (place * 2 ^ 52 + significand) / 2 ^ 52 = place + 1 := by omega
      have hfraction : 2 ^ 52 + (place * 2 ^ 52 + significand) % 2 ^ 52 = significand := by omega
      rw [hexponent, hfraction, if_neg (Nat.succ_ne_zero place), Nat.add_sub_cancel]
    · have hexponent : (place * 2 ^ 52 + 2 ^ 53) / 2 ^ 52 = place + 2 := by omega
      have hfraction : (place * 2 ^ 52 + 2 ^ 53) % 2 ^ 52 = 0 := by omega
      rw [hexponent, hfraction, if_neg (Nat.succ_ne_zero _), Nat.add_zero]
      show 2 ^ 52 * 2 ^ (place + 1) = 2 ^ 53 * 2 ^ place
      rw [Nat.pow_succ]
      ring

theorem magnitudeBits_ofMagnitude (negative : Bool) {magnitude : Nat}
    (h : magnitude < infinityBits) : (ofMagnitude negative magnitude).magnitudeBits = magnitude := by
  have hbound : magnitude < 2 ^ 63 := Nat.lt_trans h (by decide)
  unfold magnitudeBits ofMagnitude
  cases negative <;> simp only [Nat.pow_eq, UInt64.toNat_ofNat', if_true, Bool.false_eq_true, if_false] <;>
    omega

theorem isNegative_ofMagnitude (negative : Bool) {magnitude : Nat} (h : magnitude < infinityBits) :
    (ofMagnitude negative magnitude).isNegative = negative := by
  have hbound : magnitude < 2 ^ 63 := Nat.lt_trans h (by decide)
  unfold isNegative ofMagnitude
  cases negative with
  | true =>
    simp only [Nat.pow_eq, UInt64.toNat_ofNat', if_true, decide_eq_true_eq]
    omega
  | false =>
    simp only [Nat.pow_eq, UInt64.toNat_ofNat', Bool.false_eq_true, if_false, decide_eq_false_iff_not]
    omega

theorem view_ofMagnitude (negative : Bool) {magnitude : Nat} (h : magnitude < infinityBits) :
    (ofMagnitude negative magnitude).view = .finite negative (unitsOf magnitude) := by
  unfold view
  rw [magnitudeBits_ofMagnitude negative h, isNegative_ofMagnitude negative h,
    if_neg (Nat.not_lt.mpr (Nat.le_of_lt h)), if_neg (Nat.ne_of_lt h)]

theorem view_infinity (negative : Bool) : (infinity negative).view = .infinite negative := by
  cases negative <;> decide +kernel

theorem isNaN_ofMagnitude (negative : Bool) {magnitude : Nat} (h : magnitude ≤ infinityBits) :
    (ofMagnitude negative magnitude).isNaN = false := by
  unfold isNaN
  rcases Nat.lt_or_eq_of_le h with hfinite | rfl
  · rw [view_ofMagnitude negative hfinite]
    rfl
  · have hview : (ofMagnitude negative infinityBits).view = .infinite negative :=
      view_infinity negative
    rw [hview]
    rfl

theorem magnitudeBits_lt_of_view {x : Binary64} {negative : Bool} {units : Nat}
    (h : x.view = .finite negative units) : x.magnitudeBits < infinityBits := by
  unfold view at h
  split at h
  · cases h
  · split at h
    · cases h
    · omega

theorem view_neg {x : Binary64} {negative : Bool} {units : Nat}
    (h : x.view = .finite negative units) : x.neg.view = .finite (!negative) units := by
  obtain ⟨hsign, hunits⟩ := finite_of_view h
  unfold neg
  rw [view_ofMagnitude _ (magnitudeBits_lt_of_view h), hsign, hunits]

/-! ### Places and significands -/

/-- How many binary digits of the whole units of `num / den` are rounded away. -/
def place (num den : Nat) : Nat :=
  (num / den).log2 - 52

/-- The digits that are left. -/
def significand (num den : Nat) : Nat :=
  nearestEven num (den * 2 ^ place num den)

theorem roundUnits_eq (num den : Nat) : roundUnits num den =
    min infinityBits (place num den * 2 ^ 52 + significand num den) := rfl

theorem pow_add_place (num den rest : Nat) : 2 ^ (rest + place num den) * den =
    2 ^ rest * (den * 2 ^ place num den) := by
  rw [Nat.pow_add, Nat.mul_assoc, Nat.mul_comm (2 ^ place num den) den]

section Rounding

variable (num : Nat) {den : Nat} (hden : 0 < den)
include hden

theorem lt_of_place : num < 2 ^ (53 + place num den) * den := by
  rw [← Nat.div_lt_iff_lt_mul hden]
  refine Nat.lt_of_lt_of_le Nat.lt_log2_self (Nat.pow_le_pow_right (by decide) ?_)
  unfold place
  omega

theorem le_of_place : place num den = 0 ∨ 2 ^ (52 + place num den) * den ≤ num := by
  rcases Nat.eq_zero_or_pos (place num den) with hzero | hpositive
  · exact .inl hzero
  · unfold place at hpositive
    have hne : num / den ≠ 0 := by
      intro hzero
      rw [hzero, Nat.log2_zero] at hpositive
      omega
    have hplace : 52 + place num den = (num / den).log2 := by
      unfold place
      omega
    rw [hplace, ← Nat.le_div_iff_mul_le hden]
    exact .inr (Nat.log2_self_le hne)

theorem scale_pos : 0 < den * 2 ^ place num den :=
  Nat.mul_pos hden (Nat.two_pow_pos _)

theorem significand_le : significand num den ≤ 2 ^ 53 := by
  refine nearestEven_le (scale_pos num hden) ?_
  rw [← pow_add_place]
  exact Nat.le_of_lt (lt_of_place num hden)

theorem le_significand : place num den = 0 ∨ 2 ^ 52 ≤ significand num den := by
  refine (le_of_place num hden).imp_right fun hnum => ?_
  rw [pow_add_place] at hnum
  exact le_nearestEven (scale_pos num hden) hnum

theorem place_le {exponent : Nat} (hnum : num ≤ 2 ^ exponent * den) :
    place num den ≤ exponent - 52 := by
  rcases le_of_place num hden with hzero | hplace
  · omega
  · have hpow : 2 ^ (52 + place num den) ≤ 2 ^ exponent :=
      Nat.le_of_mul_le_mul_right (Nat.le_trans hplace hnum) hden
    have hle := (Nat.pow_le_pow_iff_right (Nat.lt_add_one 1)).mp hpow
    omega

theorem unitsOf_roundUnits_of_lt
    (hfinite : place num den * 2 ^ 52 + significand num den < infinityBits) :
    roundUnits num den < infinityBits ∧
      unitsOf (roundUnits num den) = significand num den * 2 ^ place num den := by
  rw [roundUnits_eq, Nat.min_eq_right (Nat.le_of_lt hfinite)]
  exact ⟨hfinite, unitsOf_place (significand_le num hden) (le_significand num hden)⟩

theorem unitsOf_roundUnits {exponent : Nat} (hexponent : exponent ≤ 2096)
    (hnum : num ≤ 2 ^ exponent * den) :
    roundUnits num den < infinityBits ∧
      unitsOf (roundUnits num den) = significand num den * 2 ^ place num den := by
  have hle := significand_le num hden
  have hplace := place_le num hden hnum
  have hbits : infinityBits = 2047 * 2 ^ 52 := rfl
  exact unitsOf_roundUnits_of_lt num hden (by omega)

end Rounding

/-! ### What rounding does to a result -/

/-- What holds of the units that a result of exactly `num / den` units is rounded to. -/
structure Rounds (num den units : Nat) : Prop where
  le_pow : ∀ exponent, num ≤ 2 ^ exponent * den → units ≤ 2 ^ exponent
  pow_le : ∀ exponent, 2 ^ exponent * den ≤ num → 2 ^ exponent ≤ units
  upper : 2 ^ 52 * den ≤ num → 2 ^ 53 * (units * den) ≤ (2 ^ 53 + 1) * num
  lower : 2 ^ 52 * den ≤ num → (2 ^ 53 - 1) * num ≤ 2 ^ 53 * (units * den)

theorem rounds_significand {num den : Nat} (hden : 0 < den) :
    Rounds num den (significand num den * 2 ^ place num den) := by
  have hscale := scale_pos num hden
  have hplace := le_of_place num hden
  have hnormal := le_significand num hden
  obtain ⟨hbelow, habove⟩ := nearestEven_bounds num hscale
  have hunits : significand num den * 2 ^ place num den * den =
      nearestEven num (den * 2 ^ place num den) * (den * 2 ^ place num den) := by
    unfold significand
    ring
  -- The scale is small beside the result, unless the result is tiny.
  have hsmall : 2 ^ 52 * den ≤ num → 2 ^ 52 * (den * 2 ^ place num den) ≤ num := by
    intro hnum
    rcases hplace with hzero | hplace
    · rw [hzero, Nat.pow_zero, Nat.mul_one]
      exact hnum
    · rw [pow_add_place] at hplace
      exact hplace
  constructor
  case upper =>
    intro hnum
    have hscaled := hsmall hnum
    rw [hunits]
    omega
  case lower =>
    intro hnum
    have hscaled := hsmall hnum
    rw [hunits]
    omega
  case le_pow =>
    intro exponent hnum
    have hle := place_le num hden hnum
    obtain ⟨rest, rfl⟩ : ∃ rest, exponent = rest + place num den :=
      Nat.exists_eq_add_of_le' (by omega)
    rw [pow_add_place] at hnum
    rw [Nat.pow_add]
    exact Nat.mul_le_mul_right _ (nearestEven_le hscale hnum)
  case pow_le =>
    intro exponent hnum
    by_cases hplaces : place num den ≤ exponent
    · obtain ⟨rest, rfl⟩ := Nat.exists_eq_add_of_le' hplaces
      rw [pow_add_place] at hnum
      rw [Nat.pow_add]
      exact Nat.mul_le_mul_right _ (le_nearestEven hscale hnum)
    · have hsignificand : 1 ≤ significand num den := by omega
      calc 2 ^ exponent ≤ 2 ^ place num den := Nat.pow_le_pow_right (by decide) (by omega)
        _ = 1 * 2 ^ place num den := (Nat.one_mul _).symm
        _ ≤ significand num den * 2 ^ place num den := Nat.mul_le_mul_right _ hsignificand

/-- A result below `2 ^ 1023` is rounded to a finite number. -/
theorem view_roundUnits {num den exponent : Nat} (hden : 0 < den) (hexponent : exponent ≤ 2096)
    (hnum : num ≤ 2 ^ exponent * den) (negative : Bool) :
    ∃ units, (ofMagnitude negative (roundUnits num den)).view = .finite negative units ∧
      Rounds num den units := by
  obtain ⟨hfinite, hunits⟩ := unitsOf_roundUnits num hden hexponent hnum
  refine ⟨_, ?_, rounds_significand hden⟩
  rw [view_ofMagnitude negative hfinite, hunits]

/-- A result is rounded to infinity or to a finite number. -/
theorem view_roundUnits_cases (num : Nat) {den : Nat} (hden : 0 < den) (negative : Bool) :
    (ofMagnitude negative (roundUnits num den)).view = .infinite negative ∨
      ∃ units, (ofMagnitude negative (roundUnits num den)).view = .finite negative units ∧
        Rounds num den units := by
  rcases Nat.lt_or_ge (place num den * 2 ^ 52 + significand num den) infinityBits with
    hfinite | hoverflow
  · obtain ⟨hlt, hunits⟩ := unitsOf_roundUnits_of_lt num hden hfinite
    refine .inr ⟨_, ?_, rounds_significand hden⟩
    rw [view_ofMagnitude negative hlt, hunits]
  · rw [roundUnits_eq, Nat.min_eq_left hoverflow]
    exact .inl (view_infinity negative)

/-! ### Operations -/

/-- The exponent of one in units, under a name, so that no power of this size is ever computed. -/
theorem unitsPerOne_eq_pow : ∃ unit, unit = 1074 ∧ unitsPerOne = 2 ^ unit := by
  obtain ⟨unit, hunit⟩ : ∃ unit, unit = 52 + 1022 := ⟨_, rfl⟩
  refine ⟨unit, hunit, ?_⟩
  rw [unitsPerOne_eq, ← hunit]
  rfl

theorem unitsPerOne_pos : 0 < unitsPerOne :=
  Nat.lt_of_le_of_lt (Nat.zero_le _) pow_lt_unitsPerOne

theorem Rounds.unitsPerOne_le {n units : Nat} (h : Rounds (n * unitsPerOne) 1 units) (hn : 1 ≤ n) :
    unitsPerOne ≤ units := by
  obtain ⟨unit, -, hone⟩ := unitsPerOne_eq_pow
  rw [hone] at h ⊢
  refine h.pow_le unit ?_
  rw [Nat.mul_one]
  exact Nat.le_mul_of_pos_left _ hn

theorem view_ofNat_cases {n : Nat} (hn : 1 ≤ n) : (ofNat n).view = .infinite false ∨
    ∃ units, (ofNat n).view = .finite false units ∧ unitsPerOne ≤ units := by
  have hcases := view_roundUnits_cases (n * unitsPerOne) Nat.one_pos false
  exact hcases.imp_right fun ⟨units, hview, hrounds⟩ =>
    ⟨units, hview, hrounds.unitsPerOne_le hn⟩

theorem view_ofNat {n exponent : Nat} (hexponent : exponent ≤ 1022) (hn : n ≤ 2 ^ exponent) :
    ∃ units, (ofNat n).view = .finite false units ∧ Rounds (n * unitsPerOne) 1 units := by
  obtain ⟨unit, hunit, hone⟩ := unitsPerOne_eq_pow
  have hnum : n * unitsPerOne ≤ 2 ^ (exponent + unit) * 1 := by
    rw [hone, Nat.mul_one, Nat.pow_add]
    exact Nat.mul_le_mul_right _ hn
  exact view_roundUnits Nat.one_pos (by omega) hnum false

theorem isNaN_add {x y : Binary64} {s t : Bool} {m n : Nat} (hx : x.view = .finite s m)
    (hy : y.view = .finite t n) : (x.add y).isNaN = false := by
  unfold add
  rw [hx, hy]
  dsimp only
  split
  · exact isNaN_ofMagnitude _ (Nat.zero_le _)
  · exact isNaN_ofMagnitude _ (Nat.min_le_left _ _)

theorem div_infinite {x y : Binary64} {s t : Bool} {m : Nat} (hx : x.view = .finite s m)
    (hy : y.view = .infinite t) : x.div y = signedZero (s != t) := by
  unfold div
  rw [hx, hy]

section Operations

variable {x y : Binary64} {m n exponent : Nat} (hx : x.view = .finite false m)
  (hy : y.view = .finite false n)
include hx hy

theorem view_mul (hexponent : exponent ≤ 2096) (h : m * n ≤ 2 ^ exponent * unitsPerOne) :
    ∃ units, (x.mul y).view = .finite false units ∧ Rounds (m * n) unitsPerOne units := by
  unfold mul
  rw [hx, hy]
  exact view_roundUnits unitsPerOne_pos hexponent h false

theorem view_div (hexponent : exponent ≤ 2096) (hn : 0 < n)
    (h : m * unitsPerOne ≤ 2 ^ exponent * n) :
    ∃ units, (x.div y).view = .finite false units ∧ Rounds (m * unitsPerOne) n units := by
  unfold div
  rw [hx, hy]
  simp only [if_neg (Nat.ne_of_gt hn)]
  exact view_roundUnits hn hexponent h false

theorem view_sub_of_lt (hexponent : exponent ≤ 2096) (hlt : n < m) (hm : m ≤ 2 ^ exponent) :
    ∃ units, (x.sub y).view = .finite false units ∧ Rounds (m - n) 1 units := by
  have hsum : signedUnits false m + signedUnits true n = ((m - n : Nat) : Int) := by
    show (m : Int) + -(n : Int) = _
    omega
  have hne : ((m - n : Nat) : Int) ≠ 0 := by omega
  have hsign : decide (((m - n : Nat) : Int) < 0) = false := by simp
  unfold sub add
  rw [hx, view_neg hy]
  simp only [Bool.not_false, hsum, if_neg hne, hsign, Int.natAbs_natCast]
  refine view_roundUnits Nat.one_pos hexponent ?_ false
  rw [Nat.mul_one]
  exact Nat.le_trans (Nat.sub_le m n) hm

end Operations

end Binary64

end StepSearch
