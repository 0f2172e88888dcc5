import StepSearch.Number.Binary64

/-!
# Numbers between zero and one

A chance that lies between zero and one can always be drawn: it is one, which needs no word, or there
is a threshold for a word. Nothing lies between, because one has a single representation.
-/

namespace StepSearch

namespace Binary64

/-! ### The representation of one -/

theorem view_one : one.view = .finite false unitsPerOne := by decide +kernel

theorem view_zero : zero.view = .finite false 0 := by decide +kernel

theorem unitsPerOne_eq : unitsPerOne = Nat.pow 2 (52 + 1022) := by decide +kernel

theorem pow_lt_unitsPerOne : Nat.pow 2 52 < unitsPerOne := by decide +kernel

theorem one_bits : one.bits.toNat = 1023 * Nat.pow 2 52 := by decide +kernel

/-- A power of two has one normalised form only. -/
theorem normalised_power {k n fraction : Nat} (hfraction : fraction < Nat.pow 2 52)
    (h : (Nat.pow 2 52 + fraction) * Nat.pow 2 k = Nat.pow 2 (52 + n)) :
    k = n ∧ fraction = 0 := by
  simp only [Nat.pow_eq] at hfraction h
  have hle : 2 ^ (52 + k) ≤ 2 ^ (52 + n) := by
    rw [← h, Nat.pow_add]
    exact Nat.mul_le_mul_right _ (Nat.le_add_right _ _)
  have hlt : 2 ^ (52 + n) < 2 ^ (53 + k) := by
    rw [← h, Nat.pow_add 2 53 k]
    exact Nat.mul_lt_mul_of_pos_right (by omega) (Nat.two_pow_pos k)
  have hle' := (Nat.pow_le_pow_iff_right (Nat.lt_add_one 1)).mp hle
  have hlt' := (Nat.pow_lt_pow_iff_right (Nat.lt_add_one 1)).mp hlt
  obtain rfl : k = n := by omega
  rw [Nat.pow_add] at h
  have hsum := Nat.eq_of_mul_eq_mul_right (Nat.two_pow_pos k) h
  exact ⟨rfl, by omega⟩

/-- The number with the units of one has the bits of one. -/
theorem magnitude_of_unitsPerOne {magnitude : Nat} (h : unitsOf magnitude = unitsPerOne) :
    magnitude = 1023 * Nat.pow 2 52 := by
  have hfraction : magnitude % Nat.pow 2 52 < Nat.pow 2 52 := Nat.mod_lt _ (by decide)
  have hdivision := Nat.div_add_mod magnitude (Nat.pow 2 52)
  unfold unitsOf at h
  dsimp only at h
  split at h
  · -- Numbers of the least exponent are smaller than one.
    rw [h] at hfraction
    exact absurd hfraction (Nat.lt_asymm pow_lt_unitsPerOne)
  · rw [unitsPerOne_eq] at h
    obtain ⟨hexponent, hzero⟩ := normalised_power hfraction h
    have hexponent' : magnitude / Nat.pow 2 52 = 1023 := by omega
    rw [hexponent', hzero] at hdivision
    rw [← hdivision]

theorem finite_of_view {x : Binary64} {negative : Bool} {units : Nat}
    (h : x.view = .finite negative units) :
    x.isNegative = negative ∧ unitsOf x.magnitudeBits = units := by
  unfold view at h
  split at h
  · cases h
  · split at h
    · cases h
    · cases h
      exact ⟨rfl, rfl⟩

/-- No other number has the value of one. -/
theorem eq_one_of_view {x : Binary64} (h : x.view = .finite false unitsPerOne) : x = one := by
  obtain ⟨hsign, hunits⟩ := finite_of_view h
  have hbits : x.bits.toNat = one.bits.toNat := by
    have hmagnitude := magnitude_of_unitsPerOne hunits
    have hpositive : x.bits.toNat < Nat.pow 2 63 := by
      simpa [isNegative] using hsign
    rw [one_bits, ← hmagnitude, magnitudeBits, Nat.mod_eq_of_lt hpositive]
  cases x with
  | mk bits => exact congrArg mk (UInt64.toNat.inj hbits)

/-! ### Between zero and one -/

theorem signedUnits_false (units : Nat) : signedUnits false units = units := rfl

/-- Whether `x` is a number that is neither below zero nor above one. -/
def InUnit (x : Binary64) : Prop :=
  ∃ negative units, x.view = .finite negative units ∧ 0 ≤ signedUnits negative units ∧
    signedUnits negative units ≤ unitsPerOne

theorem isUnit_iff {x : Binary64} : x.isUnit = true ↔ x.InUnit := by
  unfold isUnit InUnit le
  rw [view_zero, view_one]
  generalize unitsPerOne = scale
  cases x.view with
  | nan => simp
  | infinite negative => cases negative <;> simp
  | finite negative units =>
    simp only [Bool.and_eq_true, decide_eq_true_eq]
    rw [signedUnits_false, signedUnits_false, Int.natCast_zero]
    constructor
    · exact fun h => ⟨negative, units, rfl, h⟩
    · rintro ⟨_, _, hview, h⟩
      cases hview
      exact h

instance (x : Binary64) : Decidable x.InUnit :=
  decidable_of_iff _ isUnit_iff

theorem InUnit.isNaN_eq_false {x : Binary64} (h : x.InUnit) : x.isNaN = false := by
  obtain ⟨negative, units, hview, -⟩ := h
  unfold isNaN
  rw [hview]
  rfl

/-- A number between zero and one is one, or there is a threshold for the chance that it is. -/
theorem isUnit_cases {x : Binary64} (h : x.isUnit = true) :
    x = one ∨ ∃ threshold, x.fraction64? = some threshold := by
  obtain ⟨negative, units, hview, hzero, hone⟩ := isUnit_iff.mp h
  unfold fraction64?
  rw [hview]
  by_cases hnone : units = 0
  · exact .inr ⟨0, by simp only [if_pos hnone]⟩
  · -- Only zero has a sign here.
    have hpositive : negative = false := by
      cases negative with
      | false => rfl
      | true =>
        simp only [signedUnits, if_true] at hzero
        omega
    subst hpositive
    simp only [signedUnits, Bool.false_eq_true, if_false, Int.ofNat_le] at hone
    rcases Nat.lt_or_eq_of_le hone with hless | hequal
    · generalize unitsPerOne = scale at hless ⊢
      exact .inr ⟨units * Nat.pow 2 64 / scale, by simp [hnone, hless]⟩
    · rw [hequal] at hview
      exact .inl (eq_one_of_view hview)

/-! ### Comparison -/

theorem le_total {x y : Binary64} (hx : x.isNaN = false) (hy : y.isNaN = false) :
    x.le y = true ∨ y.le x = true := by
  unfold isNaN at hx hy
  unfold le
  cases hxview : x.view with
  | nan => simp [hxview] at hx
  | infinite s =>
    cases hyview : y.view with
    | nan => simp [hyview] at hy
    | infinite t => cases s <;> cases t <;> simp
    | finite t n => cases s <;> simp
  | finite s m =>
    cases hyview : y.view with
    | nan => simp [hyview] at hy
    | infinite t => cases t <;> simp
    | finite t n =>
      simp only [decide_eq_true_eq]
      exact Int.le_total _ _

theorem lt_eq_false_iff {x y : Binary64} (hx : x.isNaN = false) (hy : y.isNaN = false) :
    x.lt y = false ↔ y.le x = true := by
  unfold lt
  rcases le_total hx hy with h | h
  · rw [h, Bool.true_and, Bool.not_eq_false']
  · rw [h]
    simp

end Binary64

end StepSearch
