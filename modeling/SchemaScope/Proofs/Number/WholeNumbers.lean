/-
**Whole numbers among the doubles.**

A whole number below `2 ^ 53` needs no rounding: its mantissa has room for all its bits, and so the
double nearest to it is the number itself.  Whether a double has a fraction can be told from its
magnitude, and a whole number of at most 64 bits is read off a double as it is.

Main results:

* `Binary64.wholeMagnitude?_eq_some_iff` — **a double without a fraction has a whole magnitude**;
* `Binary64.magnitude_ofRatio_one` — a whole number below `2 ^ 53` is not rounded;
* `Binary64.integer?_ofInt`, `Binary64.integer?_ofDecimal` — **such a number is read off the double
  that it was made into**.
-/

import SchemaScope.Proofs.Number.Rounding

set_option autoImplicit false

namespace SchemaScope.Binary64

/-! ### Magnitudes without a fraction -/

/-- **A double without a fraction has a whole magnitude.** -/
theorem wholeMagnitude?_eq_some_iff {m n : Nat} {e : Int} :
    wholeMagnitude? m e = some n ↔ (m : ℚ) * 2 ^ e = n := by
  have hpos : 0 < (ratio m e).2 := ratio_pos m e
  have hd : ((ratio m e).2 : ℚ) ≠ 0 := by exact_mod_cast hpos.ne'
  have hcast : (m : ℚ) * 2 ^ e = n ↔ (ratio m e).1 = n * (ratio m e).2 := by
    rw [← ratio_div, div_eq_iff hd]
    exact_mod_cast Iff.rfl
  rw [hcast, wholeMagnitude?]
  simp only [beq_iff_eq, Option.ite_none_right_eq_some, Option.some.injEq]
  constructor
  · rintro ⟨hrest, rfl⟩
    exact (Nat.div_mul_cancel (Nat.dvd_of_mod_eq_zero hrest)).symm
  · intro h
    rw [h]
    exact ⟨Nat.mul_mod_left _ _, Nat.mul_div_cancel _ hpos⟩

theorem clamp_of_natCast_lt {n : Nat} (h : n < 2 ^ 63) : clamp (n : Int) = n := by
  have hmax : maxInteger = 2 ^ 63 - 1 := rfl
  have hmin : minInteger = -2 ^ 63 := rfl
  unfold clamp
  omega

/-- The whole number that a double without a sign stands for, if it has at most 63 bits. -/
theorem integer?_of_magnitude {x : Binary64} {n : Nat} (hx : x.InRange)
    (hsign : x.isNegative = false) (hmagnitude : x.magnitude = n) (hn : n < 2 ^ 63) :
    x.integer? = some (n : Int) := by
  cases x with
  | infinite _ => exact absurd hx id
  | finite negative m e =>
      obtain rfl : negative = false := hsign
      rw [integer?, wholeMagnitude?_eq_some_iff.2 hmagnitude]
      exact congrArg some (clamp_of_natCast_lt hn)

/-! ### Whole numbers that are not rounded -/

theorem roundDiv_one (n : Nat) : roundDiv n 1 = n := by
  unfold roundDiv
  simp [Nat.mod_one]

theorem isNegative_pack (negative : Bool) (m : Nat) (e : Int) :
    (pack negative m e).isNegative = negative := by
  unfold pack
  split
  split <;> rfl

theorem isNegative_ofRatio (negative : Bool) (num den : Nat) :
    (ofRatio negative num den).isNegative = negative := by
  unfold ofRatio
  split
  · rfl
  · exact isNegative_pack _ _ _

/-- The unit of a whole number below `2 ^ 53` is at most one. -/
theorem exponentFor_one_nonpos {n : Nat} (hn : n ≠ 0) (h : n < 2 ^ 53) : exponentFor n 1 ≤ 0 := by
  obtain ⟨-, -, hlow⟩ := exponentFor_spec hn one_ne_zero
  have hleast : leastExponent < 0 := by decide
  rcases hlow with hlow | hlow
  · omega
  · have hlt : (n : ℚ) / (1 : Nat) < 2 ^ (53 : ℤ) := by
      rw [Nat.cast_one, div_one]
      exact_mod_cast h
    have hpow := (zpow_lt_zpow_iff_right₀ (by norm_num : (1 : ℚ) < 2)).1 (hlow.trans_lt hlt)
    omega

/-- A whole number below `2 ^ 53` is not rounded. -/
theorem magnitude_ofRatio_one (negative : Bool) {n : Nat} (h : n < 2 ^ 53) :
    (ofRatio negative n 1).InRange ∧ (ofRatio negative n 1).magnitude = n := by
  by_cases hn : n = 0
  · simp [ofRatio, hn, InRange, magnitude, leastExponent, greatestExponent]
  · obtain ⟨hle, -, -⟩ := exponentFor_spec hn one_ne_zero
    obtain ⟨hm, -⟩ := roundDiv_scaled hn one_ne_zero
    have hnonpos := exponentFor_one_nonpos hn h
    have hgreatest : (0 : Int) < greatestExponent := by decide
    obtain ⟨hrange, hmagnitude⟩ := pack_spec negative hm hle (.inl (by omega))
    rw [ofRatio_eq_pack negative hn one_ne_zero]
    refine ⟨hrange, hmagnitude.trans ?_⟩
    -- the unit is a fraction of one, so scaling multiplies, and nothing is left to round
    obtain ⟨k, hk⟩ : ∃ k : ℕ, exponentFor n 1 = -k := ⟨(-exponentFor n 1).toNat, by omega⟩
    have hscaled : scaled n 1 (exponentFor n 1) = (n * 2 ^ k, 1) := by
      rw [hk, scaled]
      split
      · next hzero =>
        obtain rfl : k = 0 := by omega
        simp
      · rw [Int.neg_neg, Int.toNat_natCast, twoTo_eq]
    rw [hscaled, roundDiv_one, hk]
    push_cast
    rw [zpow_neg, zpow_natCast, mul_assoc, mul_inv_cancel₀ (by positivity), mul_one]

theorem integer?_ofRatio_one {n : Nat} (h : n < 2 ^ 53) :
    (ofRatio false n 1).integer? = some (n : Int) := by
  obtain ⟨hrange, hmagnitude⟩ := magnitude_ofRatio_one false h
  exact integer?_of_magnitude hrange (isNegative_ofRatio _ _ _) hmagnitude (by omega)

/-- **A whole number below `2 ^ 53` is read off the double nearest to it.** -/
theorem integer?_ofInt {n : Nat} (h : n < 2 ^ 53) : (ofInt n).integer? = some (n : Int) := by
  have hsign : decide ((n : Int) < 0) = false := by simp
  rw [ofInt, hsign, Int.natAbs_natCast, integer?_ofRatio_one h]

/-- A number below `2 ^ 53` has few digits. -/
theorem length_toDigits_le {n : Nat} (h : n < 2 ^ 53) : (Nat.toDigits 10 n).length ≤ 16 := by
  rw [Nat.length_toDigits_le_iff (by norm_num) (by norm_num)]
  exact h.trans (by norm_num)

/-- **A whole number below `2 ^ 53` is read off the double nearest to its digits.** -/
theorem integer?_ofDecimal {n : Nat} (h : n < 2 ^ 53) :
    (ofDecimal false n 0).integer? = some (n : Int) := by
  by_cases hn : n = 0
  · subst hn
    have hzero : ofDecimal false 0 0 = ofRatio false 0 1 := rfl
    rw [hzero, integer?_ofRatio_one h]
  · have hlength := length_toDigits_le h
    have hlow : ¬ ((n == 0 || ((Nat.toDigits 10 n).length : Int) + 0 < -330) = true) := by
      simp only [hn, beq_iff_eq, Bool.or_eq_true, decide_eq_true_eq, false_or]
      omega
    unfold ofDecimal
    rw [if_neg hlow, if_neg (by omega), if_pos le_rfl, Int.toNat_zero, tenTo_zero, mul_one,
      integer?_ofRatio_one h]

end SchemaScope.Binary64
