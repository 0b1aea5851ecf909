/-
**How far rounding to a double goes.**

A quotient is rounded to the nearest double.  The doubles are compared here with rational numbers:
rounding a quotient below the greatest one that can be rounded gives a finite double, whose mantissa
and exponent lie in their ranges, and changes the quotient by at most half a unit of the last bit.

Main definitions:

* `Binary64.magnitude` — the absolute value of a double;
* `Binary64.InRange` — the mantissa and exponent of a double lie in their ranges;
* `Binary64.overflowAt` — the least quotient that is rounded to an infinity.

Main results:

* `Binary64.exponentFor_spec` — the chosen exponent gives a mantissa of 53 bits;
* `Binary64.finite_ofRatio` — **a quotient below the bound is rounded to a double in range**,
  and a quotient that is at least one grows by at most one part in `2 ^ 53`;
* `Binary64.inRange_ofRatio` — rounding gives a double in range or an infinity.
-/

import Mathlib
import SchemaScope.Number.Binary64

set_option autoImplicit false

namespace SchemaScope

theorem twoTo_eq (n : Nat) : twoTo n = 2 ^ n := rfl

theorem tenTo_eq (n : Nat) : tenTo n = 10 ^ n := rfl

namespace Binary64

/-! ### Doubles as rational numbers -/

/-- The absolute value of a double; an infinity counts as zero. -/
def magnitude : Binary64 → ℚ
  | .finite _ m e => m * 2 ^ e
  | .infinite _ => 0

/-- The mantissa has at most 53 bits and the exponent lies between its bounds. -/
def InRange : Binary64 → Prop
  | .finite _ m e => m < 2 ^ 53 ∧ leastExponent ≤ e ∧ e ≤ greatestExponent
  | .infinite _ => False

/-- The least quotient that is rounded to an infinity: half a unit above the greatest double. -/
def overflowAt : ℚ := (2 ^ 53 - 1 / 2) * 2 ^ greatestExponent

@[simp] theorem inRange_neg (x : Binary64) : x.neg.InRange ↔ x.InRange := by
  cases x <;> exact Iff.rfl

theorem magnitude_nonneg (x : Binary64) : 0 ≤ x.magnitude := by
  cases x with
  | finite _ m e => exact mul_nonneg (by positivity) (by positivity)
  | infinite _ => exact le_rfl

theorem InRange.isInfinite_eq {x : Binary64} (h : x.InRange) : x.isInfinite = false := by
  cases x with
  | finite _ _ _ => rfl
  | infinite _ => exact absurd h id

/-- A mantissa and an exponent as a quotient have the value of the double. -/
theorem ratio_div (m : Nat) (e : Int) : ((ratio m e).1 : ℚ) / (ratio m e).2 = m * 2 ^ e := by
  unfold ratio
  split
  · next h =>
    lift e to ℕ using h
    simp [twoTo_eq]
  · next h =>
    obtain ⟨k, rfl⟩ : ∃ k : ℕ, e = -k := ⟨(-e).toNat, by omega⟩
    simp [twoTo_eq, zpow_neg, div_eq_mul_inv]

theorem ratio_pos (m : Nat) (e : Int) : 0 < (ratio m e).2 := by
  unfold ratio
  split
  · exact one_pos
  · exact twoTo_pos _

/-! ### Scaling and rounding -/

theorem scaled_pos (num : Nat) {den : Nat} (h : 0 < den) (e : Int) : 0 < (scaled num den e).2 := by
  unfold scaled
  split
  · exact Nat.mul_pos h (twoTo_pos _)
  · exact h

/-- Scaling divides by a power of two. -/
theorem scaled_div (num den : Nat) (e : Int) :
    ((scaled num den e).1 : ℚ) / (scaled num den e).2 = num / den / 2 ^ e := by
  unfold scaled
  split
  · next h =>
    lift e to ℕ using h
    simp [twoTo_eq, div_div]
  · next h =>
    obtain ⟨k, rfl⟩ : ∃ k : ℕ, e = -k := ⟨(-e).toNat, by omega⟩
    simp [twoTo_eq, zpow_neg]
    ring

/-- Rounding a quotient raises it by at most a half. -/
theorem roundDiv_le (num : Nat) {den : Nat} (h : 0 < den) :
    (roundDiv num den : ℚ) ≤ num / den + 1 / 2 := by
  have hn := Nat.div_add_mod num den
  have hr := Nat.mod_lt num h
  have hle : 2 * (roundDiv num den * den) ≤ 2 * num + den := by
    unfold roundDiv
    dsimp only
    split
    · -- rounded up, because the remainder is at least half of the denominator
      next hc =>
      simp only [Bool.or_eq_true, decide_eq_true_eq, Bool.and_eq_true, beq_iff_eq] at hc
      rw [Nat.add_mul, one_mul, mul_comm (num / den)]
      omega
    · rw [mul_comm (num / den)]
      omega
  have hd : (0 : ℚ) < den := by exact_mod_cast h
  have hq : 2 * ((roundDiv num den : ℚ) * den) ≤ 2 * num + den := by exact_mod_cast hle
  have : (num : ℚ) / den + 1 / 2 = (2 * num + den) / (2 * den) := by field_simp
  rw [this, le_div_iff₀ (by positivity)]
  linarith

/-- Rounding a quotient below a whole number does not pass that number. -/
theorem roundDiv_le_of_lt {num den k : Nat} (h : num < k * den) : roundDiv num den ≤ k := by
  have : num / den < k := Nat.div_lt_of_lt_mul (by rwa [mul_comm])
  unfold roundDiv
  dsimp only
  split <;> omega

/-! ### The exponent -/

/-- The quotient lies between the powers of two of the bit lengths. -/
theorem log2_bounds {num den : Nat} (hn : num ≠ 0) (hd : den ≠ 0) :
    (2 : ℚ) ^ ((num.log2 : ℤ) - den.log2 - 1) < num / den ∧
      (num : ℚ) / den < 2 ^ ((num.log2 : ℤ) - den.log2 + 1) := by
  have hd0 : (0 : ℚ) < den := by exact_mod_cast Nat.pos_of_ne_zero hd
  have hn₁ : (2 : ℚ) ^ num.log2 ≤ num := by exact_mod_cast Nat.log2_self_le hn
  have hn₂ : (num : ℚ) < 2 ^ (num.log2 + 1) := by exact_mod_cast Nat.lt_log2_self
  have hd₁ : (2 : ℚ) ^ den.log2 ≤ den := by exact_mod_cast Nat.log2_self_le hd
  have hd₂ : (den : ℚ) < 2 ^ (den.log2 + 1) := by exact_mod_cast Nat.lt_log2_self
  constructor
  · rw [lt_div_iff₀ hd0]
    calc (2 : ℚ) ^ ((num.log2 : ℤ) - den.log2 - 1) * den
        < 2 ^ ((num.log2 : ℤ) - den.log2 - 1) * 2 ^ (den.log2 + 1) := by gcongr
      _ = 2 ^ num.log2 := by
          rw [← zpow_natCast, ← zpow_natCast, ← zpow_add₀ (by norm_num)]
          congr 1
          push_cast
          ring
      _ ≤ num := hn₁
  · rw [div_lt_iff₀ hd0]
    calc (num : ℚ) < 2 ^ (num.log2 + 1) := hn₂
      _ = 2 ^ ((num.log2 : ℤ) - den.log2 + 1) * 2 ^ den.log2 := by
          rw [← zpow_natCast, ← zpow_natCast, ← zpow_add₀ (by norm_num)]
          congr 1
          push_cast
          ring
      _ ≤ 2 ^ ((num.log2 : ℤ) - den.log2 + 1) * den := by gcongr

theorem le_scaled_iff (num : Nat) {den : Nat} (h : 0 < den) (e : Int) (k : Nat) :
    2 ^ k ≤ (scaled num den e).1 / (scaled num den e).2 ↔ (2 : ℚ) ^ ((k : ℤ) + e) ≤ num / den := by
  have hd : (0 : ℚ) < (scaled num den e).2 := by exact_mod_cast scaled_pos num h e
  have hcast : 2 ^ k * (scaled num den e).2 ≤ (scaled num den e).1 ↔
      (2 : ℚ) ^ k * (scaled num den e).2 ≤ (scaled num den e).1 := by exact_mod_cast Iff.rfl
  rw [Nat.le_div_iff_mul_le (scaled_pos num h e), hcast, ← le_div_iff₀ hd, scaled_div,
    le_div_iff₀ (by positivity), ← zpow_natCast, ← zpow_add₀ (by norm_num)]

/-- The chosen exponent gives a mantissa of 53 bits, or is the least one. -/
theorem exponentFor_spec {num den : Nat} (hn : num ≠ 0) (hd : den ≠ 0) :
    leastExponent ≤ exponentFor num den ∧
      (num : ℚ) / den < 2 ^ (53 + exponentFor num den) ∧
      (exponentFor num den = leastExponent ∨
        (2 : ℚ) ^ (52 + exponentFor num den) ≤ num / den) := by
  obtain ⟨hlo, hhi⟩ := log2_bounds hn hd
  unfold exponentFor
  dsimp only
  set e := max ((num.log2 : ℤ) - den.log2 - 53) leastExponent with he
  have hle : leastExponent ≤ e := le_max_right _ _
  have hup : (num : ℚ) / den < 2 ^ (54 + e) :=
    hhi.trans_le (zpow_le_zpow_right₀ (by norm_num) (by omega))
  have hiff := le_scaled_iff num (Nat.pos_of_ne_zero hd) e 53
  rw [twoTo_eq]
  split
  · -- the guess was one too low: the mantissa would have 54 bits
    next h =>
    have h53 := hiff.1 h
    refine ⟨by omega, ?_, .inr ?_⟩
    · rwa [show 53 + (e + 1) = 54 + e by ring]
    · rw [show 52 + (e + 1) = 53 + e by ring]
      exact_mod_cast h53
  · next h =>
    have h53 := lt_of_not_ge fun h' => h (hiff.2 h')
    refine ⟨hle, by exact_mod_cast h53, ?_⟩
    -- the guess is the difference of the bit lengths, unless that is below the least exponent
    rcases max_choice ((num.log2 : ℤ) - den.log2 - 53) leastExponent with hm | hm
    · right
      rw [he, hm]
      exact hlo.le.trans' (zpow_le_zpow_right₀ (by norm_num) (by omega))
    · exact .inl (he.trans hm)

/-! ### Rounding -/

/-- The mantissa before it is packed: at most `2 ^ 53`, and within half a unit of the quotient. -/
theorem roundDiv_scaled {num den : Nat} (hn : num ≠ 0) (hd : den ≠ 0) :
    roundDiv (scaled num den (exponentFor num den)).1 (scaled num den (exponentFor num den)).2 ≤
        2 ^ 53 ∧
      (roundDiv (scaled num den (exponentFor num den)).1 (scaled num den (exponentFor num den)).2 :
        ℚ) * 2 ^ exponentFor num den ≤ num / den + 2 ^ (exponentFor num den - 1) := by
  obtain ⟨-, hlt, -⟩ := exponentFor_spec hn hd
  set e := exponentFor num den
  have hpos := scaled_pos num (Nat.pos_of_ne_zero hd) e
  have hp : (0 : ℚ) < 2 ^ e := by positivity
  constructor
  · refine roundDiv_le_of_lt ?_
    have h := (le_scaled_iff num (Nat.pos_of_ne_zero hd) e 53).not.2
      (not_le.2 (by exact_mod_cast hlt))
    rw [Nat.le_div_iff_mul_le hpos, not_le] at h
    exact h
  · have h := roundDiv_le (scaled num den e).1 hpos
    rw [scaled_div] at h
    calc _ ≤ ((num : ℚ) / den / 2 ^ e + 1 / 2) * 2 ^ e := by gcongr
      _ = num / den + 2 ^ (e - 1) := by
          rw [zpow_sub_one₀ (by norm_num)]
          field_simp

/-- Packing keeps the value, and gives a double in range if the exponent leaves room. -/
theorem pack_spec (s : Bool) {m : Nat} {e : Int} (hm : m ≤ 2 ^ 53) (he : leastExponent ≤ e)
    (hroom : e < greatestExponent ∨ e = greatestExponent ∧ m ≠ 2 ^ 53) :
    (pack s m e).InRange ∧ (pack s m e).magnitude = m * 2 ^ e := by
  unfold pack
  by_cases h : m = 2 ^ 53
  · have hlt : ¬ greatestExponent < e + 1 := by omega
    simp only [twoTo_eq, h, beq_self_eq_true, if_true, hlt, if_false, InRange, magnitude]
    refine ⟨⟨by norm_num, by omega, by omega⟩, ?_⟩
    rw [zpow_add₀ (by norm_num)]
    norm_num
    ring
  · have hlt : ¬ greatestExponent < e := by omega
    simp only [twoTo_eq, beq_iff_eq, h, if_false, hlt, InRange, magnitude]
    exact ⟨⟨lt_of_le_of_ne hm h, he, by omega⟩, trivial⟩

/-- The exponent of a quotient below the bound leaves room for its mantissa. -/
theorem room_of_lt {num den : Nat} (hn : num ≠ 0) (hd : den ≠ 0)
    (h : (num : ℚ) / den < overflowAt) :
    exponentFor num den < greatestExponent ∨ exponentFor num den = greatestExponent ∧
      roundDiv (scaled num den (exponentFor num den)).1 (scaled num den (exponentFor num den)).2 ≠
        2 ^ 53 := by
  obtain ⟨-, -, hlow⟩ := exponentFor_spec hn hd
  set e := exponentFor num den with he
  have hle : e ≤ greatestExponent := by
    rcases hlow with hl | hl
    · rw [hl]
      decide
    · -- with a greater exponent the quotient would be out of reach
      by_contra hgt
      have hp : (0 : ℚ) < 2 ^ greatestExponent := by positivity
      have hup : overflowAt ≤ 2 ^ (52 + e) := by
        calc overflowAt ≤ 2 ^ (53 : ℤ) * 2 ^ greatestExponent := by
              unfold overflowAt
              gcongr
              norm_num
          _ = 2 ^ (53 + greatestExponent) := (zpow_add₀ (by norm_num) _ _).symm
          _ ≤ 2 ^ (52 + e) := zpow_le_zpow_right₀ (by norm_num) (by omega)
      exact absurd (hl.trans_lt h) (not_lt.2 hup)
  rcases hle.lt_or_eq with hlt | heq
  · exact .inl hlt
  · refine .inr ⟨heq, ?_⟩
    intro hm
    have hb := roundDiv_le (scaled num den e).1 (scaled_pos num (Nat.pos_of_ne_zero hd) e)
    rw [hm, scaled_div, heq] at hb
    -- a mantissa of `2 ^ 53` at the greatest exponent comes from half a unit below `2 ^ 1024`
    have hp : (0 : ℚ) < 2 ^ greatestExponent := by positivity
    have hT : overflowAt ≤ num / den := by
      rw [overflowAt, ← le_div_iff₀ hp]
      push_cast at hb
      linarith
    exact absurd h (not_lt.2 hT)

theorem ofRatio_eq_pack (s : Bool) {num den : Nat} (hn : num ≠ 0) (hd : den ≠ 0) :
    ofRatio s num den = pack s (roundDiv (scaled num den (exponentFor num den)).1
      (scaled num den (exponentFor num den)).2) (exponentFor num den) := by
  rw [ofRatio, if_neg (by simp [hn, hd])]

/-- **A quotient below the bound is rounded to a double in range**, and a quotient that is at least
one grows by at most one part in `2 ^ 53`. -/
theorem finite_ofRatio (s : Bool) {num den : Nat} (hd : den ≠ 0)
    (h : (num : ℚ) / den < overflowAt) :
    (ofRatio s num den).InRange ∧ (1 ≤ (num : ℚ) / den →
      (ofRatio s num den).magnitude ≤ num / den * (1 + 1 / 2 ^ 53)) := by
  by_cases hn : num = 0
  · simp [ofRatio, hn, InRange, leastExponent, greatestExponent]
  · obtain ⟨hle, -, hlow⟩ := exponentFor_spec hn hd
    obtain ⟨hm, hv⟩ := roundDiv_scaled hn hd
    obtain ⟨hr, he⟩ := pack_spec s hm hle (room_of_lt hn hd h)
    rw [ofRatio_eq_pack s hn hd]
    refine ⟨hr, ?_⟩
    intro h1
    refine he.le.trans (hv.trans ?_)
    -- half a unit is a small part of a number that is at least one
    have hunit : (2 : ℚ) ^ (exponentFor num den - 1) ≤ num / den / 2 ^ 53 := by
      rw [le_div_iff₀ (by positivity), ← zpow_natCast, ← zpow_add₀ (by norm_num)]
      rcases hlow with hl | hl
      · rw [hl]
        exact h1.trans' (zpow_le_one_of_nonpos₀ (by norm_num) (by decide))
      · exact hl.trans' (zpow_le_zpow_right₀ (by norm_num) (by push_cast; omega))
    linarith

/-- Rounding gives a double in range or an infinity. -/
theorem inRange_ofRatio (s : Bool) (num den : Nat) :
    (ofRatio s num den).InRange ∨ ofRatio s num den = .infinite s := by
  by_cases hz : num = 0 ∨ den = 0
  · left
    rcases hz with rfl | rfl <;> simp [ofRatio, InRange, leastExponent, greatestExponent]
  · obtain ⟨hn, hd⟩ := not_or.1 hz
    obtain ⟨hle, -, -⟩ := exponentFor_spec hn hd
    obtain ⟨hm, -⟩ := roundDiv_scaled hn hd
    rw [ofRatio_eq_pack s hn hd]
    set e := exponentFor num den
    set m := roundDiv (scaled num den e).1 (scaled num den e).2
    by_cases hroom : e < greatestExponent ∨ e = greatestExponent ∧ m ≠ 2 ^ 53
    · exact .inl (pack_spec s hm hle hroom).1
    · right
      unfold pack
      by_cases h : m = 2 ^ 53
      · simp only [twoTo_eq, h, beq_self_eq_true, if_true]
        rw [if_pos (by omega)]
      · simp only [twoTo_eq, beq_iff_eq, h, if_false]
        rw [if_pos (by omega)]

/-- A product is in range unless it is an infinity. -/
theorem inRange_mul_of_isInfinite_eq {x y : Binary64} (h : (x.mul y).isInfinite = false) :
    (x.mul y).InRange := by
  cases x with
  | infinite _ => cases y <;> cases h
  | finite s m e => cases y with
    | infinite _ => cases h
    | finite t n f =>
        rcases inRange_ofRatio (s != t) ((ratio m e).1 * (ratio n f).1)
          ((ratio m e).2 * (ratio n f).2) with hr | hr
        · exact hr
        · have : (finite s m e).mul (finite t n f) = .infinite (s != t) := hr
          rw [this] at h
          cases h

/-- A product whose exact value lies below the bound is a double in range. -/
theorem inRange_mul {x y : Binary64} (hx : x.InRange) (hy : y.InRange)
    (h : x.magnitude * y.magnitude < overflowAt) : (x.mul y).InRange := by
  cases x with
  | infinite _ => exact absurd hx id
  | finite s m e => cases y with
    | infinite _ => exact absurd hy id
    | finite t n f =>
        have hmul : (finite s m e).mul (finite t n f) = ofRatio (s != t)
            ((ratio m e).1 * (ratio n f).1) ((ratio m e).2 * (ratio n f).2) := rfl
        rw [hmul]
        refine (finite_ofRatio _ ?_ ?_).1
        · exact (Nat.mul_pos (ratio_pos m e) (ratio_pos n f)).ne'
        · rw [Nat.cast_mul, Nat.cast_mul, mul_div_mul_comm, ratio_div, ratio_div]
          exact h

/-- Half a unit above a double in range is at most the bound of overflow. -/
theorem high_le_overflowAt {m : Nat} {e : Int} (hm : m < 2 ^ 53) (he : e ≤ greatestExponent) :
    (m : ℚ) * 2 ^ e + 2 ^ (e - 1) ≤ overflowAt := by
  have hm' : (m : ℚ) ≤ 2 ^ 53 - 1 := by
    have : m + 1 ≤ 2 ^ 53 := hm
    have : (m : ℚ) + 1 ≤ 2 ^ 53 := by exact_mod_cast this
    linarith
  calc (m : ℚ) * 2 ^ e + 2 ^ (e - 1) = (m + 1 / 2) * 2 ^ e := by
        rw [zpow_sub_one₀ (by norm_num)]
        ring
    _ ≤ (2 ^ 53 - 1 / 2) * 2 ^ greatestExponent := by
        gcongr
        · linarith
        · norm_num

theorem InRange.magnitude_lt {x : Binary64} (h : x.InRange) : x.magnitude < overflowAt := by
  cases x with
  | infinite _ => exact absurd h id
  | finite s m e =>
      have hhalf : (0 : ℚ) < 2 ^ (e - 1) := by positivity
      have := high_le_overflowAt h.1 h.2.2
      simp only [magnitude]
      linarith

theorem le_roundDiv (num den : Nat) : num / den ≤ roundDiv num den := by
  unfold roundDiv
  dsimp only
  split <;> omega

/-- A quotient that is at least one is not rounded below one. -/
theorem one_le_magnitude_ofRatio (s : Bool) {num den : Nat} (hd : den ≠ 0)
    (h : (num : ℚ) / den < overflowAt) (h1 : 1 ≤ (num : ℚ) / den) :
    1 ≤ (ofRatio s num den).magnitude := by
  have hn : num ≠ 0 := by
    rintro rfl
    norm_num at h1
  obtain ⟨hle, -, hlow⟩ := exponentFor_spec hn hd
  obtain ⟨hm, -⟩ := roundDiv_scaled hn hd
  rw [ofRatio_eq_pack s hn hd, (pack_spec s hm hle (room_of_lt hn hd h)).2]
  set e := exponentFor num den
  have hiff := le_scaled_iff num (Nat.pos_of_ne_zero hd) e
  have hround := le_roundDiv (scaled num den e).1 (scaled num den e).2
  have hp : (0 : ℚ) < 2 ^ e := by positivity
  -- below a power of two, the mantissa is at least the inverse of the unit; above, it is at least one
  rcases le_or_gt e 0 with he | he
  · obtain ⟨k, hk⟩ : ∃ k : ℕ, e = -k := ⟨(-e).toNat, by omega⟩
    have hq := (hiff k).2 (by rw [hk, add_neg_cancel, zpow_zero]; exact h1)
    have hq' : (2 : ℚ) ^ k ≤ roundDiv (scaled num den e).1 (scaled num den e).2 := by
      exact_mod_cast hq.trans hround
    calc (1 : ℚ) = 2 ^ k * 2 ^ e := by
          rw [hk, zpow_neg, zpow_natCast, mul_inv_cancel₀ (by positivity)]
      _ ≤ _ := by gcongr
  · have hleast : leastExponent < 0 := by decide
    have hlow' : (2 : ℚ) ^ (52 + e) ≤ num / den := hlow.resolve_left (by omega)
    have hq := (hiff 0).2 (hlow'.trans' (zpow_le_zpow_right₀ (by norm_num) (by push_cast; omega)))
    have hq' : (1 : ℚ) ≤ roundDiv (scaled num den e).1 (scaled num den e).2 := by
      exact_mod_cast hq.trans hround
    exact one_le_mul_of_one_le_of_one_le hq' (one_le_zpow₀ (by norm_num) he.le)

/-- A quotient by a number that is at least one is a double in range. -/
theorem inRange_div {x y : Binary64} (hx : x.InRange) (hy : y.InRange) (h : 1 ≤ y.magnitude) :
    (x.div y).InRange := by
  have hlt := hx.magnitude_lt
  cases x with
  | infinite _ => exact absurd hx id
  | finite s m e => cases y with
    | infinite _ => exact absurd hy id
    | finite t n f =>
        simp only [magnitude] at h hlt
        have hn : n ≠ 0 := by
          rintro rfl
          norm_num at h
        have hdiv : (finite s m e).div (finite t n f) = ofRatio (s != t)
            ((ratio m e).1 * (ratio n f).2) ((ratio m e).2 * (ratio n f).1) := by
          simp [div, hn]
        have hc : (ratio n f).1 ≠ 0 := by
          intro hz
          have := ratio_div n f
          rw [hz, Nat.cast_zero, zero_div] at this
          linarith
        rw [hdiv]
        refine (finite_ofRatio _ (mul_ne_zero (ratio_pos m e).ne' hc) ?_).1
        have hq : (((ratio m e).1 * (ratio n f).2 : ℕ) : ℚ) / ((ratio m e).2 * (ratio n f).1 : ℕ) =
            m * 2 ^ e / (n * 2 ^ f) := by
          rw [← ratio_div m e, ← ratio_div n f]
          push_cast
          rw [div_div_div_eq]
        rw [hq]
        exact (div_le_self (by positivity) h).trans_lt hlt

end Binary64

end SchemaScope
